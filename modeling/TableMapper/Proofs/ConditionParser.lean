import TableMapper.Proofs.Lexeme

/-!
# Reading a condition

How the database reads the lexemes of a condition: brackets group, `AND` binds
tighter than `OR`, and everything between two connectives is one comparison,
whose own brackets and commas belong to it.  The reader keeps one frame for
each bracket that is open and takes one lexeme at a time; at a lexeme that
cannot stand where it does, it gives up.

* `parse` — the formula that a list of lexemes is;
* `balanced_of_parse` — what can be read has balanced brackets;
* `Reads` — lexemes that are one factor in whatever frame they stand;
* `reads_group`, `parse_join` — factors with one connective between them, in
  brackets and on their own.
-/

namespace TableMapper

/-- The words that join comparisons. -/
inductive Connective
  | and
  | or
  deriving DecidableEq, Repr

namespace Connective

/-- The word in a statement. -/
def word : Connective → String
  | and => "AND"
  | or => "OR"

/-- The connective that a word is. -/
def ofWord? (w : String) : Option Connective :=
  if w = "AND" then some and else if w = "OR" then some or else none

end Connective

/-- A formula: comparisons, each with the lexemes it is written with, in groups. -/
inductive Formula
  | atom (ls : List Lexeme)
  | all (fs : List Formula)
  | any (fs : List Formula)

namespace Formula

/-- Formulas with a connective between them.  One formula alone is no group. -/
def join : Connective → List Formula → Formula
  | _, [f] => f
  | .and, fs => .all fs
  | .or, fs => .any fs

mutual

/-- A formula in which no group has just one member. -/
def collapse : Formula → Formula
  | atom ls => atom ls
  | all fs => join .and (collapseAll fs)
  | any fs => join .or (collapseAll fs)

/-- Several formulas in which no group has just one member. -/
def collapseAll : List Formula → List Formula
  | [] => []
  | f :: fs => f.collapse :: collapseAll fs

end

/-- Formulas are collapsed one by one. -/
theorem collapseAll_eq_map (fs : List Formula) : collapseAll fs = fs.map collapse := by
  induction fs with
  | nil => rfl
  | cons f fs ih => rw [collapseAll, ih, List.map_cons]

end Formula

/-- What has been read between two brackets: the alternatives that `OR` has
ended, and the factors of the alternative being read. -/
structure Frame where
  alternatives : List Formula := []
  factors : List Formula := []

namespace Frame

/-- The frame behind a factor and a connective. -/
def push (frame : Frame) (f : Formula) : Connective → Frame
  | .and => { frame with factors := frame.factors ++ [f] }
  | .or =>
    { alternatives := frame.alternatives ++ [.join .and (frame.factors ++ [f])] }

/-- The formula of a frame whose last factor is `f`. -/
def close (frame : Frame) (f : Formula) : Formula :=
  .join .or (frame.alternatives ++ [.join .and (frame.factors ++ [f])])

end Frame

/-- A lexeme that comparisons are made of at any depth. -/
def Lexeme.isInner : Lexeme → Bool
  | word w => (Connective.ofWord? w).isNone
  | quoted _ _ => true
  | _ => false

/-- The factor that is being read: none yet, a comparison with the number of
its brackets that are open, or a whole group. -/
inductive Pending
  | nothing
  | atom (ls : List Lexeme) (depth : Nat)
  | group (f : Formula)

namespace Pending

/-- The factor with one more lexeme, unless the lexeme is not part of it. -/
def extend? : Pending → Lexeme → Option Pending
  | nothing, l => if l.isInner then some (atom [l] 0) else none
  | atom ls depth, .opening => some (atom (ls ++ [.opening]) (depth + 1))
  | atom ls (depth + 1), .closing => some (atom (ls ++ [.closing]) depth)
  | atom ls (depth + 1), .comma => some (atom (ls ++ [.comma]) (depth + 1))
  | atom ls depth, l => if l.isInner then some (atom (ls ++ [l]) depth) else none
  | group _, _ => none

/-- The factor, if it can end here. -/
def formula? : Pending → Option Formula
  | nothing => none
  | atom ls 0 => some (.atom ls)
  | atom _ (_ + 1) => none
  | group f => some f

end Pending

/-- Where a reader of a condition is: the frames around the innermost open
bracket, the frame inside it, and the factor being read. -/
structure Reader where
  enclosing : List Frame := []
  frame : Frame := {}
  pending : Pending := .nothing

namespace Reader

/-- The formula of what stands between the innermost brackets, if it can end
here. -/
def formula? (r : Reader) : Option Formula :=
  r.pending.formula?.map r.frame.close

/-- The reader behind a lexeme. -/
def step (r : Reader) (l : Lexeme) : Option Reader :=
  match r.pending.extend? l with
  | some pending => some { r with pending }
  | none =>
    match r.pending.formula?, l with
    | none, .opening => some { enclosing := r.frame :: r.enclosing }
    | some f, .word w =>
      (Connective.ofWord? w).map fun c => { r with frame := r.frame.push f c, pending := .nothing }
    | some f, .closing =>
      match r.enclosing with
      | outer :: enclosing =>
        some { enclosing, frame := outer, pending := .group (r.frame.close f) }
      | [] => none
    | _, _ => none

/-- The reader behind several lexemes. -/
def run (r : Reader) (ls : List Lexeme) : Option Reader :=
  ls.foldlM step r

/-- The formula, if everything has been read. -/
def result? (r : Reader) : Option Formula :=
  if r.enclosing.isEmpty then r.formula? else none

end Reader

/-- The formula that a list of lexemes is. -/
def parse (ls : List Lexeme) : Option Formula :=
  (Reader.run {} ls).bind Reader.result?

/-- The number of open brackets behind a lexeme. -/
def Lexeme.depth? (depth : Nat) : Lexeme → Option Nat
  | opening => some (depth + 1)
  | closing => if depth = 0 then none else some (depth - 1)
  | _ => some depth

/-- Every bracket that closes has been opened, and none stays open. -/
def Balanced (ls : List Lexeme) : Prop :=
  ls.foldlM Lexeme.depth? 0 = some 0

/-- The number of brackets that a factor has open. -/
def Pending.depth : Pending → Nat
  | atom _ depth => depth
  | _ => 0

/-- The number of brackets that are open. -/
def Reader.depth (r : Reader) : Nat :=
  r.enclosing.length + r.pending.depth

/-- A lexeme within a comparison opens and closes nothing. -/
theorem Lexeme.depth?_of_isInner {l : Lexeme} (hl : l.isInner = true) (depth : Nat) :
    l.depth? depth = some depth := by
  cases l <;> first | rfl | cases hl

/-- A formula is pending only outside of its brackets. -/
theorem Pending.depth_of_formula? {p : Pending} {f : Formula} (hp : p.formula? = some f) :
    p.depth = 0 := by
  cases p with
  | nothing => cases hp
  | atom ls depth =>
      cases depth with
      | zero => rfl
      | succ depth => cases hp
  | group g => rfl

/-- A reader that neither goes on nor can end at an opening bracket has not begun
a factor. -/
theorem Pending.eq_nothing {p : Pending} (hextend : p.extend? .opening = none)
    (hformula : p.formula? = none) : p = nothing := by
  cases p with
  | nothing => rfl
  | atom ls depth => cases hextend
  | group f => cases hformula

/-- A lexeme that goes into a factor opens or closes one of its brackets or
none. -/
theorem Pending.depth?_of_extend? {p q : Pending} {l : Lexeme} (hq : p.extend? l = some q)
    (outside : Nat) : l.depth? (outside + p.depth) = some (outside + q.depth) := by
  unfold Pending.extend? at hq
  split at hq
  · obtain ⟨hl, hatom⟩ := Option.ite_none_right_eq_some.mp hq
    cases hatom
    exact Lexeme.depth?_of_isInner hl _
  · cases hq
    rfl
  · cases hq
    rfl
  · cases hq
    rfl
  · obtain ⟨hl, hatom⟩ := Option.ite_none_right_eq_some.mp hq
    cases hatom
    exact Lexeme.depth?_of_isInner hl _
  · cases hq

namespace Reader

/-- Where a formula is complete, the depth is that of the frames around it. -/
theorem depth_of_formula? {r : Reader} {f : Formula} (hf : r.pending.formula? = some f) :
    r.depth = r.enclosing.length := by
  rw [depth, Pending.depth_of_formula? hf, Nat.add_zero]

/-- The reader counts the open brackets. -/
theorem depth?_of_step {r r' : Reader} {l : Lexeme} (hstep : r.step l = some r') :
    l.depth? r.depth = some r'.depth := by
  unfold step at hstep
  split at hstep
  · rename_i pending hextend
    cases hstep
    exact Pending.depth?_of_extend? hextend r.enclosing.length
  · split at hstep
    · rename_i hformula hextend
      cases hstep
      rw [depth, Pending.eq_nothing hextend hformula]
      rfl
    · rename_i f w hformula hextend
      obtain ⟨c, _, hr⟩ := Option.map_eq_some_iff.mp hstep
      rw [depth_of_formula? hformula, ← hr]
      rfl
    · rename_i f hformula hextend
      split at hstep
      · rename_i outer enclosing hframes
        cases hstep
        rw [depth_of_formula? hformula, hframes]
        rfl
      · cases hstep
    · cases hstep

/-- The depth of the reader is that of the lexemes it has read. -/
theorem depth?_of_run {r r' : Reader} {ls : List Lexeme} (hrun : r.run ls = some r') :
    ls.foldlM Lexeme.depth? r.depth = some r'.depth := by
  induction ls generalizing r with
  | nil =>
      cases hrun
      rfl
  | cons l ls ih =>
      rw [run, List.foldlM_cons] at hrun
      obtain ⟨next, hstep, hrest⟩ := Option.bind_eq_some_iff.mp hrun
      rw [List.foldlM_cons, depth?_of_step hstep]
      exact ih hrest

/-- A result is there only when all brackets are closed. -/
theorem depth_of_result? {r : Reader} {f : Formula} (hf : r.result? = some f) :
    r.depth = 0 := by
  obtain ⟨hframes, hformula⟩ := Option.ite_none_right_eq_some.mp hf
  obtain ⟨g, hg, _⟩ := Option.map_eq_some_iff.mp hformula
  rw [depth, List.isEmpty_iff.mp hframes, Pending.depth_of_formula? hg]
  rfl

end Reader

/-- What can be read has balanced brackets. -/
theorem balanced_of_parse {ls : List Lexeme} {f : Formula} (hf : parse ls = some f) :
    Balanced ls := by
  obtain ⟨r, hrun, hresult⟩ := Option.bind_eq_some_iff.mp hf
  have hdepth := Reader.depth?_of_run hrun
  rw [Reader.depth_of_result? hresult] at hdepth
  exact hdepth

namespace Reader

/-- Lexemes behind others are read where those have led. -/
theorem run_append (r : Reader) (ls ms : List Lexeme) :
    r.run (ls ++ ms) = (r.run ls).bind fun r' => r'.run ms := by
  rw [run, List.foldlM_append]
  rfl

/-- One lexeme is one step. -/
theorem run_singleton (r : Reader) (l : Lexeme) : r.run [l] = r.step l := by
  rw [run, List.foldlM_cons]
  exact Option.bind_fun_some _

/-- A lexeme that goes on with the pending part only changes that. -/
theorem step_extend {r : Reader} {q : Pending} {l : Lexeme}
    (hq : r.pending.extend? l = some q) : r.step l = some { r with pending := q } := by
  unfold step
  rw [hq]

/-- A reader in front of a factor opens a bracket. -/
theorem step_opening (enclosing : List Frame) (frame : Frame) :
    step ⟨enclosing, frame, .nothing⟩ .opening = some { enclosing := frame :: enclosing } :=
  rfl

/-- A factor that can end here ends at a connective. -/
theorem step_connective {p : Pending} {f : Formula} (hp : p.formula? = some f)
    (enclosing : List Frame) (frame : Frame) (c : Connective) :
    step ⟨enclosing, frame, p⟩ (.word c.word) = some ⟨enclosing, frame.push f c, .nothing⟩ := by
  cases p with
  | nothing => cases hp
  | atom ls depth =>
      cases depth with
      | zero =>
          cases hp
          cases c <;> rfl
      | succ depth => cases hp
  | group g =>
      cases hp
      cases c <;> rfl

/-- A factor that can end here ends at a closing bracket, and its frame with
it. -/
theorem step_closing {p : Pending} {f : Formula} (hp : p.formula? = some f)
    (outer : Frame) (enclosing : List Frame) (frame : Frame) :
    step ⟨outer :: enclosing, frame, p⟩ .closing =
      some ⟨enclosing, outer, .group (frame.close f)⟩ := by
  cases p with
  | nothing => cases hp
  | atom ls depth =>
      cases depth with
      | zero =>
          cases hp
          rfl
      | succ depth => cases hp
  | group g =>
      cases hp
      rfl

end Reader

/-- The lexemes are one factor: a reader in front of them comes out behind them
in the frame it was in, and can end the factor there. -/
def Reads (ls : List Lexeme) (f : Formula) : Prop :=
  ∀ enclosing frame, ∃ p : Pending, p.formula? = some f ∧
    Reader.run ⟨enclosing, frame, .nothing⟩ ls = some ⟨enclosing, frame, p⟩

namespace Connective

/-- The frame behind factors with a connective behind each. -/
def frame (fs : List Formula) : Connective → Frame
  | and => { factors := fs }
  | or => { alternatives := fs }

theorem frame_nil (c : Connective) : c.frame [] = {} := by
  cases c <;> rfl

/-- A formula that is pushed stands behind the others. -/
theorem frame_push (c : Connective) (fs : List Formula) (f : Formula) :
    (c.frame fs).push f c = c.frame (fs ++ [f]) := by
  cases c <;> rfl

/-- A frame is closed around all that has been pushed and the last. -/
theorem frame_close (c : Connective) (fs : List Formula) (f : Formula) :
    (c.frame fs).close f = .join c (fs ++ [f]) := by
  cases c <;> rfl

end Connective

section Joined

variable {α : Type} {written : α → List Lexeme} {meant : α → Formula} {l : List α}

/-- A reader of factors with one connective between them keeps them in order. -/
theorem run_join (c : Connective) (enclosing : List Frame) (hne : l ≠ [])
    (hl : ∀ a ∈ l, Reads (written a) (meant a)) (done : List Formula) :
    ∃ frame p f, p.formula? = some f ∧ frame.close f = .join c (done ++ l.map meant) ∧
      Reader.run ⟨enclosing, c.frame done, .nothing⟩
        ([.word c.word].intercalate (l.map written)) = some ⟨enclosing, frame, p⟩ := by
  induction l generalizing done with
  | nil => exact absurd rfl hne
  | cons a l ih =>
      obtain ⟨p, hp, hrun⟩ := hl a List.mem_cons_self enclosing (c.frame done)
      cases l with
      | nil =>
          refine ⟨c.frame done, p, meant a, hp, c.frame_close done (meant a), ?_⟩
          rw [List.map_singleton, List.intercalate_singleton]
          exact hrun
      | cons b l =>
          have hrest := ih (List.cons_ne_nil b l) (fun d hd => hl d (List.mem_cons_of_mem _ hd))
            (done ++ [meant a])
          obtain ⟨frame, q, f, hq, hclose, hrunRest⟩ := hrest
          refine ⟨frame, q, f, hq, ?_, ?_⟩
          · rw [hclose, List.append_assoc]
            rfl
          · rw [List.map_cons, List.map_cons, List.intercalate_cons_cons, List.append_assoc,
              Reader.run_append, hrun, Option.bind_some, Reader.run_append, Reader.run_singleton,
              Reader.step_connective hp, Option.bind_some, c.frame_push, ← List.map_cons]
            exact hrunRest

/-- Factors with one connective between them, in brackets, are one factor. -/
theorem reads_group (c : Connective) (hne : l ≠ [])
    (hl : ∀ a ∈ l, Reads (written a) (meant a)) :
    Reads (.opening :: ([.word c.word].intercalate (l.map written) ++ [.closing]))
      (.join c (l.map meant)) := by
  intro enclosing frame
  obtain ⟨inner, p, f, hp, hclose, hrun⟩ := run_join c (frame :: enclosing) hne hl []
  refine ⟨.group (inner.close f), by rw [hclose]; rfl, ?_⟩
  rw [← List.singleton_append, Reader.run_append, Reader.run_singleton, Reader.step_opening,
    Option.bind_some, ← c.frame_nil, Reader.run_append, hrun, Option.bind_some,
    Reader.run_singleton, Reader.step_closing hp]

/-- Factors with one connective between them are a whole condition. -/
theorem parse_join (c : Connective) (hne : l ≠ [])
    (hl : ∀ a ∈ l, Reads (written a) (meant a)) :
    parse ([.word c.word].intercalate (l.map written)) = some (.join c (l.map meant)) := by
  obtain ⟨frame, p, f, hp, hclose, hrun⟩ := run_join c [] hne hl []
  rw [c.frame_nil] at hrun
  rw [parse, hrun, Option.bind_some, Reader.result?, Reader.formula?, hp, Option.map_some, hclose]
  rfl

end Joined

/-- `AND` binds tighter than `OR`. -/
example : parse [.word "a", .word "OR", .word "b", .word "AND", .word "c"] =
    some (.any [.atom [.word "a"], .all [.atom [.word "b"], .atom [.word "c"]]]) := rfl

namespace Reads

variable {ls : List Lexeme} {f : Formula}

/-- One factor in brackets is one factor. -/
theorem brackets (h : Reads ls f) : Reads (.opening :: (ls ++ [.closing])) f := by
  have hgroup : Reads
      (.opening :: ([.word Connective.and.word].intercalate ([()].map fun _ => ls) ++ [.closing]))
      (.join .and ([()].map fun _ => f)) :=
    reads_group .and (List.cons_ne_nil _ _) fun _ _ => h
  rwa [List.map_singleton, List.intercalate_singleton] at hgroup

/-- One factor is a whole condition. -/
theorem parse_eq (h : Reads ls f) : parse ls = some f := by
  have hjoin : parse ([.word Connective.and.word].intercalate ([()].map fun _ => ls)) =
      some (.join .and ([()].map fun _ => f)) :=
    parse_join .and (List.cons_ne_nil _ _) fun _ _ => h
  rwa [List.map_singleton, List.intercalate_singleton] at hjoin

end Reads

/-- The lexemes go on with a comparison, whatever has been read of it. -/
def Extends (ls : List Lexeme) : Prop :=
  ∀ enclosing frame before depth,
    Reader.run ⟨enclosing, frame, .atom before depth⟩ ls =
      some ⟨enclosing, frame, .atom (before ++ ls) depth⟩

namespace Extends

theorem nil : Extends [] := by
  intro enclosing frame before depth
  rw [List.append_nil]
  rfl

/-- Parts that go on with a comparison do so together. -/
theorem append {ls ms : List Lexeme} (hls : Extends ls) (hms : Extends ms) :
    Extends (ls ++ ms) := by
  intro enclosing frame before depth
  rw [Reader.run_append, hls, Option.bind_some, hms, List.append_assoc]

theorem inner {l : Lexeme} (hl : l.isInner = true) : Extends [l] := by
  intro enclosing frame before depth
  have hextend : (Pending.atom before depth).extend? l = some (.atom (before ++ [l]) depth) := by
    cases l with
    | word w => exact if_pos hl
    | quoted kind content => rfl
    | _ => cases hl
  rw [Reader.run_singleton, Reader.step_extend hextend]

/-- Lexemes within comparisons go on with one. -/
theorem of_inner {ls : List Lexeme} (hls : ∀ l ∈ ls, l.isInner = true) : Extends ls := by
  induction ls with
  | nil => exact nil
  | cons l ls ih =>
      have htail := ih fun m hm => hls m (List.mem_cons_of_mem _ hm)
      exact (inner (hls l List.mem_cons_self)).append htail

/-- Inside its brackets a comparison also has commas. -/
theorem run_inside {ls : List Lexeme} (hls : ∀ l ∈ ls, l.isInner = true ∨ l = .comma)
    (enclosing : List Frame) (frame : Frame) (before : List Lexeme) (depth : Nat) :
    Reader.run ⟨enclosing, frame, .atom before (depth + 1)⟩ ls =
      some ⟨enclosing, frame, .atom (before ++ ls) (depth + 1)⟩ := by
  induction ls generalizing before with
  | nil =>
      rw [List.append_nil]
      rfl
  | cons l ls ih =>
      have hfirst : Reader.run ⟨enclosing, frame, .atom before (depth + 1)⟩ [l] =
          some ⟨enclosing, frame, .atom (before ++ [l]) (depth + 1)⟩ := by
        rcases hls l List.mem_cons_self with hl | rfl
        · exact inner hl enclosing frame before (depth + 1)
        · rfl
      have hrest := ih (fun m hm => hls m (List.mem_cons_of_mem _ hm)) (before ++ [l])
      rw [← List.singleton_append, Reader.run_append, hfirst, Option.bind_some, hrest,
        List.append_assoc]

/-- A list in brackets goes on with a comparison. -/
theorem brackets {ls : List Lexeme} (hls : ∀ l ∈ ls, l.isInner = true ∨ l = .comma) :
    Extends (.opening :: (ls ++ [.closing])) := by
  intro enclosing frame before depth
  have hinside := run_inside hls enclosing frame (before ++ [.opening]) depth
  have hopening : (Pending.atom before depth).extend? .opening =
      some (.atom (before ++ [.opening]) (depth + 1)) := rfl
  have hclosing : (Pending.atom (before ++ [.opening] ++ ls) (depth + 1)).extend? .closing =
      some (.atom (before ++ [.opening] ++ ls ++ [.closing]) depth) := rfl
  rw [← List.singleton_append, Reader.run_append, Reader.run_singleton,
    Reader.step_extend hopening, Option.bind_some, Reader.run_append, hinside, Option.bind_some,
    Reader.run_singleton, Reader.step_extend hclosing]
  simp

end Extends

/-- A comparison is one factor. -/
theorem reads_atom {l : Lexeme} {ls : List Lexeme} (hl : l.isInner = true)
    (hls : Extends ls) : Reads (l :: ls) (.atom (l :: ls)) := by
  intro enclosing frame
  refine ⟨.atom (l :: ls) 0, rfl, ?_⟩
  have hextend : Pending.nothing.extend? l = some (.atom [l] 0) := if_pos hl
  rw [← List.singleton_append, Reader.run_append, Reader.run_singleton,
    Reader.step_extend hextend]
  exact hls enclosing frame [l] 0

end TableMapper
