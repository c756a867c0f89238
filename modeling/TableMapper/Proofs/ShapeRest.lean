import TableMapper.Derive.Declaration

/-!
# What a shape leaves

A shape takes tokens off the front of a sequence, and no others: what it gives back is an
end of what it was given.  This holds of the elements, of everything that is put together
from shapes of which it holds, and so, by the depth of the nesting, of types and bounds.

* `LeavesEnd`, `Shape.TakesFront` — what is left is an end of what there was;
* `Shape.TypesTakeFront.all` — types, bounds and paths of any depth;
* `Shape.takesFront_type`, `Shape.takesFront_bound` — a type, and a bound on one.
-/

namespace TableMapper.Derive

/-- What is left of tokens, if they are accepted at all, is an end of them. -/
def LeavesEnd (ts : List Token) (left : Option (List Token)) : Prop :=
  ∀ rest, left = some rest → rest <:+ ts

namespace LeavesEnd

variable {ts us rest : List Token} {left : Option (List Token)}

/-- Tokens that are not accepted leave nothing. -/
theorem none : LeavesEnd ts none := by
  intro rest h
  cases h

/-- What is left is an end of the tokens if it is one. -/
theorem some (h : rest <:+ ts) : LeavesEnd ts (some rest) := by
  rintro rest' ⟨⟩
  exact h

/-- An end of an end of tokens is an end of them. -/
theorem of_suffix (h : LeavesEnd us left) (hus : us <:+ ts) : LeavesEnd ts left :=
  fun rest hrest => (h rest hrest).trans hus

/-- An end of the tokens behind the first one is an end of all. -/
theorem cons {t : Token} (h : LeavesEnd ts left) : LeavesEnd (t :: ts) left :=
  h.of_suffix (List.suffix_cons t ts)

/-- What is read behind something that leaves an end leaves an end. -/
theorem bind {next : List Token → Option (List Token)} (h : LeavesEnd ts left)
    (hnext : ∀ r, r <:+ ts → LeavesEnd r (next r)) : LeavesEnd ts (left.bind next) := by
  intro rest hrest
  obtain ⟨r, hr, hrest⟩ := Option.bind_eq_some_iff.mp hrest
  exact (hnext r (h r hr) rest hrest).trans (h r hr)

/-- Whichever way is taken leaves an end. -/
theorem ite {c : Prop} [Decidable c] {left left' : Option (List Token)} (h : LeavesEnd ts left)
    (h' : LeavesEnd ts left') : LeavesEnd ts (if c then left else left') := by
  split
  · exact h
  · exact h'

/-- What is read behind tokens that may be there. -/
theorem behind {next : List Token → Option (List Token)} : LeavesEnd ts left →
    (∀ r, LeavesEnd r (next r)) → LeavesEnd ts (match left with
      | .some r => next r
      | .none => .some ts) := by
  intro h hnext
  cases left with
  | none => exact some List.suffix_rfl
  | some r => exact (hnext r).of_suffix (h r rfl)

/-- If nothing is accepted, all that was there is left. -/
theorem getD_suffix (h : LeavesEnd ts left) : left.getD ts <:+ ts := by
  cases left with
  | none => exact List.suffix_rfl
  | some rest => exact h rest rfl

/-- What is left behind brackets does not depend on what is left inside them. -/
theorem map_const (h : rest <:+ ts) (inner : Option (List Token)) :
    LeavesEnd ts (inner.map fun _ => rest) := by
  intro rest' hrest
  obtain ⟨_, _, rfl⟩ := Option.map_eq_some_iff.mp hrest
  exact h

end LeavesEnd

namespace Shape

/-- A shape that takes tokens off the front and no others. -/
def TakesFront (s : Shape) : Prop :=
  ∀ ts, LeavesEnd ts (s ts)

/-- The empty shape takes nothing. -/
theorem takesFront_empty : empty.TakesFront :=
  fun _ => .some List.suffix_rfl

/-- A mark takes one token. -/
theorem takesFront_mark (c : Char) : (mark c).TakesFront := by
  intro ts
  unfold mark
  split
  · exact .ite (.some (List.suffix_cons _ _)) .none
  · exact .none

/-- A pair of marks takes two tokens. -/
theorem takesFront_pair (a b : Char) : (pair a b).TakesFront := by
  intro ts
  unfold pair
  split
  · exact .ite (.cons (.some (List.suffix_cons _ _))) .none
  · exact .none

/-- A word out of a list takes one token. -/
theorem takesFront_wordOf (ws : List String) : (wordOf ws).TakesFront := by
  intro ts
  unfold wordOf
  split
  · exact .ite (.some (List.suffix_cons _ _)) .none
  · exact .none

/-- A given word takes one token. -/
theorem takesFront_word (w : String) : (word w).TakesFront := by
  intro ts
  unfold word
  split
  · exact .ite (.some (List.suffix_cons _ _)) .none
  · exact .none

/-- Any word takes one token. -/
theorem takesFront_anyWord : anyWord.TakesFront := by
  intro ts
  unfold anyWord
  split
  · exact .some (List.suffix_cons _ _)
  · exact .none

/-- A name takes one token. -/
theorem takesFront_name : name.TakesFront := by
  intro ts
  unfold name
  split
  · exact .ite .none (.some (List.suffix_cons _ _))
  · exact .none

/-- A lifetime takes one token. -/
theorem takesFront_lifetime : lifetime.TakesFront := by
  intro ts
  unfold lifetime
  split
  · exact .some (List.suffix_cons _ _)
  · exact .none

/-- A string takes one token. -/
theorem takesFront_string : string.TakesFront := by
  intro ts
  unfold string
  split
  · exact .some (List.suffix_cons _ _)
  · exact .none

/-- A constant takes one token, or two if it has a sign. -/
theorem takesFront_constant : constant.TakesFront := by
  intro ts
  unfold constant
  split
  · exact .some (List.suffix_cons _ _)
  · exact .some (List.suffix_cons _ _)
  · exact .ite (.some (List.suffix_cons _ _)) .none
  · exact .ite (.cons (.some (List.suffix_cons _ _))) .none
  · exact .none

/-- Any group takes one token. -/
theorem takesFront_anyGroup : anyGroup.TakesFront := by
  intro ts
  unfold anyGroup
  split
  · exact .some (List.suffix_cons _ _)
  · exact .none

/-- Any group in curly brackets takes one token. -/
theorem takesFront_anyCurly : anyCurly.TakesFront := by
  intro ts
  unfold anyCurly
  split
  · exact .some (List.suffix_cons _ _)
  · exact .none

/-- Brackets around a shape take one token, however much the shape takes inside them. -/
theorem takesFront_around (b : Bracket) (inner : Shape) : (around b inner).TakesFront := by
  intro ts
  unfold around
  split
  · refine .ite (fun rest h => ?_) .none
    obtain ⟨r, _, h⟩ := Option.bind_eq_some_iff.mp h
    exact LeavesEnd.map_const (List.suffix_cons _ _) _ rest h
  · exact .none

namespace TakesFront

variable {s t item : Shape}

/-- A shape that may be left out takes what it takes, or nothing. -/
theorem optional (h : s.TakesFront) : (optional s).TakesFront := by
  intro ts
  unfold Shape.optional
  cases hs : s ts with
  | none => exact .some List.suffix_rfl
  | some rest => exact .some (h ts rest hs)

/-- One shape behind another takes the front of what that one leaves. -/
theorem andThen (h : s.TakesFront) (ht : t.TakesFront) : (andThen s t).TakesFront :=
  fun ts => (h ts).bind fun r _ => ht r

/-- A choice takes what one of its shapes takes. -/
theorem choose (h : s.TakesFront) (ht : t.TakesFront) (front : Shape) :
    (choose front s t).TakesFront :=
  fun ts => .ite (h ts) (ht ts)

/-- A list takes its items and the separators between them. -/
theorem list (h : item.TakesFront) (sep : Char) (stop : List Token → Bool) :
    (list item sep stop).TakesFront := by
  have hupTo (n : Nat) : (listUpTo item sep stop n).TakesFront := by
    induction n with
    | zero => exact fun _ => .none
    | succ n ih =>
        intro ts
        unfold listUpTo
        refine .ite (.some List.suffix_rfl) ((h ts).bind fun r _ => ?_)
        exact (takesFront_mark sep r).behind ih
  exact fun ts => hupTo _ ts

/-- A repetition takes one item after the other. -/
theorem many (h : item.TakesFront) (front : Shape) : (many front item).TakesFront := by
  have hupTo (n : Nat) : (manyUpTo front item n).TakesFront := by
    induction n with
    | zero => exact fun _ => .none
    | succ n ih =>
        intro ts
        unfold manyUpTo
        exact .ite ((h ts).bind fun r _ => ih r) (.some List.suffix_rfl)
  exact fun ts => hupTo _ ts

end TakesFront

theorem takesFront_outerAttributes : outerAttributes.TakesFront :=
  ((takesFront_mark '#').andThen (takesFront_around _ _)).many _

theorem takesFront_colon : colon.TakesFront :=
  fun ts => .ite .none (takesFront_mark ':' ts)

theorem takesFront_lifetimeParam : lifetimeParam.TakesFront :=
  takesFront_outerAttributes.andThen <| takesFront_lifetime.andThen <|
    (takesFront_colon.andThen (takesFront_lifetime.list _ _)).choose takesFront_empty _

theorem takesFront_binder : binder.TakesFront :=
  (takesFront_word "for").andThen <| (takesFront_mark '<').andThen <|
    (takesFront_lifetimeParam.list _ _).andThen (takesFront_mark '>')

/-- The shapes of types, nested no deeper than `n`, take tokens off the front. -/
structure TypesTakeFront (n : Nat) : Prop where
  type : ∀ plus, (typeUpTo n plus).TakesFront
  round : ∀ plus inner, (roundUpTo n plus inner).TakesFront
  named : ∀ plus, (namedUpTo n plus).TakesFront
  function : (functionUpTo n).TakesFront
  result : (resultUpTo n).TakesFront
  bounds : ∀ plus, (boundsUpTo n plus).TakesFront
  added : (addedUpTo n).TakesFront
  bound : (boundUpTo n).TakesFront
  trait : (traitUpTo n).TakesFront
  path : ∀ open', (pathUpTo n open').TakesFront
  segments : ∀ open', (segmentsUpTo n open').TakesFront
  segment : (segmentUpTo n).TakesFront
  argument : (argumentUpTo n).TakesFront

namespace TypesTakeFront

variable {n : Nat}

theorem zero : TypesTakeFront 0 where
  type _ _ := .none
  round _ _ _ := .none
  named _ _ := .none
  function _ := .none
  result _ := .none
  bounds _ _ := .none
  added _ := .none
  bound _ := .none
  trait _ := .none
  path _ _ := .none
  segments _ _ := .none
  segment _ := .none
  argument _ := .none

/-- Types that are nested once more. -/
theorem type_succ (h : TypesTakeFront n) (plus : Bool) : (typeUpTo (n + 1) plus).TakesFront := by
  intro ts
  unfold typeUpTo
  split
  · exact (h.round _ _ _).cons
  · refine fun rest hrest => ?_
    obtain ⟨r, _, hrest⟩ := Option.bind_eq_some_iff.mp hrest
    exact LeavesEnd.map_const (List.suffix_cons _ _) _ rest hrest
  · exact ((takesFront_wordOf _ _).bind fun r _ => h.type _ r).cons
  · exact ((takesFront_lifetime.optional.andThen (takesFront_word _).optional _).bind
      fun r _ => h.type _ r).cons
  · exact .some (List.suffix_cons _ _)
  · exact h.named _ _
  · exact h.named _ _
  · exact h.bounds _ _
  · refine .ite (.some (List.suffix_cons _ _)) <|
      .ite (((takesFront_mark _).optional _).bind fun r _ => h.bounds _ r).cons <|
      .ite (h.bounds _ _).cons <|
      .ite ((takesFront_binder _).bind fun r _ => ?_) <|
      .ite (h.function _) <| .ite (h.named _ _) .none
    refine .ite (h.function r) <| .ite ((h.path _ r).bind fun r' _ => ?_) .none
    exact .ite (h.added r') (.some List.suffix_rfl)
  · exact .none

/-- Bounds behind a plus. -/
theorem added_succ (h : TypesTakeFront n) : (addedUpTo (n + 1)).TakesFront := by
  intro ts
  unfold addedUpTo
  exact (takesFront_mark _ ts).behind (h.bound.list _ _)

/-- A type between round brackets, several of them, or a bound. -/
theorem round_succ (h : TypesTakeFront n) (plus : Bool) (inner : List Token) :
    (roundUpTo (n + 1) plus inner).TakesFront := by
  intro rest
  unfold roundUpTo
  dsimp only
  -- What the brackets hold is read apart: of `rest` only bounds behind them are taken.
  have hfurther : LeavesEnd rest (match mark '+' rest with
      | some r => list (boundUpTo n) '+' (fun _ => false) r
      | none => some rest) :=
    (takesFront_mark _ rest).behind (h.bound.list _ _)
  refine .ite (.some List.suffix_rfl) <| .ite (.map_const List.suffix_rfl _) <| .ite ?_ ?_
  · intro rest' hrest
    obtain ⟨_, _, hrest⟩ := Option.bind_eq_some_iff.mp hrest
    exact hfurther rest' hrest
  · intro rest' hrest
    obtain ⟨r, _, hrest⟩ := Option.bind_eq_some_iff.mp hrest
    cases hr : mark ',' r with
    | some r' =>
        rw [hr] at hrest
        exact LeavesEnd.map_const List.suffix_rfl _ rest' hrest
    | none =>
        rw [hr] at hrest
        obtain ⟨_, _, hrest⟩ := Option.bind_eq_some_iff.mp hrest
        exact LeavesEnd.ite hfurther (.some List.suffix_rfl) rest' hrest

/-- Types that begin with a path. -/
theorem named_succ (h : TypesTakeFront n) (plus : Bool) : (namedUpTo (n + 1) plus).TakesFront := by
  intro ts
  unfold namedUpTo
  refine (h.path _ ts).bind fun r _ => .ite (.some List.suffix_rfl) <| .ite ?_ <|
    .ite (h.added r) (.some List.suffix_rfl)
  exact (takesFront_mark _ r).bind fun r' _ => takesFront_anyGroup r'

/-- Types of functions. -/
theorem function_succ (h : TypesTakeFront n) : (functionUpTo (n + 1)).TakesFront := by
  intro ts
  unfold functionUpTo
  have hextern : (choose (word "extern")
      (andThen (word "extern") (optional string)) empty).TakesFront :=
    ((takesFront_word _).andThen takesFront_string.optional).choose takesFront_empty _
  exact (((takesFront_word _).optional.andThen <| hextern.andThen <|
    (takesFront_word _).andThen (takesFront_around _ _)) ts).bind fun r _ => h.result r

/-- What stands behind an arrow, if there is one. -/
theorem result_succ (h : TypesTakeFront n) : (resultUpTo (n + 1)).TakesFront := by
  intro ts
  unfold resultUpTo
  exact (takesFront_pair _ _ ts).behind (h.type false)

/-- Bounds of which one at least is no lifetime. -/
theorem bounds_succ (h : TypesTakeFront n) (plus : Bool) :
    (boundsUpTo (n + 1) plus).TakesFront := by
  intro ts
  unfold boundsUpTo
  refine (h.bound ts).bind fun r hr => ?_
  have hadded : LeavesEnd r (if plus then addedUpTo n r else some r) :=
    .ite (h.added r) (.some List.suffix_rfl)
  exact hadded.bind fun r' _ => .ite .none (.some List.suffix_rfl)

/-- A bound: a lifetime or a path, in brackets or not. -/
theorem bound_succ (h : TypesTakeFront n) : (boundUpTo (n + 1)).TakesFront := by
  intro ts
  unfold boundUpTo
  split
  · exact .some (List.suffix_cons _ _)
  · exact .map_const (List.suffix_cons _ _) _
  · exact h.trait _

/-- A bound that is a path. -/
theorem trait_succ (h : TypesTakeFront n) : (traitUpTo (n + 1)).TakesFront := by
  intro ts
  unfold traitUpTo
  have hbindings : (choose (word "for") binder empty).TakesFront :=
    takesFront_binder.choose takesFront_empty _
  have hfront := ((takesFront_mark '?').andThen hbindings).choose
    (hbindings.andThen (takesFront_mark '?').optional) (mark '?')
  exact (hfront ts).bind fun r _ => .ite .none (h.path _ r)

/-- Paths. -/
theorem path_succ (h : TypesTakeFront n) (open' : Bool) :
    (pathUpTo (n + 1) open').TakesFront := by
  intro ts
  unfold pathUpTo
  refine LeavesEnd.bind ?_ fun r _ => h.segments _ r
  cases hr : mark '<' ts with
  | none => exact .some (takesFront_pair _ _ ts).getD_suffix
  | some r =>
      refine LeavesEnd.of_suffix ?_ (takesFront_mark _ _ _ hr)
      refine (h.type _ r).bind fun r' _ => LeavesEnd.bind (LeavesEnd.bind ?_ fun r'' _ => ?_)
        fun r'' _ => takesFront_pair _ _ r''
      · exact (takesFront_word _ r').behind (h.path false)
      · exact takesFront_mark _ r''

/-- The segments of a path. -/
theorem segments_succ (h : TypesTakeFront n) (open' : Bool) :
    (segmentsUpTo (n + 1) open').TakesFront := by
  intro ts
  unfold segmentsUpTo
  refine (h.segment ts).bind fun r _ => .ite ?_ ?_
  · refine LeavesEnd.bind ?_ fun r' _ => (h.result r').bind fun r'' _ => .ite ?_ ?_
    · exact (takesFront_around _ _ _).of_suffix (takesFront_pair _ _ r).getD_suffix
    · exact (takesFront_pair _ _ r'').behind (h.segments open')
    · exact .some List.suffix_rfl
  · cases hr : pair ':' ':' r with
    | none => exact .some List.suffix_rfl
    | some r' =>
        exact .ite (.some List.suffix_rfl)
          ((h.segments _ r').of_suffix (takesFront_pair _ _ _ _ hr))

/-- One segment with the arguments behind it. -/
theorem segment_succ (h : TypesTakeFront n) : (segmentUpTo (n + 1)).TakesFront := by
  intro ts
  unfold segmentUpTo
  refine .ite (takesFront_anyWord ts) ?_
  refine (takesFront_anyWord.choose takesFront_name _ ts).bind fun r _ => ?_
  refine ((takesFront_mark _ _).of_suffix (takesFront_pair _ _ r).getD_suffix).behind fun r' => ?_
  exact (h.argument.list _ _ r').bind fun r'' _ => takesFront_mark _ r''

/-- An argument between angles. -/
theorem argument_succ (h : TypesTakeFront n) : (argumentUpTo (n + 1)).TakesFront := by
  intro ts
  unfold argumentUpTo
  have hvalue : (choose anyCurly anyCurly
      (choose constant constant (typeUpTo n true))).TakesFront :=
    takesFront_anyCurly.choose (takesFront_constant.choose (h.type true) _) _
  refine .ite (takesFront_lifetime ts) <| .ite (hvalue ts) ?_
  cases hr : segmentUpTo n ts with
  | none => exact h.type _ ts
  | some r =>
      refine .ite ?_ <| .ite ?_ (h.type _ ts)
      · exact ((takesFront_mark _ r).bind fun r' _ => hvalue r').of_suffix (h.segment _ _ hr)
      · exact ((takesFront_colon r).bind fun r' _ => h.bound.list _ _ r').of_suffix
          (h.segment _ _ hr)

/-- All shapes of types that are nested once more. -/
theorem succ (h : TypesTakeFront n) : TypesTakeFront (n + 1) where
  type := h.type_succ
  round := h.round_succ
  named := h.named_succ
  function := h.function_succ
  result := h.result_succ
  bounds := h.bounds_succ
  added := h.added_succ
  bound := h.bound_succ
  trait := h.trait_succ
  path := h.path_succ
  segments := h.segments_succ
  segment := h.segment_succ
  argument := h.argument_succ

/-- Types take tokens off the front, however deep they are nested. -/
theorem all (n : Nat) : TypesTakeFront n := by
  induction n with
  | zero => exact zero
  | succ n ih => exact ih.succ

end TypesTakeFront

/-- A type takes tokens off the front. -/
theorem takesFront_type : type.TakesFront :=
  fun ts => (TypesTakeFront.all _).type true ts

/-- A bound takes tokens off the front. -/
theorem takesFront_bound : bound.TakesFront :=
  fun ts => (TypesTakeFront.all _).bound ts

end Shape

end TableMapper.Derive
