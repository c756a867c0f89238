import TableMapper.Proofs.CheckedOptions
import TableMapper.Proofs.ConditionMeaning
import TableMapper.Proofs.DictLaws

/-!
# The order of arguments

Gathering goes through the arguments of a call one by one, but an argument changes
nothing besides what is gathered from the arguments of its own kind.  So it does not
matter how the kinds are mixed, and what is gathered can be said kind by kind.

* `TableOptions.merge_assoc`, `TableOptions.merge_self`, `TableOptions.merge_none`,
  `TableOptions.none_merge` — options laid over each other;
* `Arguments.collected` — what the arguments of each kind come to;
* `Arguments.gather_byKind` — which is what is gathered.
-/

namespace TableMapper

namespace TableOptions

/-- Laying options over others and these over still others can be done in either order. -/
theorem merge_assoc (o p q : TableOptions) : (o.merge p).merge q = o.merge (p.merge q) := by
  simp only [merge, Dict.overlay_assoc, Bool.or_assoc, TableOptions.mk.injEq, and_true]
  refine ⟨?_, ?_, ?_, ?_⟩
  all_goals
    split_ifs <;> simp_all

/-- Options laid over themselves stay what they are. -/
theorem merge_self (o : TableOptions) : o.merge o = o := by
  simp only [merge, Dict.overlay_self, Bool.or_self, ite_self]

/-- Options that give nothing change nothing. -/
theorem merge_none (o : TableOptions) : o.merge {} = o := by
  simp [merge, Dict.overlay_empty]

/-- Laid over nothing, options are all there is. -/
theorem none_merge (o : TableOptions) : ({} : TableOptions).merge o = o := by
  have htext : ∀ s : String, (if s.isEmpty then "" else s) = s := by
    intro s
    split_ifs with hs
    · exact (String.isEmpty_iff.mp hs).symm
    · rfl
  have hkeys : ∀ ks : List Key, (if ks.isEmpty then [] else ks) = ks := by
    intro ks
    cases ks <;> rfl
  simp only [merge, htext, hkeys, Dict.empty_overlay, Bool.false_or]

/-- Several options can be laid over each other first. -/
theorem foldl_merge (base : TableOptions) (os : List TableOptions) :
    os.foldl merge base = base.merge (os.foldl merge {}) := by
  induction os using List.reverseRecOn with
  | nil => exact base.merge_none.symm
  | append_singleton os o ih =>
      rw [List.foldl_append, List.foldl_append, List.foldl_cons, List.foldl_cons, List.foldl_nil,
        List.foldl_nil, ih, merge_assoc]

end TableOptions

namespace Argument

/-- The options that an argument is, if it is some. -/
@[simp] def options? : Argument → Option TableOptions
  | .options o => some o
  | _ => none

/-- The limit that an argument is, if it is one. -/
@[simp] def limit? : Argument → Option UInt64
  | .limit n => some n
  | _ => none

/-- The offset that an argument is, if it is one. -/
@[simp] def offset? : Argument → Option UInt64
  | .offset n => some n
  | _ => none

/-- The ordering that an argument is, if it is one. -/
@[simp] def order? : Argument → Option OrderItem
  | .order o => some o
  | _ => none

end Argument

/-- The verb takes each of the arguments. -/
def Verb.AcceptsAll (verb : Verb) (args : List Argument) : Prop :=
  ∀ arg ∈ args, verb.accepts arg.kind = true

/-- The lists have the same arguments of each kind in the same order. -/
def SameByKind (args args' : List Argument) : Prop :=
  ∀ kind, args.filter (·.kind = kind) = args'.filter (·.kind = kind)

/-- What is only taken from arguments of one kind is the same for both lists. -/
theorem SameByKind.filterMap_eq {β : Type} {args args' : List Argument}
    (h : SameByKind args args') (f : Argument → Option β) (kind : ArgumentKind)
    (hf : ∀ arg, arg.kind ≠ kind → f arg = none) : args.filterMap f = args'.filterMap f := by
  have hfilter : ∀ l : List Argument, l.filterMap f = (l.filter (·.kind = kind)).filterMap f := by
    intro l
    rw [List.filterMap_filter]
    refine List.filterMap_congr ?_
    intro arg _
    by_cases hkind : arg.kind = kind
    · rw [decide_eq_true hkind, if_pos rfl]
    · rw [decide_eq_false hkind, if_neg Bool.false_ne_true, hf arg hkind]
  rw [hfilter args, hfilter args', h kind]

namespace Arguments

/-- What the arguments of each kind come to: options laid over each other, the last of
the limits and of the offsets, unless it is zero, and the others in their order. -/
def collected (schema : Schema) (base : TableOptions) (args : List Argument) : Arguments where
  options := (args.filterMap Argument.options?).foldl TableOptions.merge base
  limit := (args.filterMap Argument.limit?).getLast?.filter (· ≠ 0)
  offset := (args.filterMap Argument.offset?).getLast?.filter (· ≠ 0)
  conditions := Condition.resolveAll schema (conditionsOf args)
  orders := (args.filterMap Argument.order?).filter fun o => !o.column.isEmpty
  forUpdate := args.any fun arg => arg.kind = .forUpdate

variable {schema : Schema} {base : TableOptions} {verb : Verb} {args args' : List Argument}

/-- A count of zero is none. -/
theorem count?_eq (n : UInt64) : count? n = (some n).filter (· ≠ 0) := by
  rw [count?, Option.filter_some]
  by_cases hn : n = 0
  · rw [if_pos hn, if_neg (by simpa using hn)]
  · rw [if_neg hn, if_pos (by simpa using hn)]

/-- One more argument changes what its own kind comes to. -/
theorem collected_append_singleton (arg : Argument) :
    collected schema base (args ++ [arg]) = (collected schema base args).add schema arg := by
  have hone : ∀ {β : Type} (f : Argument → Option β), [arg].filterMap f = (f arg).toList := by
    intro β f
    cases hf : f arg <;> simp [hf]
  have hresolved : ∀ c, Condition.resolveAll schema [c] = (c.resolve schema).toList := by
    intro c
    rw [Condition.resolveAll_cons, Condition.resolveAll, List.append_nil]
  simp only [collected, conditionsOf, List.filterMap_append, hone, Condition.resolveAll_append,
    List.foldl_append, List.any_append]
  cases arg with
  | options o | forUpdate =>
      simp [add, Argument.condition?, Argument.kind, Condition.resolveAll]
  | limit n | offset n =>
      simp [add, Argument.condition?, Argument.kind, Condition.resolveAll, count?_eq]
  | condition c => simp [add, Argument.condition?, Argument.kind, hresolved]
  | order o =>
      simp [add, Argument.condition?, Argument.kind, Condition.resolveAll, List.filter_singleton]

/-- Arguments that are all accepted are collected field by field. -/
theorem foldl_add : args.foldl (add schema) { options := base } = collected schema base args := by
  induction args using List.reverseRecOn with
  | nil => rfl
  | append_singleton args arg ih =>
      rw [List.foldl_append, ih, collected_append_singleton]
      rfl

/-- What a verb accepts is added to what there is, one argument after another. -/
theorem addAll_of_acceptsAll (h : verb.AcceptsAll args) (a : Arguments) :
    addAll schema verb a args = .ok (args.foldl (add schema) a) := by
  induction args generalizing a with
  | nil => rfl
  | cons arg args ih =>
      obtain ⟨hfirst, hrest⟩ := List.forall_mem_cons.mp h
      rw [addAll, if_pos hfirst, ih hrest]
      rfl

/-- What is gathered is what the arguments of each kind come to, with checked options. -/
theorem gather_eq (h : verb.AcceptsAll args) :
    gather schema base verb args = (collected schema base args).options.check.map fun options =>
      { collected schema base args with options } := by
  rw [gather, addAll_of_acceptsAll h, foldl_add, ok_bind]
  cases (collected schema base args).options.check <;> rfl

/-- Nothing depends on how the kinds are mixed. -/
theorem collected_congr (h : SameByKind args args') :
    collected schema base args = collected schema base args' := by
  have hoptions := h.filterMap_eq Argument.options? .options
    (by rintro (_ | _) <;> simp [Argument.kind])
  have hlimit := h.filterMap_eq Argument.limit? .limit
    (by rintro (_ | _) <;> simp [Argument.kind])
  have hoffset := h.filterMap_eq Argument.offset? .offset
    (by rintro (_ | _) <;> simp [Argument.kind])
  have hconditions := h.filterMap_eq Argument.condition? .condition
    (by rintro (_ | _) <;> simp [Argument.condition?, Argument.kind])
  have horders := h.filterMap_eq Argument.order? .order
    (by rintro (_ | _) <;> simp [Argument.kind])
  have hforUpdate : args.any (fun arg => arg.kind = .forUpdate) =
      args'.any fun arg => arg.kind = .forUpdate := by
    have hany := congrArg (fun l => l.any fun arg => arg.kind = .forUpdate) (h .forUpdate)
    simpa [List.any_filter] using hany
  rw [collected, collected, conditionsOf, conditionsOf, hoptions, hlimit, hoffset, hconditions,
    horders, hforUpdate]

/-- The first argument that the verb does not take is the error. -/
theorem addAll_of_refused {before after : List Argument} {arg : Argument}
    (hbefore : verb.AcceptsAll before) (harg : verb.accepts arg.kind = false) (a : Arguments) :
    addAll schema verb a (before ++ arg :: after) =
      .error (.unsupportedArgument verb arg.kind) := by
  induction before generalizing a with
  | nil => rw [List.nil_append, addAll, harg, if_neg Bool.false_ne_true]
  | cons first before ih =>
      obtain ⟨hfirst, hrest⟩ := List.forall_mem_cons.mp hbefore
      rw [List.cons_append, addAll, if_pos hfirst, ih hrest]

/-- Gathering succeeds only with settled options. -/
theorem isSettled_of_gather {a : Arguments} (h : gather schema base verb args = .ok a) :
    a.options.tableName ≠ "" ∧ ∀ k ∈ a.options.indexes ++ a.options.uniques, k.IsSettled := by
  obtain ⟨gathered, _, hrest⟩ := bind_eq_ok.mp h
  obtain ⟨options, hcheck, hresult⟩ := bind_eq_ok.mp hrest
  cases hresult
  exact TableOptions.isSettled_of_check hcheck

/-- There is a first argument that the verb does not take, if there is any. -/
theorem exists_first_refused (h : ∃ arg ∈ args, verb.accepts arg.kind = false) :
    ∃ before arg after, args = before ++ arg :: after ∧ verb.AcceptsAll before ∧
      verb.accepts arg.kind = false := by
  have hsome : (args.find? fun arg => !verb.accepts arg.kind).isSome = true := by
    rw [List.find?_isSome]
    simpa using h
  obtain ⟨arg, hfind⟩ := Option.isSome_iff_exists.mp hsome
  obtain ⟨harg, before, after, hsplit, hbefore⟩ := List.find?_eq_some_iff_append.mp hfind
  exact ⟨before, arg, after, hsplit, fun b hb => by simpa using hbefore b hb, by simpa using harg⟩

/-- **Arguments are gathered kind by kind.**  Lists with the same arguments of each kind
are gathered alike: options are laid over the base and over each other, in either order
of doing so, and checked once at the end, the last limit and offset count unless they are
zero, and whatever passes the check has a table and settled keys.  An argument that the
verb does not take is an error before anything is checked. -/
theorem gather_byKind (schema : Schema) (verb : Verb) :
    (∀ base args args', verb.AcceptsAll args → verb.AcceptsAll args' → SameByKind args args' →
      gather schema base verb args = gather schema base verb args') ∧
    (∀ base args, verb.AcceptsAll args →
      gather schema base verb args =
        ((args.filterMap Argument.options?).foldl TableOptions.merge base).check.map
          fun options => { collected schema base args with options }) ∧
    (∀ base (os : List TableOptions),
      os.foldl TableOptions.merge base = base.merge (os.foldl TableOptions.merge {})) ∧
    (∀ o p q : TableOptions, (o.merge p).merge q = o.merge (p.merge q)) ∧
    (∀ o : TableOptions, o.merge o = o ∧ o.merge {} = o ∧ ({} : TableOptions).merge o = o) ∧
    (∀ base args a, gather schema base verb args = .ok a →
      a.options.tableName ≠ "" ∧
        ∀ k ∈ a.options.indexes ++ a.options.uniques, k.name ≠ "" ∧ k.columns ≠ []) ∧
    ∀ args, (∃ arg ∈ args, verb.accepts arg.kind = false) →
      ∃ before arg after, args = before ++ arg :: after ∧ verb.AcceptsAll before ∧
        verb.accepts arg.kind = false ∧
        ∀ base, gather schema base verb args = .error (.unsupportedArgument verb arg.kind) := by
  refine ⟨?_, fun base args h => gather_eq h, TableOptions.foldl_merge, TableOptions.merge_assoc,
    fun o => ⟨o.merge_self, o.merge_none, o.none_merge⟩, fun base args a h =>
      isSettled_of_gather h, ?_⟩
  · intro base args args' h h' hsame
    rw [gather_eq h, gather_eq h', collected_congr hsame]
  · intro args h
    obtain ⟨before, arg, after, rfl, hbefore, harg⟩ := exists_first_refused h
    refine ⟨before, arg, after, rfl, hbefore, harg, fun base => ?_⟩
    rw [gather, addAll_of_refused hbefore harg]
    rfl

/-- Options and limits that are given twice, and a mark between them. -/
def mixedArguments : List Argument :=
  [.options { tableName := "log", uniques := [⟨"", ["at", "line"]⟩] }, .limit 3, .forUpdate,
    .options { description := "lines" }, .limit 0]

/-- The same arguments with the limits in front. -/
def sortedArguments : List Argument :=
  [.limit 3, .limit 0, .forUpdate,
    .options { tableName := "log", uniques := [⟨"", ["at", "line"]⟩] },
    .options { description := "lines" }]

/-- Both are gathered alike, without a limit, and an insert takes neither. -/
theorem gather_byKind_mixed :
    Verb.select.AcceptsAll mixedArguments ∧ Verb.select.AcceptsAll sortedArguments ∧
    SameByKind mixedArguments sortedArguments ∧
    gather accounts {} .select mixedArguments = gather accounts {} .select sortedArguments ∧
    gather accounts {} .select mixedArguments =
      .ok ⟨⟨"log", "lines", [], [⟨"uniq_at_line", ["at", "line"]⟩], .empty, false⟩, none, none,
        [], [], true⟩ ∧
    ("log" ≠ "" ∧ ∀ k ∈ [Key.mk "uniq_at_line" ["at", "line"]], k.name ≠ "" ∧ k.columns ≠ []) ∧
    ∃ arg ∈ mixedArguments, Verb.insert.accepts arg.kind = false ∧
      gather accounts {} .insert mixedArguments =
        .error (.unsupportedArgument .insert arg.kind) := by
  have hmixed : Verb.select.AcceptsAll mixedArguments := by
    intro arg _
    cases arg <;> rfl
  have hsorted : Verb.select.AcceptsAll sortedArguments := by
    intro arg _
    cases arg <;> rfl
  have hsame : SameByKind mixedArguments sortedArguments := by
    intro kind
    cases kind <;> rfl
  obtain ⟨halike, hgather, _, _, _, hchecked, _⟩ := gather_byKind accounts .select
  have hok : gather accounts {} .select mixedArguments =
      .ok ⟨⟨"log", "lines", [], [⟨"uniq_at_line", ["at", "line"]⟩], .empty, false⟩, none, none,
        [], [], true⟩ := by
    rw [hgather {} mixedArguments hmixed]
    rfl
  obtain ⟨_, _, _, _, _, _, hrefused⟩ := gather_byKind accounts .insert
  obtain ⟨before, arg, after, hsplit, _, harg, herror⟩ :=
    hrefused mixedArguments ⟨.limit 3, by simp [mixedArguments], rfl⟩
  have hmem : arg ∈ mixedArguments := by
    rw [hsplit]
    exact List.mem_append_right before List.mem_cons_self
  exact ⟨hmixed, hsorted, hsame, halike {} _ _ hmixed hsorted hsame, hok,
    hchecked {} _ _ hok, arg, hmem, harg, herror {}⟩

end Arguments

end TableMapper
