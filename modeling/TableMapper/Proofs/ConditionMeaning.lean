import TableMapper.Proofs.ConditionParser
import TableMapper.Proofs.StatementShape

/-!
# The meaning of conditions

A comparison that cannot be resolved is left out of its tree, and so is a group
of which nothing is left.  This file says what that does to the condition that
the database reads: it is the tree without exactly those comparisons and
groups, with the grouping that was asked for.

* `Condition.prune` — the tree without what cannot be resolved;
* `Condition.map_formula_resolve` — what is resolved says what the pruned tree says;
* `Arguments.readAs_whereClause` — the clause of a statement is read as that;
* `parse_fragment_eq_prune` — the law for one tree and for the arguments of a
  statement.
-/

namespace TableMapper

/-- The digits, the hyphen and the point stand together in the order of
characters. -/
theorem toNat_of_isNumeralChar {c : Char} (hc : isNumeralChar c = true) :
    45 ≤ c.toNat ∧ c.toNat ≤ 57 := by
  simp only [isNumeralChar, Bool.or_eq_true, decide_eq_true_eq, Char.isDigit_iff_toNat] at hc
  rcases hc with (⟨hlow, hhigh⟩ | rfl) | rfl
  · exact ⟨Nat.le_trans (by decide) hlow, hhigh⟩
  · decide
  · decide

/-- A character between the comma and the braces, but not the backtick, is one of a word. -/
theorem isWordChar_of_toNat {c : Char} (hlow : 45 ≤ c.toNat) (hhigh : c.toNat ≤ 122)
    (hname : c.toNat ≠ 96) : isWordChar c = true := by
  have hne (d : Char) (hd : d.toNat < 45 ∨ d.toNat = 96) : c ≠ d := by
    intro heq
    rw [heq] at hlow hname
    omega
  have hblank : Text.isBlank c = false := by
    simp [Text.isBlank]
    omega
  have hplain : isPlain c = true := by
    rw [isPlain, QuoteKind.opened?, if_neg (hne _ (by decide)), if_neg (hne _ (by decide))]
    rfl
  have hmark : Lexeme.ofChar? c = none := by
    rw [Lexeme.ofChar?, if_neg (hne _ (by decide)), if_neg (hne _ (by decide)),
      if_neg (hne _ (by decide))]
  rw [isWordChar, hplain, isBreak, hblank, hmark]
  rfl

/-- The characters of numerals belong to words. -/
theorem isWordChar_of_isNumeralChar {c : Char} (hc : isNumeralChar c = true) :
    isWordChar c = true := by
  obtain ⟨hlow, hhigh⟩ := toNat_of_isNumeralChar hc
  exact isWordChar_of_toNat hlow (by omega) (by omega)

/-- A bare literal is one word. -/
theorem Bare.lexemes_eq {s : String} (hs : Bare s) : lexemes s = [.word s] := by
  have hwords : ∀ w ∈ literalWords, w ≠ "" ∧ Only isWordChar w := by decide
  rcases hs with ⟨hne, hnumeral⟩ | hmem
  · exact lexemes_word hne (hnumeral.mono fun c => isWordChar_of_isNumeralChar)
  · exact lexemes_word (hwords s hmem).1 (hwords s hmem).2

/-- A bare literal is no connective. -/
theorem Bare.exists_lexeme {s : String} (hs : Bare s) :
    ∃ x, lexemes s = [x] ∧ x.isInner = true := by
  have hwords : ∀ w ∈ literalWords, Connective.ofWord? w = none := by decide
  have hconnective : Connective.ofWord? s = none := by
    rcases hs with ⟨hne, hnumeral⟩ | hmem
    · unfold Connective.ofWord?
      split_ifs with hand hor
      · subst hand
        exact absurd hnumeral (by decide)
      · subst hor
        exact absurd hnumeral (by decide)
      · rfl
    · exact hwords s hmem
  exact ⟨.word s, hs.lexemes_eq, by rw [Lexeme.isInner, hconnective]; rfl⟩

/-- A quoted text is one lexeme within a comparison. -/
theorem IsQuoted.exists_lexeme {kind : QuoteKind} {s : String} (hs : IsQuoted kind s) :
    ∃ x, lexemes s = [x] ∧ x.isInner = true := by
  obtain ⟨b, hb⟩ := hs.lexemes_eq
  exact ⟨.quoted kind b, hb, rfl⟩

/-- A literal is one lexeme within a comparison. -/
theorem Literal.exists_lexeme (l : Literal) :
    ∃ x, lexemes l.text = [x] ∧ x.isInner = true := by
  rcases l.quoted_or_bare with hquoted | hbare
  · exact hquoted.exists_lexeme
  · exact hbare.exists_lexeme

/-- No operator has a lexeme that joins comparisons. -/
theorem Operator.isInner_of_mem (op : Operator) :
    ∀ l ∈ lexemes op.text, l.isInner = true := by
  cases op <;> decide

/-- The elements of a set and the commas between them. -/
theorem isInner_of_mem_literals (ls : List Literal) :
    ∀ l ∈ lexemes (", ".intercalate (ls.map Literal.text)), l.isInner = true ∨ l = .comma := by
  have hcomma : WordBreak ", " := by decide
  induction ls with
  | nil =>
      intro l hl
      exact absurd hl List.not_mem_nil
  | cons x ls ih =>
      obtain ⟨y, hy, hinner⟩ := x.exists_lexeme
      cases ls with
      | nil =>
          rw [List.map_singleton, String.intercalate_singleton, hy]
          intro l hl
          exact .inl (by rwa [List.eq_of_mem_singleton hl])
      | cons z ls =>
          rw [List.map_cons, List.map_cons, String.intercalate_cons_cons,
            lexemes_glue x.closed hcomma, hy, ← List.map_cons]
          intro l hl
          rcases List.mem_append.mp hl with hfirst | hrest
          · exact .inl (by rwa [List.eq_of_mem_singleton hfirst])
          · rcases List.mem_append.mp hrest with hmark | htail
            · exact .inr (List.eq_of_mem_singleton hmark)
            · exact ih l htail

/-- The right side goes on with the comparison. -/
theorem Operand.extends (o : Operand) : Extends (lexemes o.text) := by
  cases o with
  | single l =>
      obtain ⟨x, hx, hinner⟩ := l.exists_lexeme
      rw [Operand.text, hx]
      exact Extends.inner hinner
  | set ls =>
      have hclosed : Closed (", ".intercalate (ls.map Literal.text)) :=
        (sameShape_literals ls).left
      rw [Operand.text, lexemes_brackets hclosed]
      exact Extends.brackets (isInner_of_mem_literals ls)
  | pattern parts =>
      obtain ⟨x, hx, hinner⟩ := (isQuoted_quotePattern parts).exists_lexeme
      rw [Operand.text, hx]
      exact Extends.inner hinner

/-- A comparison is read as one factor. -/
theorem Comparison.reads (c : Comparison) :
    Reads (lexemes c.text) (.atom (lexemes c.text)) := by
  have hspace : WordBreak " " := by decide
  have hname := closed_quoteName c.column
  have hleft := hname.glue hspace.separator c.operator.unmarked_text.closed
  obtain ⟨x, hx, hinner⟩ := (isQuoted_quoteName c.column).exists_lexeme
  have hlexemes : lexemes c.text = x :: (lexemes c.operator.text ++ lexemes c.operand.text) := by
    rw [Comparison.text, lexemes_glue hleft hspace, lexemes_glue hname hspace, hx]
    rfl
  rw [hlexemes]
  exact reads_atom hinner ((Extends.of_inner c.operator.isInner_of_mem).append c.operand.extends)

mutual

/-- The formula of a predicate, grouped as it is. -/
def Predicate.formula : Predicate → Formula
  | .leaf c => .atom (lexemes c.text)
  | .all ps => .all (Predicate.formulaAll ps)
  | .any ps => .any (Predicate.formulaAll ps)

/-- The formulas of several predicates. -/
def Predicate.formulaAll : List Predicate → List Formula
  | [] => []
  | p :: ps => p.formula :: Predicate.formulaAll ps

end

/-- The formulas of predicates are those of each. -/
theorem Predicate.formulaAll_eq_map (ps : List Predicate) :
    Predicate.formulaAll ps = ps.map Predicate.formula := by
  induction ps with
  | nil => rfl
  | cons p ps ih => rw [Predicate.formulaAll, ih, List.map_cons]

/-- The predicate is read as one factor, and what it says is its formula. -/
def Predicate.IsRead (p : Predicate) : Prop :=
  Reads (lexemes p.text) p.formula.collapse

/-- The text of a predicate is closed. -/
theorem Predicate.closed_text (p : Predicate) : Closed p.text :=
  p.sameShape.left

/-- A group is read as one factor when its members are. -/
theorem reads_texts {sep : String} {c : Connective} (hsep : WordBreak sep)
    (hword : lexemes sep = [.word c.word]) {ps : List Predicate} (hne : ps ≠ [])
    (hps : ∀ p ∈ ps, p.IsRead) :
    Reads (lexemes ("(" ++ sep.intercalate (Predicate.texts ps) ++ ")"))
      (.join c (Formula.collapseAll (Predicate.formulaAll ps))) := by
  have hclosed : ∀ s ∈ ps.map Predicate.text, Closed s := by
    intro s hs
    obtain ⟨p, _, rfl⟩ := List.mem_map.mp hs
    exact p.closed_text
  rw [Predicate.texts_eq_map, lexemes_brackets (closed_intercalate hsep.separator hclosed),
    lexemes_intercalate hsep hclosed, hword, Predicate.formulaAll_eq_map,
    Formula.collapseAll_eq_map, List.map_map, List.map_map]
  exact reads_group c hne hps

/-- Predicates that are read are read when all must hold. -/
theorem Predicate.isRead_all {ps : List Predicate} (hne : ps ≠ [])
    (hps : ∀ p ∈ ps, p.IsRead) : (Predicate.all ps).IsRead :=
  reads_texts (by decide) (by decide) hne hps

/-- Predicates that are read are read when one must hold. -/
theorem Predicate.isRead_any {ps : List Predicate} (hne : ps ≠ [])
    (hps : ∀ p ∈ ps, p.IsRead) : (Predicate.any ps).IsRead :=
  reads_texts (by decide) (by decide) hne hps

/-- A predicate on its own is one factor as well: a comparison then has the
brackets of a group with one member. -/
theorem Predicate.reads_clause {p : Predicate} (hp : p.IsRead) :
    Reads (lexemes p.clause) p.formula.collapse := by
  cases p with
  | leaf c =>
      have hclosed : Closed c.text := Predicate.closed_text (.leaf c)
      rw [Predicate.clause, lexemes_brackets hclosed]
      exact c.reads.brackets
  | all ps => exact hp
  | any ps => exact hp

namespace Criterion

/-- The lexemes of a comparison as it is asked for, if it can be resolved. -/
def lexemes (schema : Schema) (c : Criterion) : List Lexeme :=
  match c.resolve schema with
  | .ok comparison => TableMapper.lexemes comparison.text
  | .error _ => []

/-- What is logged about a comparison that cannot be resolved. -/
def dropped? (schema : Schema) (c : Criterion) : Option Event :=
  match c.resolve schema with
  | .ok _ => none
  | .error e => some (.droppedCondition c.column c.operator e)

/-- The comparison cannot be resolved. -/
def Fails (schema : Schema) (c : Criterion) : Prop :=
  ∃ e, c.resolve schema = .error e

end Criterion

namespace Condition

mutual

/-- The comparisons of a tree, from left to right. -/
def leaves : Condition → List Criterion
  | leaf c => [c]
  | all cs => leavesAll cs
  | any cs => leavesAll cs

/-- The comparisons of several trees. -/
def leavesAll : List Condition → List Criterion
  | [] => []
  | c :: cs => c.leaves ++ leavesAll cs

end

/-- A group of trees, if there are any. -/
def regroup (make : List Condition → Condition) : List Condition → Option Condition
  | [] => none
  | cs => some (make cs)

mutual

/-- The tree without the comparisons that cannot be resolved and without the
groups that have no member left. -/
def prune (schema : Schema) : Condition → Option Condition
  | leaf c => if (c.resolve schema).toBool then some (leaf c) else none
  | all cs => regroup all (pruneAll schema cs)
  | any cs => regroup any (pruneAll schema cs)

/-- What is left of several trees. -/
def pruneAll (schema : Schema) : List Condition → List Condition
  | [] => []
  | c :: cs => (c.prune schema).toList ++ pruneAll schema cs

end

mutual

/-- The formula of a tree, grouped as it is. -/
def formula (schema : Schema) : Condition → Formula
  | leaf c => .atom (c.lexemes schema)
  | all cs => .all (formulaAll schema cs)
  | any cs => .any (formulaAll schema cs)

/-- The formulas of several trees. -/
def formulaAll (schema : Schema) : List Condition → List Formula
  | [] => []
  | c :: cs => c.formula schema :: formulaAll schema cs

end

/-- What a tree gives as a condition of its own. -/
def fragment? (schema : Schema) (c : Condition) : Option String :=
  (c.resolve schema).map Predicate.clause

/-- A group is made of what is left, if something is. -/
theorem group_eq_some {make : List Predicate → Predicate} {ps : List Predicate} {p : Predicate}
    (hp : group make ps = some p) : ps ≠ [] ∧ make ps = p := by
  cases ps with
  | nil => cases hp
  | cons q ps => exact ⟨List.cons_ne_nil q ps, Option.some.inj hp⟩

/-- What is left of conditions is what is left of each, in order. -/
theorem resolveAll_cons (schema : Schema) (c : Condition) (cs : List Condition) :
    resolveAll schema (c :: cs) = (c.resolve schema).toList ++ resolveAll schema cs := by
  rw [resolveAll]
  cases c.resolve schema <;> rfl

mutual

/-- What is left of a tree is read as one factor. -/
theorem isRead_of_resolve (schema : Schema) :
    ∀ (c : Condition) {p : Predicate}, c.resolve schema = some p → p.IsRead
  | leaf c, p, hp => by
      obtain ⟨comparison, _, rfl⟩ := Option.map_eq_some_iff.mp hp
      exact comparison.reads
  | all cs, p, hp => by
      obtain ⟨hne, rfl⟩ := group_eq_some hp
      exact Predicate.isRead_all hne (isRead_of_mem_resolveAll schema cs)
  | any cs, p, hp => by
      obtain ⟨hne, rfl⟩ := group_eq_some hp
      exact Predicate.isRead_any hne (isRead_of_mem_resolveAll schema cs)

/-- What is left of conditions is read. -/
theorem isRead_of_mem_resolveAll (schema : Schema) :
    ∀ (cs : List Condition), ∀ p ∈ resolveAll schema cs, p.IsRead
  | [], _, hp => absurd hp List.not_mem_nil
  | c :: cs, p, hp => by
      rw [resolveAll_cons] at hp
      rcases List.mem_append.mp hp with hfirst | hrest
      · exact isRead_of_resolve schema c (Option.mem_toList.mp hfirst)
      · exact isRead_of_mem_resolveAll schema cs p hrest

end

/-- The formulas of conditions are those of each. -/
theorem formulaAll_eq_map (schema : Schema) (cs : List Condition) :
    formulaAll schema cs = cs.map (formula schema) := by
  induction cs with
  | nil => rfl
  | cons c cs ih => rw [formulaAll, ih, List.map_cons]

/-- A group of predicates says what a group of trees with the same formulas
says. -/
theorem map_formula_group {schema : Schema} {ps : List Predicate} {cs : List Condition}
    {makePredicate : List Predicate → Predicate} {makeCondition : List Condition → Condition}
    {make : List Formula → Formula}
    (hpredicate : ∀ qs, (makePredicate qs).formula = make (Predicate.formulaAll qs))
    (hcondition : ∀ ds, (makeCondition ds).formula schema = make (formulaAll schema ds))
    (heq : Predicate.formulaAll ps = formulaAll schema cs) :
    (group makePredicate ps).map Predicate.formula =
      (regroup makeCondition cs).map (formula schema) := by
  cases ps with
  | nil =>
      cases cs with
      | nil => rfl
      | cons c cs => cases heq
  | cons p ps =>
      cases cs with
      | nil => cases heq
      | cons c cs =>
          have hsays : (makePredicate (p :: ps)).formula =
              (makeCondition (c :: cs)).formula schema := by
            rw [hpredicate, hcondition, heq]
          exact congrArg some hsays

mutual

/-- What is left of a tree says what the pruned tree says. -/
theorem map_formula_resolve (schema : Schema) :
    ∀ c : Condition, (c.resolve schema).map Predicate.formula =
      (c.prune schema).map (formula schema)
  | leaf c => by
      rw [resolve, prune]
      cases hc : c.resolve schema with
      | error e => rfl
      | ok comparison =>
          have hleaf : c.lexemes schema = TableMapper.lexemes comparison.text := by
            rw [Criterion.lexemes, hc]
          change some (Formula.atom _) = some (Formula.atom (c.lexemes schema))
          rw [hleaf]
  | all cs => by
      rw [resolve, prune]
      exact map_formula_group (fun _ => rfl) (fun _ => rfl) (formulaAll_resolveAll schema cs)
  | any cs => by
      rw [resolve, prune]
      exact map_formula_group (fun _ => rfl) (fun _ => rfl) (formulaAll_resolveAll schema cs)

/-- What is left of conditions says what the pruned ones say. -/
theorem formulaAll_resolveAll (schema : Schema) :
    ∀ cs : List Condition, Predicate.formulaAll (resolveAll schema cs) =
      formulaAll schema (pruneAll schema cs)
  | [] => rfl
  | c :: cs => by
      have hfirst := congrArg Option.toList (map_formula_resolve schema c)
      have hrest := formulaAll_resolveAll schema cs
      rw [Predicate.formulaAll_eq_map, formulaAll_eq_map] at hrest ⊢
      rw [Option.toList_map, Option.toList_map] at hfirst
      rw [resolveAll_cons, pruneAll, List.map_append, List.map_append, hfirst, hrest]

end

/-- A group goes only if nothing is left of it. -/
theorem regroup_eq_none {make : List Condition → Condition} {cs : List Condition} :
    regroup make cs = none ↔ cs = [] := by
  cases cs with
  | nil => exact iff_of_true rfl rfl
  | cons c cs => exact iff_of_false (Option.some_ne_none _) (List.cons_ne_nil c cs)

mutual

/-- Nothing is left of a tree exactly when every comparison in it fails. -/
theorem prune_eq_none_iff (schema : Schema) :
    ∀ c : Condition, c.prune schema = none ↔ ∀ l ∈ c.leaves, l.Fails schema
  | leaf c => by
      rw [prune, leaves]
      cases hc : c.resolve schema with
      | error e => simp [Criterion.Fails, hc, Except.toBool]
      | ok comparison => simp [Criterion.Fails, hc, Except.toBool]
  | all cs => by
      rw [prune, leaves]
      exact regroup_eq_none.trans (pruneAll_eq_nil_iff schema cs)
  | any cs => by
      rw [prune, leaves]
      exact regroup_eq_none.trans (pruneAll_eq_nil_iff schema cs)

/-- Nothing is left of conditions exactly if all their comparisons fail. -/
theorem pruneAll_eq_nil_iff (schema : Schema) :
    ∀ cs : List Condition, pruneAll schema cs = [] ↔ ∀ l ∈ leavesAll cs, l.Fails schema
  | [] => iff_of_true rfl fun _ hl => absurd hl List.not_mem_nil
  | c :: cs => by
      have hfirst := prune_eq_none_iff schema c
      have hrest := pruneAll_eq_nil_iff schema cs
      rw [pruneAll, leavesAll, List.append_eq_nil_iff, Option.toList_eq_nil_iff, hfirst, hrest,
        List.forall_mem_append]

end

/-- Conditions behind others are resolved behind them. -/
theorem resolveAll_append (schema : Schema) (cs ds : List Condition) :
    resolveAll schema (cs ++ ds) = resolveAll schema cs ++ resolveAll schema ds := by
  induction cs with
  | nil => rfl
  | cons c cs ih =>
      rw [List.cons_append, resolveAll_cons, resolveAll_cons, ih, List.append_assoc]

/-- The comparisons of conditions behind others stand behind theirs. -/
theorem leavesAll_append (cs ds : List Condition) :
    leavesAll (cs ++ ds) = leavesAll cs ++ leavesAll ds := by
  induction cs with
  | nil => rfl
  | cons c cs ih => rw [List.cons_append, leavesAll, leavesAll, ih, List.append_assoc]

mutual

/-- Pruning keeps the comparisons that can be resolved, in their order. -/
theorem leavesAll_prune (schema : Schema) :
    ∀ c : Condition, leavesAll (c.prune schema).toList =
      c.leaves.filter fun l => (l.resolve schema).toBool
  | leaf c => by
      rw [prune, leaves]
      cases hc : c.resolve schema with
      | error e => simp [leavesAll, hc, Except.toBool]
      | ok comparison => simp [leavesAll, leaves, hc, Except.toBool]
  | all cs => by
      rw [prune, leaves, ← leavesAll_pruneAll schema cs]
      cases pruneAll schema cs with
      | nil => rfl
      | cons d ds => exact List.append_nil _
  | any cs => by
      rw [prune, leaves, ← leavesAll_pruneAll schema cs]
      cases pruneAll schema cs with
      | nil => rfl
      | cons d ds => exact List.append_nil _

/-- The comparisons that are left are those that can be resolved. -/
theorem leavesAll_pruneAll (schema : Schema) :
    ∀ cs : List Condition, leavesAll (pruneAll schema cs) =
      (leavesAll cs).filter fun l => (l.resolve schema).toBool
  | [] => rfl
  | c :: cs => by
      have hfirst := leavesAll_prune schema c
      have hrest := leavesAll_pruneAll schema cs
      rw [pruneAll, leavesAll_append, hfirst, hrest, leavesAll, List.filter_append]

end

/-- Each condition is pruned by itself. -/
theorem pruneAll_eq_filterMap (schema : Schema) (cs : List Condition) :
    pruneAll schema cs = cs.filterMap (prune schema) := by
  induction cs with
  | nil => rfl
  | cons c cs ih =>
      rw [pruneAll, ih]
      cases hc : c.prune schema <;> simp [hc]

/-- The comparisons of conditions are those of each, in order. -/
theorem leavesAll_eq_flatMap (cs : List Condition) : leavesAll cs = cs.flatMap leaves := by
  induction cs with
  | nil => rfl
  | cons c cs ih => rw [leavesAll, ih, List.flatMap_cons]

/-- Resolving leaves nothing of several trees exactly when pruning leaves
nothing. -/
theorem resolveAll_eq_nil_iff (schema : Schema) (cs : List Condition) :
    resolveAll schema cs = [] ↔ pruneAll schema cs = [] := by
  have hformula := formulaAll_resolveAll schema cs
  rw [Predicate.formulaAll_eq_map, formulaAll_eq_map] at hformula
  rw [← List.map_eq_nil_iff, hformula, List.map_eq_nil_iff]

end Condition

/-- The event tells of a comparison that was left out. -/
def Event.isDropped : Event → Bool
  | droppedCondition _ _ _ => true
  | _ => false

/-- No literal is logged as dropped. -/
theorem Literal.filter_isDropped_events (l : Literal) : l.events.filter Event.isDropped = [] := by
  cases l <;> rfl

/-- No operand is logged as dropped. -/
theorem Operand.filter_isDropped_events (o : Operand) :
    o.events.filter Event.isDropped = [] := by
  cases o with
  | single l => exact l.filter_isDropped_events
  | set ls =>
      rw [Operand.events, List.filter_flatMap, List.flatMap_eq_nil_iff]
      intro l _
      exact l.filter_isDropped_events
  | pattern parts => rfl

/-- A comparison in a tree logs that it is left out exactly when it fails. -/
theorem Criterion.filter_isDropped_treeEvents (schema : Schema) (c : Criterion) :
    (c.treeEvents schema).filter Event.isDropped = (c.dropped? schema).toList := by
  rw [treeEvents, dropped?]
  cases c.resolve schema with
  | error e => rfl
  | ok comparison => exact comparison.operand.filter_isDropped_events

namespace Condition

mutual

/-- A tree logs its failing comparisons, one by one and in order. -/
theorem filter_isDropped_events (schema : Schema) :
    ∀ c : Condition, (c.events schema).filter Event.isDropped =
      c.leaves.filterMap (Criterion.dropped? schema)
  | leaf c => by
      rw [events, leaves, Criterion.filter_isDropped_treeEvents]
      cases hc : c.dropped? schema <;> simp [hc]
  | all cs => by
      rw [events, leaves]
      exact filter_isDropped_eventsAll schema cs
  | any cs => by
      rw [events, leaves]
      exact filter_isDropped_eventsAll schema cs

/-- What is logged as dropped of conditions are the comparisons that fail, in order. -/
theorem filter_isDropped_eventsAll (schema : Schema) :
    ∀ cs : List Condition, (eventsAll schema cs).filter Event.isDropped =
      (leavesAll cs).filterMap (Criterion.dropped? schema)
  | [] => rfl
  | c :: cs => by
      have hfirst := filter_isDropped_events schema c
      have hrest := filter_isDropped_eventsAll schema cs
      rw [eventsAll, leavesAll, List.filter_append, List.filterMap_append, hfirst, hrest]

end

end Condition

/-- The condition that an argument is, if it is one. -/
def Argument.condition? : Argument → Option Condition
  | .condition c => some c
  | _ => none

/-- The conditions among the arguments of a statement, in order. -/
def conditionsOf (args : List Argument) : List Condition :=
  args.filterMap Argument.condition?

/-- The conditions of arguments are those of each, in order. -/
theorem conditionsOf_cons (arg : Argument) (args : List Argument) :
    conditionsOf (arg :: args) = arg.condition?.toList ++ conditionsOf args := by
  cases arg <;> rfl

namespace Arguments

/-- An argument adds what is left of its condition behind the others. -/
theorem conditions_add (schema : Schema) (a : Arguments) (arg : Argument) :
    (a.add schema arg).conditions =
      a.conditions ++ Condition.resolveAll schema arg.condition?.toList := by
  cases arg with
  | condition c =>
      have hone : Condition.resolveAll schema [c] = (c.resolve schema).toList := by
        rw [Condition.resolveAll_cons, Condition.resolveAll, List.append_nil]
      exact congrArg (a.conditions ++ ·) hone.symm
  | _ => exact (List.append_nil _).symm

/-- Gathering resolves the conditions in order and takes every argument. -/
theorem conditions_addAll {schema : Schema} {verb : Verb} {a b : Arguments}
    {args : List Argument} (hadd : addAll schema verb a args = .ok b) :
    b.conditions = a.conditions ++ Condition.resolveAll schema (conditionsOf args) ∧
      ∀ arg ∈ args, verb.accepts arg.kind = true := by
  induction args generalizing a with
  | nil =>
      cases hadd
      exact ⟨(List.append_nil _).symm, fun _ h => absurd h List.not_mem_nil⟩
  | cons arg args ih =>
      rw [addAll] at hadd
      split at hadd
      · rename_i haccepts
        obtain ⟨hconditions, hall⟩ := ih hadd
        refine ⟨?_, List.forall_mem_cons.mpr ⟨haccepts, hall⟩⟩
        rw [hconditions, conditions_add, conditionsOf_cons, Condition.resolveAll_append,
          List.append_assoc]
      · cases hadd

/-- The conditions that are gathered are what is left of those in the arguments. -/
theorem conditions_gather {schema : Schema} {base : TableOptions} {verb : Verb}
    {args : List Argument} {a : Arguments} (ha : gather schema base verb args = .ok a) :
    a.conditions = Condition.resolveAll schema (conditionsOf args) ∧
      ∀ arg ∈ args, verb.accepts arg.kind = true := by
  obtain ⟨gathered, hgathered, hrest⟩ := bind_eq_ok.mp ha
  obtain ⟨options, _, hresult⟩ := bind_eq_ok.mp hrest
  cases hresult
  exact conditions_addAll hgathered

/-- Gathering logs what its conditions log. -/
theorem events_eq_eventsAll {schema : Schema} {verb : Verb} {args : List Argument}
    (hall : ∀ arg ∈ args, verb.accepts arg.kind = true) :
    events schema verb args = Condition.eventsAll schema (conditionsOf args) := by
  induction args with
  | nil => rfl
  | cons arg args ih =>
      have haccepts := hall arg List.mem_cons_self
      have hrest := ih fun arg' hmem => hall arg' (List.mem_cons_of_mem _ hmem)
      have htaken : (arg :: args).takeWhile (fun arg => verb.accepts arg.kind) =
          arg :: args.takeWhile fun arg => verb.accepts arg.kind :=
        List.takeWhile_cons_of_pos haccepts
      rw [events] at hrest ⊢
      rw [htaken, List.flatMap_cons, hrest]
      cases arg <;> rfl

/-- The predicates behind `WHERE` are read as one conjunction. -/
theorem parse_predicateText {a : Arguments} (hne : a.conditions ≠ [])
    (hread : ∀ p ∈ a.conditions, p.IsRead) :
    parse (lexemes a.predicateText) =
      some (Formula.all (Predicate.formulaAll a.conditions)).collapse := by
  have hand : WordBreak " AND " := by decide
  have hword : lexemes " AND " = [.word Connective.and.word] := by decide
  have hclosed : ∀ s ∈ a.conditions.map Predicate.clause, Closed s := by
    intro s hs
    obtain ⟨p, _, rfl⟩ := List.mem_map.mp hs
    exact p.sameShape_clause.left
  rw [predicateText, lexemes_intercalate hand hclosed, hword, List.map_map, Formula.collapse,
    Formula.collapseAll_eq_map, Predicate.formulaAll_eq_map, List.map_map]
  exact parse_join .and hne fun p hp => Predicate.reads_clause (hread p hp)

/-- There is no clause exactly if there is no condition. -/
theorem whereClause?_eq_none_iff (a : Arguments) :
    a.whereClause? = none ↔ a.conditions = [] := by
  cases h : a.conditions with
  | nil => simp [whereClause?, h]
  | cons p ps => simp [whereClause?, h]

/-- The clause is its word and the predicates behind it. -/
theorem lexemes_whereClause {a : Arguments} {text : String} (htext : a.whereClause? = some text) :
    a.conditions ≠ [] ∧ lexemes text = .word "WHERE" :: lexemes a.predicateText := by
  obtain ⟨hne, hsome⟩ := Option.ite_none_left_eq_some.mp htext
  cases hsome
  refine ⟨fun h => hne (List.isEmpty_iff.mpr h), ?_⟩
  have hwhere : Unmarked "WHERE" := by decide
  have hspace : WordBreak " " := by decide
  exact lexemes_glue hwhere.closed hspace a.predicateText

end Arguments

/-- The lexemes are read as a formula: their brackets are balanced, and they
parse to it without the brackets around single members. -/
def ReadAs (ls : List Lexeme) (f : Formula) : Prop :=
  Balanced ls ∧ parse ls = some f.collapse

/-- Lexemes that parse to a formula are read as it. -/
theorem readAs_of_parse {ls : List Lexeme} {f : Formula} (h : parse ls = some f.collapse) :
    ReadAs ls f :=
  ⟨balanced_of_parse h, h⟩

namespace Condition

/-- There is no text exactly if nothing is left of the condition. -/
theorem fragment?_eq_none_iff (schema : Schema) (c : Condition) :
    c.fragment? schema = none ↔ c.prune schema = none := by
  have hformula := map_formula_resolve schema c
  rw [fragment?, Option.map_eq_none_iff, ← Option.map_eq_none_iff, hformula,
    Option.map_eq_none_iff]

/-- A tree on its own is read as the pruned tree. -/
theorem readAs_fragment {schema : Schema} {c : Condition} {text : String}
    (htext : c.fragment? schema = some text) :
    ∃ kept, c.prune schema = some kept ∧
      ReadAs (TableMapper.lexemes text) (kept.formula schema) := by
  obtain ⟨p, hp, rfl⟩ := Option.map_eq_some_iff.mp htext
  have hformula := map_formula_resolve schema c
  rw [hp, Option.map_some] at hformula
  obtain ⟨kept, hkept, heq⟩ := Option.map_eq_some_iff.mp hformula.symm
  have hread := Predicate.reads_clause (isRead_of_resolve schema c hp)
  refine ⟨kept, hkept, readAs_of_parse ?_⟩
  rw [heq]
  exact hread.parse_eq

end Condition

/-- The arguments of a statement are read as the conjunction of what pruning
leaves of them. -/
theorem Arguments.readAs_whereClause {schema : Schema} {base : TableOptions} {verb : Verb}
    {args : List Argument} {a : Arguments} {text : String}
    (ha : gather schema base verb args = .ok a) (htext : a.whereClause? = some text) :
    ∃ ls, lexemes text = .word "WHERE" :: ls ∧
      ReadAs ls (.all (Condition.formulaAll schema
        (Condition.pruneAll schema (conditionsOf args)))) := by
  obtain ⟨hne, hlexemes⟩ := lexemes_whereClause htext
  have hconditions := (conditions_gather ha).1
  have hread : ∀ p ∈ a.conditions, p.IsRead := by
    rw [hconditions]
    exact Condition.isRead_of_mem_resolveAll schema (conditionsOf args)
  have hparse := parse_predicateText hne hread
  rw [hconditions, Condition.formulaAll_resolveAll] at hparse
  exact ⟨lexemes a.predicateText, hlexemes, readAs_of_parse hparse⟩

/-- **Conditions keep their meaning.**  On its own, a tree gives no text exactly
when pruning leaves nothing of it, and otherwise a text that is read as the
pruned tree, which has the comparisons that can be resolved in their order;
what is logged are the other ones, in order and each with its own error.  The
arguments of a statement are read as the conjunction of what is left of each,
and there is no `WHERE` exactly when every comparison in them fails. -/
theorem parse_fragment_eq_prune (schema : Schema) :
    (∀ c : Condition,
      (c.fragment? schema = none ↔ c.prune schema = none) ∧
      (∀ text, c.fragment? schema = some text →
        ∃ kept, c.prune schema = some kept ∧
          kept.leaves = c.leaves.filter (fun l => (l.resolve schema).toBool) ∧
          ReadAs (lexemes text) (kept.formula schema)) ∧
      (c.events schema).filter Event.isDropped =
        c.leaves.filterMap (Criterion.dropped? schema)) ∧
    ∀ base verb args a, Arguments.gather schema base verb args = .ok a →
      (a.whereClause? = none ↔
        ∀ c ∈ conditionsOf args, ∀ l ∈ c.leaves, ∃ e, l.resolve schema = .error e) ∧
      (∀ text, a.whereClause? = some text →
        ∃ ls, lexemes text = .word "WHERE" :: ls ∧
          ReadAs ls (.all (((conditionsOf args).filterMap (Condition.prune schema)).map
            (Condition.formula schema)))) ∧
      (Arguments.events schema verb args).filter Event.isDropped =
        ((conditionsOf args).flatMap Condition.leaves).filterMap
          (Criterion.dropped? schema) := by
  constructor
  · intro c
    refine ⟨c.fragment?_eq_none_iff schema, ?_, c.filter_isDropped_events schema⟩
    intro text htext
    obtain ⟨kept, hkept, hread⟩ := Condition.readAs_fragment htext
    have hleaves := c.leavesAll_prune schema
    rw [hkept] at hleaves
    refine ⟨kept, hkept, ?_, hread⟩
    rw [← hleaves]
    exact (List.append_nil _).symm
  · intro base verb args a ha
    obtain ⟨hconditions, hall⟩ := Arguments.conditions_gather ha
    refine ⟨?_, ?_, ?_⟩
    · rw [Arguments.whereClause?_eq_none_iff, hconditions, Condition.resolveAll_eq_nil_iff,
        Condition.pruneAll_eq_nil_iff, Condition.leavesAll_eq_flatMap, List.forall_mem_flatMap]
      rfl
    · intro text htext
      have hread := Arguments.readAs_whereClause ha htext
      rwa [Condition.formulaAll_eq_map, Condition.pruneAll_eq_filterMap] at hread
    · rw [Arguments.events_eq_eventsAll hall, Condition.filter_isDropped_eventsAll,
        Condition.leavesAll_eq_flatMap]

/-- Comparisons with the columns of the accounts. -/
def namedLike : Criterion :=
  ⟨"name", "like", .text "o"⟩

def seventhId : Criterion :=
  ⟨"id", "=", .int 7⟩

def laterId : Criterion :=
  ⟨"id", ">", .int 1⟩

/-- A comparison with an operator that does not exist. -/
def unknownOperator : Criterion :=
  ⟨"id", "~", .int 1⟩

/-- Two trees among other arguments; one comparison cannot be resolved, which
leaves a group of two with one member. -/
def namedOrSeventh : List Argument :=
  [.condition (.any [.leaf namedLike, .all [.leaf unknownOperator, .leaf seventhId]]), .limit 3,
    .condition (.leaf laterId)]

/-- The law at these arguments. -/
theorem parse_fragment_eq_prune_accounts :
    ∃ a ls, Arguments.gather accounts { tableName := "accounts" } .select namedOrSeventh = .ok a ∧
      a.whereClause? = some
        "WHERE (\x60name\x60 LIKE 'o' OR (\x60id\x60 = 7)) AND (\x60id\x60 > 1)" ∧
      parse ls = some (.all
        [.any [.atom (namedLike.lexemes accounts), .atom (seventhId.lexemes accounts)],
          .atom (laterId.lexemes accounts)]) := by
  obtain ⟨a, ha⟩ : ∃ a, Arguments.gather accounts { tableName := "accounts" } .select
      namedOrSeventh = .ok a := ⟨_, rfl⟩
  have htext : a.whereClause? = some
      "WHERE (\x60name\x60 LIKE 'o' OR (\x60id\x60 = 7)) AND (\x60id\x60 > 1)" := by
    cases ha
    decide +kernel
  obtain ⟨ls, _, _, hparse⟩ :=
    ((parse_fragment_eq_prune accounts).2 _ _ _ _ ha).2.1 _ htext
  have hunknown : (unknownOperator.resolve accounts).toBool = false := by decide +kernel
  have hresolved : (namedLike.resolve accounts).toBool = true ∧
      (seventhId.resolve accounts).toBool = true ∧ (laterId.resolve accounts).toBool = true := by
    decide +kernel
  obtain ⟨hnamed, hseventh, hlater⟩ := hresolved
  have hkept : (conditionsOf namedOrSeventh).filterMap (Condition.prune accounts) =
      [.any [.leaf namedLike, .all [.leaf seventhId]], .leaf laterId] := by
    simp [namedOrSeventh, conditionsOf, Argument.condition?, List.filterMap_cons, Condition.prune,
      Condition.pruneAll, Condition.regroup, hunknown, hnamed, hseventh, hlater]
  rw [hkept] at hparse
  exact ⟨a, ls, ha, htext, hparse⟩

end TableMapper
