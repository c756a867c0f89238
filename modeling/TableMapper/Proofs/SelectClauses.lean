import TableMapper.Proofs.ArgumentOrder
import TableMapper.Proofs.ClauseGrammar

/-!
# The clauses of a select

A select writes a clause for everything that its arguments ask for, each decided on its
own, and joins them.  This file says which clauses the database reads from the text, and
when they are those of a query: the arguments may ask to pass over rows without counting
any, and then there is an `OFFSET` that no `LIMIT` stands in front of.

* `Predicate.inClause` — a condition has no word that begins a clause;
* `Arguments.clauses`, `Arguments.query` — the clauses that arguments ask for, and the
  query that they are if rows are counted;
* `isWritten_clauses` — the texts of these clauses;
* `select_clauses` — the text of a select, and when it is grammatical;
* `offset_alone` — an offset without a limit.
-/

namespace TableMapper

/-- A literal has no word that begins a clause. -/
theorem Literal.inClause (l : Literal) : InClause (lexemes l.text) := by
  rcases l.quoted_or_bare with hquoted | hbare
  · exact hquoted.inClause
  · exact hbare.inClause

/-- An operand has no word that begins a clause. -/
theorem Operand.inClause (o : Operand) : InClause (lexemes o.text) := by
  cases o with
  | single l => exact l.inClause
  | set ls =>
      have hcomma : InClause (lexemes ", ") := by decide
      refine InClause.brackets (sameShape_literals ls).left ?_
      refine InClause.joined (by decide) hcomma ?_ ?_
      · exact List.forall_mem_map.mpr fun l _ => l.closed
      · exact List.forall_mem_map.mpr fun l _ => l.inClause
  | pattern parts => exact (isQuoted_quotePattern parts).inClause

/-- A comparison has no word that begins a clause. -/
theorem Comparison.inClause (c : Comparison) : InClause (lexemes c.text) := by
  have hspace : WordBreak " " := by decide
  have hoperator : InClause (lexemes c.operator.text) := by cases c.operator <;> decide
  have hname := closed_quoteName c.column
  have hleft := hname.glue hspace.separator c.operator.unmarked_text.closed
  rw [Comparison.text, lexemes_glue hleft hspace, lexemes_glue hname hspace]
  exact ((isQuoted_quoteName c.column).inClause.append hoperator).append c.operand.inClause

/-- A group has no word that begins a clause if its members have none. -/
theorem inClause_group {connective : String} (hbreak : WordBreak connective)
    (hword : InClause (lexemes connective)) {ps : List Predicate}
    (hps : ∀ p ∈ ps, InClause (lexemes p.text)) :
    InClause (lexemes ("(" ++ connective.intercalate (Predicate.texts ps) ++ ")")) := by
  have hclosed : ∀ s ∈ ps.map Predicate.text, Closed s :=
    List.forall_mem_map.mpr fun p _ => p.closed_text
  rw [Predicate.texts_eq_map]
  exact (InClause.joined hbreak hword hclosed (List.forall_mem_map.mpr hps)).brackets
    (closed_intercalate hbreak.separator hclosed)

mutual

/-- A condition has no word that begins a clause. -/
theorem Predicate.inClause : ∀ p : Predicate, InClause (lexemes p.text)
  | .leaf c => c.inClause
  | .all ps => inClause_group (by decide) (by decide) (Predicate.inClause_each ps)
  | .any ps => inClause_group (by decide) (by decide) (Predicate.inClause_each ps)

/-- None of the conditions in a list has a word that begins a clause. -/
theorem Predicate.inClause_each : ∀ ps : List Predicate, ∀ p ∈ ps, InClause (lexemes p.text)
  | [] => List.forall_mem_nil _
  | p :: ps => List.forall_mem_cons.mpr ⟨p.inClause, Predicate.inClause_each ps⟩

end

/-- Nor has a condition on its own, which is always in brackets. -/
theorem Predicate.inClause_clause (p : Predicate) : InClause (lexemes p.clause) := by
  cases p with
  | leaf c => exact c.inClause.brackets (Predicate.closed_text (.leaf c))
  | all ps => exact Predicate.inClause (.all ps)
  | any ps => exact Predicate.inClause (.any ps)

/-- A condition on its own has no blanks around it. -/
theorem Predicate.trimmed_clause (p : Predicate) : Trimmed p.clause := by
  have hopening : Trimmed "(" := Trimmed.of_solid (by decide) (by decide)
  have hclosing : Trimmed ")" := Trimmed.of_solid (by decide) (by decide)
  cases p with
  | leaf c => exact hopening.around hclosing c.text
  | all ps => exact hopening.around hclosing _
  | any ps => exact hopening.around hclosing _

/-- A word that is a direction is made of letters. -/
theorem Direction.letters_of_ofWord? {w : String} {d : Direction} (h : ofWord? w = some d) :
    w ≠ "" ∧ ∀ c ∈ w.toList, (65 ≤ c.toNat ∧ c.toNat ≤ 90) ∨ 97 ≤ c.toNat ∧ c.toNat ≤ 122 := by
  have hcapitals : (Text.upper w).toList.all (fun c => 65 ≤ c.toNat && c.toNat ≤ 90) = true := by
    unfold ofWord? at h
    split_ifs at h with hasc hdesc
    · rw [hasc]
      decide
    · rw [hdesc]
      decide
  refine ⟨?_, ?_⟩
  · intro hempty
    have hnone : ofWord? "" = none := by decide +kernel
    rw [hempty, hnone] at h
    cases h
  · intro c hc
    have hmem : c.toUpper ∈ (Text.upper w).toList := by
      rw [Text.upper, String.toList_map]
      exact List.mem_map_of_mem hc
    have hrange := List.all_eq_true.mp hcapitals _ hmem
    rw [Text.toNat_toUpper, Bool.and_eq_true, decide_eq_true_eq, decide_eq_true_eq] at hrange
    split_ifs at hrange <;> omega

/-- A word that is a direction is one lexeme, and begins no clause. -/
theorem Direction.spec_of_ofWord? {w : String} {d : Direction} (h : ofWord? w = some d) :
    Closed w ∧ Trimmed w ∧ lexemes w = [.word w] ∧ InClause [.word w] := by
  obtain ⟨hne, hletters⟩ := letters_of_ofWord? h
  have hchars : Only isWordChar w := by
    intro c hc
    have hrange := hletters c hc
    exact isWordChar_of_toNat (by omega) (by omega) (by omega)
  have hplain : Unmarked w := hchars.mono fun c hc => (Bool.and_eq_true_iff.mp hc).1
  have hsolid : Text.Solid w.toList := by
    intro c hc
    refine Bool.eq_false_iff.mpr fun hblank => ?_
    have hrange := hletters c hc
    have hcodes := Text.isBlank_iff.mp hblank
    omega
  have hnone : ∀ kind ∈ ClauseKind.all, ofWord? kind.word = none := by decide +kernel
  refine ⟨hplain.closed, Trimmed.of_solid hne hsolid, lexemes_word hne hchars,
    List.forall_mem_singleton.mpr ?_⟩
  rw [Lexeme.clauseKind?, List.find?_eq_none]
  intro kind hkind hword
  have hkindNone := hnone kind hkind
  rw [decide_eq_true_eq.mp hword, h] at hkindNone
  cases hkindNone

namespace OrderItem

/-- The direction is an ascending or a descending one, or is left out. -/
def IsDirected (o : OrderItem) : Prop :=
  Text.trim o.direction = "" ∨ (Direction.ofWord? (Text.trim o.direction)).isSome = true

/-- The sort key that an item asks for. -/
def sortKey (o : OrderItem) : SortKey :=
  ⟨o.column, Direction.ofWord? (Text.trim o.direction)⟩

/-- An item is its column, with a word behind it if there is a direction. -/
theorem text_cases {o : OrderItem} (ho : o.IsDirected) :
    (o.text = Text.quoteName o.column ∧ o.sortKey = ⟨o.column, none⟩) ∨
    ∃ w d, Direction.ofWord? w = some d ∧ o.text = Text.quoteName o.column ++ " " ++ w ∧
      o.sortKey = ⟨o.column, some d⟩ := by
  rcases ho with hempty | hdirection
  · refine .inl ⟨?_, ?_⟩
    · rw [text, hempty]
      exact String.append_empty
    · rw [sortKey, hempty]
      have hnone : Direction.ofWord? "" = none := by decide +kernel
      rw [hnone]
  · obtain ⟨d, hd⟩ := Option.isSome_iff_exists.mp hdirection
    refine .inr ⟨_, d, hd, ?_, by rw [sortKey, hd]⟩
    have hne : (Text.trim o.direction).isEmpty = false :=
      Bool.eq_false_iff.mpr fun h =>
        (Direction.letters_of_ofWord? hd).1 (String.isEmpty_iff.mp h)
    rw [text, hne, if_neg Bool.false_ne_true, String.append_assoc]

/-- The text of an item is read as its sort key. -/
theorem isItem_text {o : OrderItem} (ho : o.IsDirected) :
    IsItem readSortKey? o.text o.sortKey := by
  have hname := isItem_quoteName o.column
  have hread := hname.read
  have hquoted := lexemes_quoteName o.column
  rw [hquoted] at hread
  rcases text_cases ho with ⟨htext, hkey⟩ | ⟨w, d, hd, htext, hkey⟩
  · rw [htext, hkey]
    refine ⟨⟨hname.closed, hname.trimmed, hname.inside, ?_⟩, hname.noComma⟩
    rw [hquoted, readSortKey?, hread]
    rfl
  · have hspace : WordBreak " " := by decide
    obtain ⟨hclosed, htrimmed, hword, hfree⟩ := Direction.spec_of_ofWord? hd
    have hlexemes : lexemes o.text = lexemes (Text.quoteName o.column) ++ [.word w] := by
      rw [htext, lexemes_glue hname.closed hspace, hword]
      rfl
    refine ⟨⟨?_, ?_, ?_, ?_⟩, ?_⟩
    · rw [htext]
      exact hname.closed.glue hspace.separator hclosed
    · rw [htext]
      exact hname.trimmed.around htrimmed " "
    · rw [hlexemes]
      exact hname.inside.append hfree
    · rw [hlexemes, hkey, hquoted, List.singleton_append, readSortKey?, hread, hd]
      rfl
    · rw [hlexemes, hquoted]
      simp

end OrderItem

namespace Clause

/-- The names that are selected. -/
theorem isWritten_columns {names : List String} (hne : names ≠ []) :
    (columns names).IsWritten ("SELECT " ++ Text.quoteNames names) := by
  have hnames := IsItem.list hne fun name _ => isItem_quoteName name
  rw [List.map_id'] at hnames
  exact hnames.isWritten rfl fun _ => rfl

/-- The table that is read. -/
theorem isWritten_table (name : String) :
    (table name).IsWritten ("FROM " ++ Text.quoteName name) :=
  (isItem_quoteName name).isWritten rfl fun _ => rfl

/-- How many rows are wanted. -/
theorem isWritten_limit (n : Nat) : (limit n).IsWritten ("LIMIT " ++ toString n) :=
  (isBody_toString n).isWritten rfl fun _ => rfl

/-- How many rows are passed over. -/
theorem isWritten_offset (n : Nat) : (offset n).IsWritten ("OFFSET " ++ toString n) :=
  (isBody_toString n).isWritten rfl fun _ => rfl

/-- The lock on the rows. -/
theorem isWritten_lock : lock.IsWritten "FOR UPDATE" := by
  have hplain : Unmarked "UPDATE" := by decide
  have hbody : IsBody (readWord? "UPDATE") "UPDATE" () :=
    ⟨hplain.closed, Trimmed.of_solid (by decide) (by decide), by decide, rfl⟩
  let make : Unit → Clause := fun _ => lock
  have hwritten : (make ()).IsWritten ("FOR " ++ "UPDATE") := hbody.isWritten rfl fun _ => rfl
  exact hwritten

/-- The keys by which rows are ordered, if there are any. -/
theorem isWritten_ordering {os : List OrderItem} (hne : os ≠ []) (hos : ∀ o ∈ os, o.IsDirected) :
    (ordering (os.map OrderItem.sortKey)).IsWritten
      ("ORDER BY " ++ ", ".intercalate (os.map OrderItem.text)) := by
  have hspace : WordBreak " " := by decide
  have hby : Unmarked "BY" := by decide
  have hword : Trimmed "BY" := Trimmed.of_solid (by decide) (by decide)
  have hfree : InClause [.word "BY"] := by decide
  have hitems := IsItem.list hne fun o ho => OrderItem.isItem_text (hos o ho)
  have hlexemes : lexemes ("BY" ++ " " ++ ", ".intercalate (os.map OrderItem.text)) =
      .word "BY" :: lexemes (", ".intercalate (os.map OrderItem.text)) :=
    lexemes_glue hby.closed hspace _
  have hbody : IsBody (readBehind? "BY" (readList? readSortKey?))
      ("BY" ++ " " ++ ", ".intercalate (os.map OrderItem.text)) (os.map OrderItem.sortKey) := by
    refine ⟨hby.closed.glue hspace.separator hitems.closed, hword.around hitems.trimmed " ",
      ?_, ?_⟩
    · rw [hlexemes]
      exact hfree.append hitems.inside
    · rw [hlexemes, readBehind?, if_pos rfl, hitems.read]
  have htext : "ORDER BY " ++ ", ".intercalate (os.map OrderItem.text) =
      "ORDER " ++ ("BY" ++ " " ++ ", ".intercalate (os.map OrderItem.text)) := by
    rw [← String.append_assoc, ← String.append_assoc]
    rfl
  rw [htext]
  exact hbody.isWritten rfl fun _ => rfl

/-- The conditions that rows meet, if there are any. -/
theorem isWritten_condition {a : Arguments} (hne : a.conditions ≠ [])
    (hread : ∀ p ∈ a.conditions, p.IsRead) :
    (condition (Formula.all (Predicate.formulaAll a.conditions)).collapse).IsWritten
      ("WHERE " ++ a.predicateText) := by
  have hand : WordBreak " AND " := by decide
  have hclosed : ∀ s ∈ a.conditions.map Predicate.clause, Closed s :=
    List.forall_mem_map.mpr fun p _ => p.sameShape_clause.left
  have htrimmed : Trimmed a.predicateText :=
    Trimmed.intercalate (fun hnil => hne (List.map_eq_nil_iff.mp hnil))
      (List.forall_mem_map.mpr fun p _ => p.trimmed_clause)
  have hinside : InClause (lexemes a.predicateText) :=
    InClause.joined hand (by decide) hclosed
      (List.forall_mem_map.mpr fun p _ => p.inClause_clause)
  have hbody : IsBody parse a.predicateText
      (Formula.all (Predicate.formulaAll a.conditions)).collapse :=
    ⟨closed_intercalate hand.separator hclosed, htrimmed, hinside,
      Arguments.parse_predicateText hne hread⟩
  exact hbody.isWritten rfl fun _ => rfl

end Clause

namespace Arguments

/-- The clauses that arguments ask for, over the given columns. -/
def clauses (a : Arguments) (columns : List String) : List Clause :=
  [some (.columns columns), some (.table a.table),
    if a.conditions.isEmpty then none
    else some (.condition (Formula.all (Predicate.formulaAll a.conditions)).collapse),
    if a.orders.isEmpty then none else some (.ordering (a.orders.map OrderItem.sortKey)),
    a.limit.map fun n => .limit n.toNat, a.offset.map fun n => .offset n.toNat,
    if a.forUpdate then some .lock else none].filterMap id

/-- The query that arguments ask for if they count its rows. -/
def query (a : Arguments) (columns : List String) : Query where
  columns := columns
  table := a.table
  condition :=
    if a.conditions.isEmpty then none
    else some (Formula.all (Predicate.formulaAll a.conditions)).collapse
  ordering := if a.orders.isEmpty then none else some (a.orders.map OrderItem.sortKey)
  window := a.limit.map fun n => ⟨n.toNat, a.offset.map UInt64.toNat⟩
  locks := a.forUpdate

/-- Rows are passed over only where they are counted. -/
def CountsSkipped (a : Arguments) : Prop :=
  a.offset.isSome = true → a.limit.isSome = true

/-- Where rows are passed over only if they are counted, the clauses are those of a query.
-/
theorem clauses_query {a : Arguments} (h : a.CountsSkipped) (columns : List String) :
    (a.query columns).clauses = a.clauses columns := by
  have hcondition (f : Formula) : (if a.conditions.isEmpty then none else some f).map
      Clause.condition = if a.conditions.isEmpty then none else some (.condition f) := by
    split <;> rfl
  have hordering (keys : List SortKey) : (if a.orders.isEmpty then none else some keys).map
      Clause.ordering = if a.orders.isEmpty then none else some (.ordering keys) := by
    split <;> rfl
  rw [Query.clauses, clauses, query]
  dsimp only
  rw [hcondition, hordering]
  cases hlimit : a.limit with
  | some n =>
      cases a.offset <;> rfl
  | none =>
      have hoffset : a.offset = none := by
        cases hoffset : a.offset with
        | none => rfl
        | some n =>
            have hsome := h (by rw [hoffset]; rfl)
            rw [hlimit] at hsome
            cases hsome
      rw [hoffset]
      rfl

/-- Where rows are passed over that are not counted, the clauses are those of no query. -/
theorem clauses_ne_query {a : Arguments} (h : ¬a.CountsSkipped) (columns : List String)
    (q : Query) : a.clauses columns ≠ q.clauses := by
  obtain ⟨hoffset, hlimit⟩ := Classical.not_imp.mp h
  obtain ⟨n, hn⟩ := Option.isSome_iff_exists.mp hoffset
  have hnone : a.limit = none := Option.not_isSome_iff_eq_none.mp hlimit
  intro heq
  have hmem : Clause.offset n.toNat ∈ q.clauses := by
    rw [← heq, clauses, hn]
    simp
  obtain ⟨m, hm⟩ := Query.exists_limit hmem
  rw [← heq, clauses, hnone] at hm
  simp at hm

/-- The clauses that are asked for, each with its text. -/
theorem isWritten_clauses {a : Arguments} {columns : List String} (hne : columns ≠ [])
    (hread : ∀ p ∈ a.conditions, p.IsRead) (horder : ∀ o ∈ a.orders, o.IsDirected) :
    List.Forall₂ Clause.IsWritten (a.clauses columns)
      ([some ("SELECT " ++ Text.quoteNames columns), some ("FROM " ++ Text.quoteName a.table),
        a.whereClause?, a.orderClause?, a.limitClause?, a.offsetClause?,
        if a.forUpdate then some "FOR UPDATE" else none].filterMap id) := by
  have hcondition : Option.Rel Clause.IsWritten
      (if a.conditions.isEmpty then none
        else some (.condition (Formula.all (Predicate.formulaAll a.conditions)).collapse))
      a.whereClause? := by
    unfold whereClause?
    split
    · exact .none
    · rename_i hsome
      exact .some (Clause.isWritten_condition (fun hnil => hsome (List.isEmpty_iff.mpr hnil)) hread)
  have hordering : Option.Rel Clause.IsWritten
      (if a.orders.isEmpty then none else some (.ordering (a.orders.map OrderItem.sortKey)))
      a.orderClause? := by
    unfold orderClause?
    split
    · exact .none
    · rename_i hsome
      exact .some (Clause.isWritten_ordering (fun hnil => hsome (List.isEmpty_iff.mpr hnil)) horder)
  have hlimit : Option.Rel Clause.IsWritten (a.limit.map fun n => .limit n.toNat)
      a.limitClause? := by
    unfold limitClause?
    cases a.limit with
    | none => exact .none
    | some n => exact .some (Clause.isWritten_limit n.toNat)
  have hoffset : Option.Rel Clause.IsWritten (a.offset.map fun n => .offset n.toNat)
      a.offsetClause? := by
    unfold offsetClause?
    cases a.offset with
    | none => exact .none
    | some n => exact .some (Clause.isWritten_offset n.toNat)
  have hlock : Option.Rel Clause.IsWritten (if a.forUpdate then some .lock else none)
      (if a.forUpdate then some "FOR UPDATE" else none) := by
    split
    · exact .some Clause.isWritten_lock
    · exact .none
  refine List.rel_filterMap (fun _ _ h => h) ?_
  exact .cons (.some (Clause.isWritten_columns hne)) <| .cons (.some (Clause.isWritten_table _)) <|
    .cons hcondition <| .cons hordering <| .cons hlimit <| .cons hoffset <| .cons hlock .nil

end Arguments

/-- The text of a select is its clauses with single spaces between them. -/
theorem Statement.text_ofSelect_eq (schema : Schema) (a : Arguments) :
    (ofSelect schema a).text = " ".intercalate
      ([some ("SELECT " ++ Text.quoteNames schema.names), some ("FROM " ++ Text.quoteName a.table),
        a.whereClause?, a.orderClause?, a.limitClause?, a.offsetClause?,
        if a.forUpdate then some "FOR UPDATE" else none].filterMap id) := by
  have hspace : " FROM " = " " ++ "FROM " := rfl
  have hhead : "SELECT " ++ Text.quoteNames schema.names ++ " FROM " ++ Text.quoteName a.table =
      "SELECT " ++ Text.quoteNames schema.names ++ " " ++ ("FROM " ++ Text.quoteName a.table) := by
    rw [hspace]
    simp only [String.append_assoc]
  have hpair (first second : String) (rest : List (Option String)) :
      " ".intercalate ((some (first ++ " " ++ second) :: rest).filterMap id) =
        " ".intercalate ((some first :: some second :: rest).filterMap id) := by
    simp only [List.filterMap_cons, id_eq]
    rw [String.intercalate_cons_append, String.intercalate_cons_cons]
  have hjoin := hpair ("SELECT " ++ Text.quoteNames schema.names)
    ("FROM " ++ Text.quoteName a.table)
    [a.whereClause?, a.orderClause?, a.limitClause?, a.offsetClause?,
      if a.forUpdate then some "FOR UPDATE" else none]
  rw [← hhead] at hjoin
  exact hjoin

/-- What the database reads from the text of a select, and when it is a query. -/
theorem isQuery_select_iff {schema : Schema} {a : Arguments} (hne : schema.names ≠ [])
    (hread : ∀ p ∈ a.conditions, p.IsRead) (horder : ∀ o ∈ a.orders, o.IsDirected) :
    readClauses (lexemes (Statement.ofSelect schema a).text) = some (a.clauses schema.names) ∧
    (IsQuery (lexemes (Statement.ofSelect schema a).text) ↔ a.CountsSkipped) := by
  have hreads : readClauses (lexemes (Statement.ofSelect schema a).text) =
      some (a.clauses schema.names) := by
    rw [Statement.text_ofSelect_eq]
    exact readClauses_joined (Arguments.isWritten_clauses hne hread horder)
  refine ⟨hreads, ?_⟩
  constructor
  · intro ⟨q, hq⟩
    by_contra hcounts
    rw [hreads] at hq
    exact Arguments.clauses_ne_query hcounts schema.names q (Option.some.inj hq)
  · intro hcounts
    refine ⟨a.query schema.names, ?_⟩
    rw [hreads, Arguments.clauses_query hcounts]

/-- **A select is a query where it counts the rows it passes over.**  For arguments that are
accepted, with directions that are ascending, descending or left out, the text of a select
consists of clauses with single spaces between them: the columns, the table, and then the
condition, the ordering, the limit, the offset and the lock, of which those are there that
the arguments ask for, a limit or offset if the last one given is not zero.  The database
reads them back one by one.  They are those of a query, in the order of its grammar, unless
there is an offset and no limit, and then they are those of none. -/
theorem select_clauses {schema : Schema} {base : TableOptions} {args : List Argument}
    {a : Arguments} (hfields : schema.fields ≠ [])
    (ha : Arguments.gather schema base .select args = .ok a)
    (horder : ∀ o, .order o ∈ args → o.IsDirected) :
    a = { Arguments.collected schema base args with options := a.options } ∧
    (∃ texts, (Statement.ofSelect schema a).text = " ".intercalate texts ∧
      List.Forall₂ Clause.IsWritten (a.clauses schema.names) texts) ∧
    readClauses (lexemes (Statement.ofSelect schema a).text) = some (a.clauses schema.names) ∧
    (a.CountsSkipped → a.clauses schema.names = (a.query schema.names).clauses) ∧
    (IsQuery (lexemes (Statement.ofSelect schema a).text) ↔ a.CountsSkipped) := by
  obtain ⟨hconditions, haccepts⟩ := Arguments.conditions_gather ha
  have hcollected : a = { Arguments.collected schema base args with options := a.options } := by
    rw [Arguments.gather_eq haccepts] at ha
    obtain ⟨options, _, hresult⟩ := map_eq_ok.mp ha
    rw [← hresult]
  have hread : ∀ p ∈ a.conditions, p.IsRead := by
    rw [hconditions]
    exact Condition.isRead_of_mem_resolveAll schema (conditionsOf args)
  have hdirected : ∀ o ∈ a.orders, o.IsDirected := by
    intro o ho
    rw [hcollected] at ho
    obtain ⟨arg, harg, hsome⟩ := List.mem_filterMap.mp (List.mem_filter.mp ho).1
    cases arg <;> cases hsome
    exact horder o harg
  have hnames : schema.names ≠ [] := fun hnil => hfields (List.map_eq_nil_iff.mp hnil)
  obtain ⟨hreads, hquery⟩ := isQuery_select_iff hnames hread hdirected
  exact ⟨hcollected, ⟨_, Statement.text_ofSelect_eq schema a,
    Arguments.isWritten_clauses hnames hread hdirected⟩, hreads,
    fun hcounts => (Arguments.clauses_query hcounts _).symm, hquery⟩

/-- Every clause is asked for, the offset first and the limit twice. -/
def everyClause : List Argument :=
  [.offset 20, .limit 0, .order ⟨"name", " desc "⟩, .condition (.leaf seventhId), .forUpdate,
    .order ⟨"id", ""⟩, .limit 10]

/-- The law at these arguments. -/
theorem select_clauses_accounts :
    accounts.fields ≠ [] ∧ (∀ o, .order o ∈ everyClause → o.IsDirected) ∧
    ∃ a, Arguments.gather accounts { tableName := "accounts" } .select everyClause = .ok a ∧
      (Statement.ofSelect accounts a).text =
        "SELECT \x60id\x60, \x60name\x60 FROM \x60accounts\x60 WHERE (\x60id\x60 = 7) " ++
          "ORDER BY \x60name\x60 desc, \x60id\x60 LIMIT 10 OFFSET 20 FOR UPDATE" ∧
      IsQuery (lexemes (Statement.ofSelect accounts a).text) := by
  have hfields : accounts.fields ≠ [] := by decide
  have hdirected : ∀ o, .order o ∈ everyClause → o.IsDirected := by
    intro o ho
    simp only [everyClause, List.mem_cons, List.not_mem_nil, or_false, reduceCtorEq, false_or,
      Argument.order.injEq] at ho
    rcases ho with rfl | rfl
    · exact .inr (by decide +kernel)
    · exact .inl (by decide +kernel)
  obtain ⟨a, ha⟩ : ∃ a, Arguments.gather accounts { tableName := "accounts" } .select
      everyClause = .ok a := ⟨_, rfl⟩
  obtain ⟨_, _, _, _, hquery⟩ := select_clauses hfields ha hdirected
  refine ⟨hfields, hdirected, a, ha, ?_, hquery.mpr ?_⟩
  · cases ha
    decide +kernel
  · cases ha
    exact fun _ => rfl

/-- An offset alone is written, but makes no query. -/
theorem offset_alone :
    ∃ a, Arguments.gather accounts { tableName := "accounts" } .select [.offset 5] = .ok a ∧
      (Statement.ofSelect accounts a).text =
        "SELECT \x60id\x60, \x60name\x60 FROM \x60accounts\x60 OFFSET 5" ∧
      ¬IsQuery (lexemes (Statement.ofSelect accounts a).text) := by
  obtain ⟨a, ha⟩ : ∃ a, Arguments.gather accounts { tableName := "accounts" } .select
      [.offset 5] = .ok a := ⟨_, rfl⟩
  have hasked : a.conditions = [] ∧ a.orders = [] ∧ ¬a.CountsSkipped := by
    cases ha
    exact ⟨rfl, rfl, fun hcounts => absurd (hcounts rfl) Bool.false_ne_true⟩
  obtain ⟨hconditions, horders, hcounts⟩ := hasked
  have hnames : accounts.names ≠ [] := by decide
  have hread : ∀ p ∈ a.conditions, p.IsRead := by
    rw [hconditions]
    exact List.forall_mem_nil _
  have hdirected : ∀ o ∈ a.orders, o.IsDirected := by
    rw [horders]
    exact List.forall_mem_nil _
  refine ⟨a, ha, ?_, ?_⟩
  · cases ha
    decide +kernel
  · rw [(isQuery_select_iff hnames hread hdirected).2]
    exact hcounts

end TableMapper
