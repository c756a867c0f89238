import TableMapper.Proofs.ConditionMeaning
import TableMapper.Proofs.Draft
import TableMapper.Proofs.SchemaLookup

/-!
# Guarded inserts

A guarded insert writes a record unless a row satisfies the conditions.  The record
is written out twice in its statement, as a list of columns and as a row of literals
with aliases, and the conditions up to twice, in the guard and in the query behind
it.  This file says that both are the same each time: the columns and literals are
those of a plain insert, and the query that follows asks for the new row by its
number or for exactly the rows that the guard looked for.

* `Arguments.onlyConditions_gather` — the arguments of a guarded insert bring
  nothing but conditions and options;
* `Statement.ofGuardedInsert_eq_error_iff` — when there is no statement;
* `Guarded` — what is said around a guarded statement;
* `guardedInsert_agrees` — the law about the builder and both operations.
-/

namespace TableMapper

/-- Every comparison in the conditions of a call fails. -/
def NoneCompiles (schema : Schema) (args : List Argument) : Prop :=
  ∀ c ∈ conditionsOf args, ∀ l ∈ c.leaves, l.Fails schema

/-- Nothing but conditions and options has been given. -/
structure Arguments.OnlyConditions (a : Arguments) : Prop where
  limit : a.limit = none
  offset : a.offset = none
  orders : a.orders = []
  forUpdate : a.forUpdate = false

namespace Arguments

/-- An argument that is accepted adds nothing but a condition. -/
theorem OnlyConditions.add {schema : Schema} {a : Arguments} {arg : Argument}
    (h : a.OnlyConditions) (haccepts : Verb.accepts .upsert arg.kind = true) :
    (a.add schema arg).OnlyConditions := by
  cases arg with
  | options o => exact ⟨h.limit, h.offset, h.orders, h.forUpdate⟩
  | condition c => exact ⟨h.limit, h.offset, h.orders, h.forUpdate⟩
  | limit n => cases haccepts
  | offset n => cases haccepts
  | order o => cases haccepts
  | forUpdate => cases haccepts

/-- Arguments that are accepted add nothing but conditions. -/
theorem OnlyConditions.addAll {schema : Schema} {a b : Arguments} {args : List Argument}
    (h : a.OnlyConditions) (hadd : addAll schema .upsert a args = .ok b) : b.OnlyConditions := by
  induction args generalizing a with
  | nil =>
      cases hadd
      exact h
  | cons arg args ih =>
      rw [Arguments.addAll] at hadd
      split at hadd
      · rename_i haccepts
        exact ih (h.add haccepts) hadd
      · cases hadd

/-- Nothing but conditions is gathered for a guarded insert. -/
theorem onlyConditions_gather {schema : Schema} {base : TableOptions} {args : List Argument}
    {a : Arguments} (ha : gather schema base .upsert args = .ok a) : a.OnlyConditions := by
  obtain ⟨gathered, hgathered, hrest⟩ := bind_eq_ok.mp ha
  obtain ⟨options, _, hresult⟩ := bind_eq_ok.mp hrest
  cases hresult
  have hbase : ({ options := base } : Arguments).OnlyConditions := ⟨rfl, rfl, rfl, rfl⟩
  have hall := hbase.addAll hgathered
  exact ⟨hall.limit, hall.offset, hall.orders, hall.forUpdate⟩

/-- No condition is left exactly when every comparison in them fails. -/
theorem conditions_eq_nil_iff {schema : Schema} {base : TableOptions} {verb : Verb}
    {args : List Argument} {a : Arguments} (ha : gather schema base verb args = .ok a) :
    a.conditions = [] ↔ NoneCompiles schema args := by
  rw [(conditions_gather ha).1, Condition.resolveAll_eq_nil_iff, Condition.pruneAll_eq_nil_iff,
    Condition.leavesAll_eq_flatMap, List.forall_mem_flatMap]
  rfl

end Arguments

/-- What is prepared has been gathered from the arguments. -/
theorem gather_of_prepared {t : RecordType} {verb : Verb} {args : List Argument}
    {schema : Schema} {gathered : Arguments}
    (h : prepared t verb args = .ok (schema, gathered)) :
    Arguments.gather schema t.options verb args = .ok gathered := by
  obtain ⟨schema', _, hrest⟩ := bind_eq_ok.mp h
  obtain ⟨gathered', hgather, heq⟩ := bind_eq_ok.mp hrest
  cases heq
  exact hgather

/-- The query for all columns of the rows of a table that satisfy a condition. -/
def rowsText (schema : Schema) (table condition : String) : String :=
  "SELECT " ++ Text.quoteNames schema.names ++ " FROM " ++ Text.quoteName table ++
    " WHERE " ++ condition

/-- The statement that inserts literals into columns of a table unless a row of it
satisfies a condition. -/
def guardedText (table increment : String) (columns : List String) (literals : List Literal)
    (condition : String) : String :=
  "INSERT INTO " ++ Text.quoteName table ++ " (" ++ Text.quoteNames columns ++
    ") SELECT * FROM (SELECT " ++
    ", ".intercalate
      (List.zipWith (fun c l => l.text ++ " AS " ++ Text.quoteName c) columns literals) ++
    ") AS tmp WHERE NOT EXISTS (SELECT " ++ Text.quoteName increment ++ " FROM " ++
    Text.quoteName table ++ " WHERE " ++ condition ++ ") LIMIT 1"

namespace Statement

/-- A selection that only has conditions is the query for the rows that satisfy
them. -/
theorem text_ofSelect (schema : Schema) {a : Arguments} (h : a.OnlyConditions)
    (hne : a.conditions ≠ []) :
    (ofSelect schema a).text = rowsText schema a.table a.predicateText := by
  have hempty : a.conditions.isEmpty = false := by simpa using hne
  have hwhere : a.whereClause? = some ("WHERE " ++ a.predicateText) := by
    rw [Arguments.whereClause?, hempty]
    rfl
  have horder : a.orderClause? = none := by
    rw [Arguments.orderClause?, h.orders]
    rfl
  have hlimit : a.limitClause? = none := by
    rw [Arguments.limitClause?, h.limit]
    rfl
  have hoffset : a.offsetClause? = none := by
    rw [Arguments.offsetClause?, h.offset]
    rfl
  have htext : (ofSelect schema a).text = joinClauses
      [some ("SELECT " ++ Text.quoteNames schema.names ++ " FROM " ++ Text.quoteName a.table),
        a.whereClause?, a.orderClause?, a.limitClause?, a.offsetClause?,
        if a.forUpdate then some "FOR UPDATE" else none] := rfl
  have hspace : " WHERE " = " " ++ "WHERE " := by decide
  rw [htext, hwhere, horder, hlimit, hoffset, h.forUpdate, joinClauses_cons, rowsText, hspace]
  simp only [clauseTail, String.append_assoc]
  rfl

/-- A selection by number is the query for the rows whose counting field is it. -/
theorem text_ofSelectById (schema : Schema) (table : String) (increment : Field) (id : UInt64) :
    (ofSelectById schema table increment id).text =
      rowsText schema table (Text.quoteName increment.name ++ " = " ++ toString id.toNat) := by
  have htext : (ofSelectById schema table increment id).text =
      "SELECT " ++ Text.quoteNames schema.names ++ " FROM " ++ Text.quoteName table ++ " WHERE " ++
        Text.quoteName increment.name ++ " = " ++ toString id.toNat := rfl
  simp only [htext, rowsText, String.append_assoc]

/-- The record as a query, written out column by column. -/
theorem projectionText_eq_zipWith (placed : List Placed) :
    projectionText placed = ", ".intercalate
      (List.zipWith (fun c l => l.text ++ " AS " ++ Text.quoteName c)
        (placed.map (·.field.name)) (placed.map (·.literal))) := by
  rw [projectionText, List.zipWith_map, List.zipWith_self]

/-- The text of a guarded insert in its parts. -/
theorem text_guardedInsert (table increment : String) (placed : List Placed)
    (conditions : List Predicate) :
    (guardedInsert table increment placed conditions).text =
      guardedText table increment (placed.map (·.field.name)) (placed.map (·.literal))
        (" AND ".intercalate (conditions.map Predicate.clause)) := by
  unfold guardedText
  rw [← projectionText_eq_zipWith]
  rfl

/-- The statement of a call that has conditions. -/
theorem ofGuardedInsert_of_conditions {schema : Schema} {args : Arguments}
    (hne : args.conditions ≠ []) (values : List Value) :
    ofGuardedInsert schema args values = match schema.increment? with
      | none => .error (.noIncrementField args.table)
      | some increment =>
        if Batch.placed schema values = [] then .error .noValueSpecified
        else .ok (guardedInsert args.table increment.name (Batch.placed schema values)
          args.conditions) := by
  unfold ofGuardedInsert Schema.increment
  cases hconditions : args.conditions with
  | nil => exact absurd hconditions hne
  | cons p ps =>
      cases schema.increment? with
      | none => rfl
      | some increment => cases Batch.placed schema values <;> rfl

/-- There is no guarded insert without a condition, else without a counting field,
else without a column to write; otherwise there is one. -/
theorem ofGuardedInsert_eq_error_iff {schema : Schema} {args : Arguments} {values : List Value}
    {e : Error} :
    ofGuardedInsert schema args values = .error e ↔
      args.conditions = [] ∧ e = .noConditionsGiven ∨
        ¬args.conditions = [] ∧ schema.increment? = none ∧ e = .noIncrementField args.table ∨
        ¬args.conditions = [] ∧ schema.increment? ≠ none ∧ Batch.placed schema values = [] ∧
          e = .noValueSpecified := by
  by_cases hne : args.conditions = []
  · have hthrows : ofGuardedInsert schema args values = .error .noConditionsGiven := by
      rw [ofGuardedInsert, hne]
      rfl
    rw [hthrows, Except.error.injEq]
    grind
  · rw [ofGuardedInsert_of_conditions hne]
    cases schema.increment? with
    | none =>
        dsimp only
        rw [Except.error.injEq]
        grind
    | some increment =>
        by_cases hplaced : Batch.placed schema values = []
        · dsimp only
          rw [if_pos hplaced, Except.error.injEq]
          grind
        · dsimp only
          rw [if_neg hplaced]
          grind

end Statement

/-- What is said around a guarded statement, and what comes of it: its table is
brought in line, then it is sent, and its reply decides what is behind it. -/
inductive Guarded {α : Type} (s : Settings) (schema : Schema) (options : TableOptions)
    (sql : String) (behind : ExecResult → List Exchange → Except Error α → Prop) :
    Shared → List Exchange → Except Error α → Shared → Prop
  | unready {sh sh' : Shared} {xs : List Exchange} {e : Error}
      (hensured : Ensured s schema options sh xs (.error e) sh') :
      Guarded s schema options sql behind sh xs (.error e) sh'
  | refused {sh sh' : Shared} {xs : List Exchange} {e : Error}
      (hensured : Ensured s schema options sh xs (.ok ()) sh') :
      Guarded s schema options sql behind sh (xs ++ [.exec sql (.error e)])
        (.error (e.withStatement sql)) sh'
  | answered {sh sh' : Shared} {xs ys : List Exchange} {result : ExecResult}
      {r : Except Error α} (hensured : Ensured s schema options sh xs (.ok ()) sh')
      (hys : behind result ys r) :
      Guarded s schema options sql behind sh (xs ++ .exec sql (.ok result) :: ys) r sh'

/-- What holds of a result in another form holds of the result. -/
theorem Guarded.of_map {α β : Type} {s : Settings} {schema : Schema} {options : TableOptions}
    {sql : String} {f : α → β} {behind : ExecResult → List Exchange → Except Error α → Prop}
    {behind' : ExecResult → List Exchange → Except Error β → Prop} {sh sh' : Shared}
    {xs : List Exchange} {r : Except Error α}
    (h : Guarded s schema options sql behind' sh xs (r.map f) sh')
    (hbehind : ∀ result ys r, behind' result ys (r.map f) → behind result ys r) :
    Guarded s schema options sql behind sh xs r sh' := by
  generalize hr' : r.map f = r' at h
  cases h with
  | unready hensured =>
      rw [map_eq_error.mp hr']
      exact .unready hensured
  | refused hensured =>
      rw [map_eq_error.mp hr']
      exact .refused hensured
  | answered hensured hys =>
      rw [← hr'] at hys
      exact .answered hensured (hbehind _ _ _ hys)

/-- Behind a guarded insert that also selects there is one query, and it gives the
result. -/
def ReadsBack {α : Type} (t : RecordType) (give : List (List Cell) → α)
    (next : ExecResult → String) (result : ExecResult) (ys : List Exchange)
    (r : Except Error α) : Prop :=
  ∃ reply, ys = [.query (next result) reply] ∧ r = (t.fetched (next result) reply).map give

/-- Behind a guarded insert that only writes there is nothing. -/
def GivesResult {α : Type} (give : ExecResult → α) (result : ExecResult) (ys : List Exchange)
    (r : Except Error α) : Prop :=
  ys = [] ∧ r = .ok (give result)

section Performing

variable {s : Settings} {t : RecordType} {d : Draft} {sh sh' : Shared} {xs : List Exchange}
  {record : List Cell}

/-- A guarded insert that asks for the record is guarded, and asks for it behind. -/
theorem Draft.Performs.guarded_selectOrInsert {r : Except Error (Outcome Effect)}
    (h : d.Performs s t (.selectOrInsert record) sh xs r sh')
    (hdry : d.args.options.dryRun = false) {increment : Field}
    (hincrement : d.schema.increment d.args.table = .ok increment) :
    Guarded s d.schema d.args.options d.st.text
      (ReadsBack t (fun records => .performed (.read records)) fun result =>
        (Facade.followUp d.schema d.args increment result).text) sh xs r sh' := by
  cases h with
  | shown hmark =>
      rw [hdry] at hmark
      cases hmark
  | unready _ _ hensured => exact .unready hensured
  | refused _ _ hensured => exact .refused hensured
  | readBack _ hensured hsome hnext =>
      rw [hincrement] at hsome
      cases hsome
      subst hnext
      exact .answered hensured ⟨_, rfl, rfl⟩

/-- A write is guarded, and its result is the outcome. -/
theorem Draft.Performs.guarded_write {w : Writing} {r : Except Error (Outcome Effect)}
    (h : d.Performs s t (.write w) sh xs r sh') (hdry : d.args.options.dryRun = false) :
    Guarded s d.schema d.args.options d.st.text
      (GivesResult fun result => .performed (.written result)) sh xs r sh' := by
  cases h with
  | shown hmark =>
      rw [hdry] at hmark
      cases hmark
  | unready _ _ hensured => exact .unready hensured
  | refused _ _ hensured => exact .refused hensured
  | written _ hensured => exact .answered hensured ⟨rfl, rfl⟩

/-- A dry run of any operation says nothing and shows its statement. -/
theorem Draft.Performs.eq_of_dry {task : Task} {r : Except Error (Outcome Effect)}
    (h : d.Performs s t task sh xs r sh') (hdry : d.args.options.dryRun = true) :
    xs = [] ∧ r = .ok (.statement d.st.text) ∧ sh' = sh := by
  cases h with
  | shown _ => exact ⟨rfl, rfl, rfl⟩
  | selected hnot | unready hnot _ _ | refused hnot _ _ | written hnot _ | readBack hnot _ _ _ =>
      rw [hdry] at hnot
      cases hnot

end Performing

/-- Different results stay different. -/
theorem Except.map_injective {ε α β : Type} {f : α → β} (hf : Function.Injective f) :
    Function.Injective (Except.map f : Except ε α → Except ε β) := by
  intro x y h
  cases x with
  | error e => exact (map_eq_error.mp h.symm).symm
  | ok a =>
      obtain ⟨b, rfl, hb⟩ := map_eq_ok.mp h.symm
      rw [hf hb]

/-- Different outcomes stay different. -/
theorem Outcome.map_injective {α β : Type} {f : α → β} (hf : Function.Injective f) :
    Function.Injective (Outcome.map f) := by
  intro x y h
  cases x with
  | performed a =>
      cases y with
      | performed b => rw [hf (Outcome.performed.inj h)]
      | statement sql => cases h
  | statement sql =>
      cases y with
      | performed b => cases h
      | statement sql' => rw [Outcome.statement.inj h]

/-- The text of the query behind a guarded insert. -/
theorem Facade.text_followUp (schema : Schema) {gathered : Arguments}
    (honly : gathered.OnlyConditions) (hne : gathered.conditions ≠ []) (increment : Field)
    (result : ExecResult) :
    (followUp schema gathered increment result).text =
      rowsText schema gathered.table
        (if 0 < result.affected ∧ 0 < result.lastId
          then Text.quoteName increment.name ++ " = " ++ toString result.lastId.toNat
          else gathered.predicateText) := by
  unfold followUp
  split
  · exact Statement.text_ofSelectById schema gathered.table increment result.lastId
  · exact Statement.text_ofSelect schema honly hne

section Operations

variable {s : Settings} {t : RecordType} {args : List Argument} {record : List Cell}
  {schema : Schema} {gathered : Arguments} {values : List Value} {st : Statement}
  {sh sh' : Shared} {xs : List Exchange}

/-- The conversations of an operation whose statement is a guarded insert: its draft is
performed. -/
theorem Task.performs_of_guarded (hprepared : prepared t .upsert args = .ok (schema, gathered))
    (hvalues : schema.values record = .ok values)
    (hst : Statement.ofGuardedInsert schema gathered values = .ok st) {task : Task}
    (hverb : task.verb = .upsert)
    (hstatement : task.statement schema gathered =
      schema.values record >>= Statement.ofGuardedInsert schema gathered)
    {r : Except Error (Outcome Effect)} (h : (task.session s t args).Converses sh xs r sh') :
    Draft.Performs s t ⟨schema, gathered, st⟩ task sh xs r sh' := by
  have hdraft : task.draft t args = .ok ⟨schema, gathered, st⟩ := by
    unfold draft
    rw [hverb, hprepared, ok_bind]
    dsimp only
    rw [hstatement, hvalues, ok_bind, hst]
    rfl
  rcases Task.converses_cases h with ⟨e, hrefused, _⟩ | ⟨d, hdrafted, hperforms⟩
  · rw [hdraft] at hrefused
    cases hrefused
  · rw [hdraft] at hdrafted
    cases hdrafted
    exact hperforms

/-- What is said of a call whose effect is given in another form: a dry run shows the
statement, and any other one is a conversation around it. -/
theorem Draft.Performs.guarded_of_map {α : Type} {f : α → Effect} (hf : Function.Injective f)
    {d : Draft} {task : Task} {r : Except Error (Outcome α)}
    (h : d.Performs s t task sh xs (r.map (Outcome.map f)) sh')
    {behind : ExecResult → List Exchange → Except Error (Outcome α) → Prop}
    {behind' : ExecResult → List Exchange → Except Error (Outcome Effect) → Prop}
    (hguarded : d.args.options.dryRun = false →
      Guarded s d.schema d.args.options d.st.text behind' sh xs (r.map (Outcome.map f)) sh')
    (hbehind : ∀ result ys r, behind' result ys (r.map (Outcome.map f)) → behind result ys r) :
    (d.args.options.dryRun = true →
        xs = [] ∧ r = .ok (.statement d.st.text) ∧ sh' = sh) ∧
      (d.args.options.dryRun = false →
        Guarded s d.schema d.args.options d.st.text behind sh xs r sh') := by
  refine ⟨?_, ?_⟩
  · intro hdry
    obtain ⟨hxs, hr, hsh⟩ := h.eq_of_dry hdry
    exact ⟨hxs, Except.map_injective (Outcome.map_injective hf) hr, hsh⟩
  · intro hdry
    exact (hguarded hdry).of_map hbehind

/-- What is said for a selection with a guarded insert. -/
theorem Facade.guarded_selectOrInsert
    (hprepared : prepared t .upsert args = .ok (schema, gathered))
    (hvalues : schema.values record = .ok values)
    (hst : Statement.ofGuardedInsert schema gathered values = .ok st) {increment : Field}
    (hincrement : schema.increment gathered.table = .ok increment)
    {r : Except Error (Outcome (List (List Cell)))}
    (h : (selectOrInsert s t record args).Converses sh xs r sh') :
    (gathered.options.dryRun = true → xs = [] ∧ r = .ok (.statement st.text) ∧ sh' = sh) ∧
      (gathered.options.dryRun = false → Guarded s schema gathered.options st.text
        (ReadsBack t .performed fun result => (followUp schema gathered increment result).text)
        sh xs r sh') := by
  have hinjective : Function.Injective Effect.read := fun _ _ => Effect.read.inj
  have hsession : (Task.session s t args (.selectOrInsert record)).Converses sh xs
      (r.map (Outcome.map .read)) sh' := by
    refine Session.converses_bind_done_iff.mpr ⟨r, h, ?_⟩
    cases r <;> rfl
  have hperforms := Task.performs_of_guarded hprepared hvalues hst rfl rfl hsession
  have hguarded := fun hdry => hperforms.guarded_selectOrInsert hdry hincrement
  refine hperforms.guarded_of_map hinjective hguarded ?_
  rintro result ys r ⟨reply, hys, hr⟩
  refine ⟨reply, hys, Except.map_injective (Outcome.map_injective hinjective) ?_⟩
  rw [hr]
  cases t.fetched (followUp schema gathered increment result).text reply <;> rfl

/-- What is said for a guarded insert alone. -/
theorem Facade.guarded_insertIfAbsent
    (hprepared : prepared t .upsert args = .ok (schema, gathered))
    (hvalues : schema.values record = .ok values)
    (hst : Statement.ofGuardedInsert schema gathered values = .ok st)
    {r : Except Error (Outcome ExecResult)}
    (h : (insertIfAbsent s t record args).Converses sh xs r sh') :
    (gathered.options.dryRun = true → xs = [] ∧ r = .ok (.statement st.text) ∧ sh' = sh) ∧
      (gathered.options.dryRun = false →
        Guarded s schema gathered.options st.text (GivesResult .performed) sh xs r sh') := by
  have hinjective : Function.Injective Effect.written := fun _ _ => Effect.written.inj
  have hsession : (Task.session s t args (.write (.insertIfAbsent record))).Converses sh xs
      (r.map (Outcome.map .written)) sh' := by
    refine Session.converses_bind_done_iff.mpr ⟨r, h, ?_⟩
    cases r <;> rfl
  have hperforms := Task.performs_of_guarded hprepared hvalues hst rfl rfl hsession
  refine hperforms.guarded_of_map hinjective hperforms.guarded_write ?_
  rintro result ys r ⟨hys, hr⟩
  exact ⟨hys, Except.map_injective (Outcome.map_injective hinjective) hr⟩

end Operations

/-- **A guarded insert has one predicate and one record.**  Whatever a plain insert of
the record would write, the guarded statement has the same columns in the same order,
and each literal under the name of its column.  There is no statement exactly where no
comparison compiles, else where no field counts up, else where a plain insert would
write no column.  Behind a statement that was executed, a selection sends one query:
for the row with the new number if there is one, and otherwise for the rows of the
predicate in the guard; the insert alone sends the same statement and no query. -/
theorem guardedInsert_agrees (s : Settings) {t : RecordType} {args : List Argument}
    {record : List Cell} {schema : Schema} {gathered : Arguments} {values : List Value}
    (hprepared : prepared t .upsert args = .ok (schema, gathered))
    (hvalues : schema.values record = .ok values) :
    ∃ columns literals, columns.length = literals.length ∧
      (∀ table, Statement.ofInsert schema table values =
        .insert table ⟨columns, [literals]⟩) ∧
      (∀ e, Statement.ofGuardedInsert schema gathered values = .error e ↔
        NoneCompiles schema args ∧ e = .noConditionsGiven ∨
          ¬NoneCompiles schema args ∧ schema.increment? = none ∧
            e = .noIncrementField gathered.table ∨
          ¬NoneCompiles schema args ∧ schema.increment? ≠ none ∧ columns = [] ∧
            e = .noValueSpecified) ∧
      ∀ st, Statement.ofGuardedInsert schema gathered values = .ok st →
        ∃ increment, schema.increment? = some increment ∧
          st.text = guardedText gathered.table increment.name columns literals
            gathered.predicateText ∧
          (∀ sh xs r sh', (Facade.selectOrInsert s t record args).Converses sh xs r sh' →
            (gathered.options.dryRun = true →
              xs = [] ∧ r = .ok (.statement st.text) ∧ sh' = sh) ∧
            (gathered.options.dryRun = false → Guarded s schema gathered.options st.text
              (ReadsBack t .performed fun result => rowsText schema gathered.table
                (if 0 < result.affected ∧ 0 < result.lastId
                  then Text.quoteName increment.name ++ " = " ++ toString result.lastId.toNat
                  else gathered.predicateText)) sh xs r sh')) ∧
          ∀ sh xs r sh', (Facade.insertIfAbsent s t record args).Converses sh xs r sh' →
            (gathered.options.dryRun = true →
              xs = [] ∧ r = .ok (.statement st.text) ∧ sh' = sh) ∧
            (gathered.options.dryRun = false → Guarded s schema gathered.options st.text
              (GivesResult .performed) sh xs r sh') := by
  have hgather := gather_of_prepared hprepared
  have hnone := Arguments.conditions_eq_nil_iff hgather
  refine ⟨(Batch.placed schema values).map (·.field.name),
    (Batch.placed schema values).map (·.literal), ?_, fun _ => rfl, ?_, ?_⟩
  · rw [List.length_map, List.length_map]
  · intro e
    rw [Statement.ofGuardedInsert_eq_error_iff, List.map_eq_nil_iff, hnone]
  · intro st hst
    obtain ⟨increment, hincrement, hne, _, heq⟩ := Statement.ofGuardedInsert_eq_ok hst
    have hcounting := Schema.increment_eq_ok_iff.mp hincrement
    have hfollows : (fun result => (Facade.followUp schema gathered increment result).text) =
        fun result => rowsText schema gathered.table
          (if 0 < result.affected ∧ 0 < result.lastId
            then Text.quoteName increment.name ++ " = " ++ toString result.lastId.toNat
            else gathered.predicateText) :=
      funext (Facade.text_followUp schema (Arguments.onlyConditions_gather hgather) hne increment)
    refine ⟨increment, hcounting, ?_, ?_, ?_⟩
    · rw [heq]
      exact Statement.text_guardedInsert _ _ _ _
    · intro sh xs r sh' h
      rw [← hfollows]
      exact Facade.guarded_selectOrInsert hprepared hvalues hst hincrement h
    · intro sh xs r sh' h
      exact Facade.guarded_insertIfAbsent hprepared hvalues hst h

/-- The accounts as a record type. -/
def accountType : RecordType where
  members :=
    [.column ⟨"id", ⟨.integer false .w64, false⟩, { increment := true }⟩,
      .column ⟨"name", ⟨.text, false⟩, { sqlType := some "varchar(32)" }⟩]
  options := { tableName := "accounts" }

/-- The condition that there is no Bob yet. -/
def namedBob : List Argument :=
  [.condition (.leaf ⟨"name", "=", .text "Bob"⟩)]

/-- The record of Bob, whose number is still to be given. -/
def bob : List Cell :=
  [.value (.unsigned 0), .value (.text "Bob")]

/-- A database in which the next number is five. -/
def fifthDatabase : Executor Unit where
  exec _ _ := (.ok { affected := 1, lastId := 5 }, ())
  query _ _ := (.ok [], ())

/-- Nothing has been said to the database yet. -/
def freshWorld : World Unit where
  state := ()

/-- Bob is inserted unless he is there, and read back. -/
def bobsInsertion : Session (Outcome (List (List Cell))) :=
  Facade.selectOrInsert {} accountType bob namedBob

/-- The insertion of Bob where he is missing: the row that is read back is the new one. -/
theorem guardedInsert_agrees_bob :
    ∃ gathered st, prepared accountType .upsert namedBob = .ok (accounts, gathered) ∧
      accounts.values bob = .ok [.unsigned 0, .text "Bob"] ∧
      Statement.ofGuardedInsert accounts gathered [.unsigned 0, .text "Bob"] = .ok st ∧
      Guarded {} accounts gathered.options st.text
        (ReadsBack accountType .performed fun result => rowsText accounts gathered.table
          (if 0 < result.affected ∧ 0 < result.lastId
            then "\x60id\x60" ++ " = " ++ toString result.lastId.toNat
            else gathered.predicateText))
        freshWorld.shared (bobsInsertion.exchanges fifthDatabase freshWorld)
        (bobsInsertion.run fifthDatabase freshWorld).1
        (bobsInsertion.run fifthDatabase freshWorld).2.shared ∧
      (bobsInsertion.run fifthDatabase freshWorld).2.calls =
        [.exec ("INSERT INTO \x60accounts\x60 (\x60name\x60) SELECT * FROM " ++
            "(SELECT 'Bob' AS \x60name\x60) AS tmp WHERE NOT EXISTS (SELECT \x60id\x60 FROM " ++
            "\x60accounts\x60 WHERE (\x60name\x60 = 'Bob')) LIMIT 1"),
          .query ("SELECT \x60id\x60, \x60name\x60 FROM \x60accounts\x60 " ++
            "WHERE \x60id\x60 = 5")] := by
  have hschema : accountType.schema = .ok accounts := by decide +kernel
  obtain ⟨gathered, hprepared⟩ : ∃ gathered,
      prepared accountType .upsert namedBob = .ok (accounts, gathered) := by
    unfold prepared
    rw [hschema]
    exact ⟨_, rfl⟩
  have hvalues : accounts.values bob = .ok [.unsigned 0, .text "Bob"] := rfl
  have hmade : (Statement.ofGuardedInsert accounts gathered
      [.unsigned 0, .text "Bob"]).toBool = true := by
    cases gather_of_prepared hprepared
    decide +kernel
  obtain ⟨st, hst⟩ : ∃ st, Statement.ofGuardedInsert accounts gathered
      [.unsigned 0, .text "Bob"] = .ok st := by
    cases hresult : Statement.ofGuardedInsert accounts gathered [.unsigned 0, .text "Bob"] with
    | error e =>
        rw [hresult] at hmade
        cases hmade
    | ok st => exact ⟨st, rfl⟩
  obtain ⟨_, _, _, _, _, hall⟩ := guardedInsert_agrees {} hprepared hvalues
  obtain ⟨increment, hincrement, _, hselects, _⟩ := hall _ hst
  have hdry : gathered.options.dryRun = false := by
    cases gather_of_prepared hprepared
    rfl
  cases hincrement
  refine ⟨gathered, st, hprepared, hvalues, hst, ?_, ?_⟩
  · have hsaid := Session.converses_run fifthDatabase bobsInsertion freshWorld
    exact (hselects _ _ _ _ hsaid).2 hdry
  · decide +kernel

end TableMapper
