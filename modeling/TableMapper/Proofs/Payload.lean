import TableMapper.Proofs.SetElements
import TableMapper.Statement

/-!
# Payloads

The parts of a call that come from outside and may hold any characters: texts,
the elements of lists of texts, and the name of the table.  `blank` replaces
each of them by a fixed text and keeps everything else, so that two calls
differ only in their payloads exactly when they are equal once blanked.

Making a statement and blanking commute: what a payload says decides neither
which statement is made nor whether one is made at all.

* `BuilderCall` — a call of one of the seven statement builders;
* `BuilderCall.blank` — the call with its payloads replaced;
* `BuilderCall.toOption_statement_blank` — the statement of a blanked call is the
  blanked statement.
-/

namespace TableMapper

/-- A list of as many elements; texts are replaced. -/
def ValueList.blank : ValueList → ValueList
  | .texts xs => .texts (xs.map fun _ => "")
  | xs => xs

/-- A value of the same kind; texts are replaced. -/
def Value.blank : Value → Value
  | .text _ => .text ""
  | .list xs => .list xs.blank
  | v => v

/-- The comparison with a blanked value. -/
def Criterion.blank (c : Criterion) : Criterion :=
  { c with value := c.value.blank }

mutual

/-- The tree with blanked comparisons. -/
def Condition.blank : Condition → Condition
  | .leaf c => .leaf c.blank
  | .all cs => .all (Condition.blankAll cs)
  | .any cs => .any (Condition.blankAll cs)

/-- Several trees with blanked comparisons. -/
def Condition.blankAll : List Condition → List Condition
  | [] => []
  | c :: cs => c.blank :: Condition.blankAll cs

end

/-- A name is replaced; no name stays none. -/
def blankName (name : String) : String :=
  if name.isEmpty then "" else "t"

/-- The options of a table of another name. -/
def TableOptions.blank (o : TableOptions) : TableOptions :=
  { o with tableName := blankName o.tableName }

/-- An argument with its payloads replaced. -/
def Argument.blank : Argument → Argument
  | .options o => .options o.blank
  | .condition c => .condition c.blank
  | arg => arg

/-- The assignment of a blanked value. -/
def Assignment.blank (a : Assignment) : Assignment :=
  { a with value := a.value.blank }

/-- A record with blanked values. -/
def blankRecord (record : List Value) : List Value :=
  record.map Value.blank

/-- What the arguments of a statement are gathered from. -/
structure Request where
  verb : Verb
  base : TableOptions
  args : List Argument

/-- The gathered arguments of a request. -/
def Request.gather (schema : Schema) (r : Request) : Except Error Arguments :=
  Arguments.gather schema r.base r.verb r.args

/-- The request with its payloads replaced. -/
def Request.blank (r : Request) : Request where
  verb := r.verb
  base := r.base.blank
  args := r.args.map Argument.blank

/-- A call of one of the statement builders. -/
inductive BuilderCall
  | select (r : Request)
  | delete (r : Request)
  | insert (table : String) (record : List Value)
  | insertMany (table : String) (records : List (List Value))
  | guardedInsert (r : Request) (record : List Value)
  | update (r : Request) (as : List Assignment)
  | upsert (table : String) (records : List (List Value)) (as : List Assignment)

namespace BuilderCall

/-- The statement that a call makes. -/
def statement (schema : Schema) : BuilderCall → Except Error Statement
  | select r => return .ofSelect schema (← r.gather schema)
  | delete r => return .delete (← r.gather schema)
  | insert table record => return .ofInsert schema table record
  | insertMany table records => Statement.ofInsertMany schema table records
  | guardedInsert r record => do Statement.ofGuardedInsert schema (← r.gather schema) record
  | update r as => do Statement.ofUpdate schema (← r.gather schema) as
  | upsert table records as => Statement.ofUpsert schema table records as

/-- The assignments of a call. -/
def assignments : BuilderCall → List Assignment
  | update _ as | upsert _ _ as => as
  | _ => []

/-- The call with its payloads replaced. -/
def blank : BuilderCall → BuilderCall
  | select r => select r.blank
  | delete r => delete r.blank
  | insert table record => insert (blankName table) (blankRecord record)
  | insertMany table records => insertMany (blankName table) (records.map blankRecord)
  | guardedInsert r record => guardedInsert r.blank (blankRecord record)
  | update r as => update r.blank (as.map Assignment.blank)
  | upsert table records as =>
    upsert (blankName table) (records.map blankRecord) (as.map Assignment.blank)

end BuilderCall

/-- A text is replaced, any other literal kept. -/
def Literal.blank : Literal → Literal
  | .quoted _ => .quoted ""
  | l => l

/-- The right side with its texts replaced. -/
def Operand.blank : Operand → Operand
  | .single l => .single l.blank
  | .set ls => .set (ls.map Literal.blank)
  | .pattern parts => .pattern (parts.map fun _ => "")

/-- The comparison with a blanked right side. -/
def Comparison.blank (c : Comparison) : Comparison :=
  { c with operand := c.operand.blank }

mutual

/-- The predicate with blanked comparisons. -/
def Predicate.blank : Predicate → Predicate
  | .leaf c => .leaf c.blank
  | .all ps => .all (Predicate.blankAll ps)
  | .any ps => .any (Predicate.blankAll ps)

/-- Several predicates with blanked comparisons. -/
def Predicate.blankAll : List Predicate → List Predicate
  | [] => []
  | p :: ps => p.blank :: Predicate.blankAll ps

end

/-- Gathered arguments with their payloads replaced. -/
def Arguments.blank (a : Arguments) : Arguments :=
  { a with options := a.options.blank, conditions := a.conditions.map Predicate.blank }

/-- A placed literal, blanked. -/
def Placed.blank (p : Placed) : Placed :=
  { p with literal := p.literal.blank }

/-- A batch with blanked rows. -/
def Batch.blank (b : Batch) : Batch :=
  { b with rows := b.rows.map fun row => row.map Literal.blank }

/-- An assignment with a blanked literal; statement text is no payload. -/
def Update.blank : Update → Update
  | .set column l => .set column l.blank
  | .raw column sql => .raw column sql

/-- The statement with its payloads replaced. -/
def Statement.blank : Statement → Statement
  | .select columns args => .select columns args.blank
  | .selectById columns table increment id => .selectById columns (blankName table) increment id
  | .insert table batch => .insert (blankName table) batch.blank
  | .guardedInsert table increment placed conditions =>
    .guardedInsert (blankName table) increment (placed.map Placed.blank)
      (conditions.map Predicate.blank)
  | .upsert table batch updates =>
    .upsert (blankName table) batch.blank (updates.map Update.blank)
  | .update updates args => .update (updates.map Update.blank) args.blank
  | .delete args => .delete args.blank

/-- Blanking a list of conditions blanks each of them. -/
theorem Condition.blankAll_eq_map (cs : List Condition) :
    Condition.blankAll cs = cs.map Condition.blank := by
  induction cs with
  | nil => rfl
  | cons c cs ih => rw [Condition.blankAll, ih, List.map_cons]

/-- Blanking a list of predicates blanks each of them. -/
theorem Predicate.blankAll_eq_map (ps : List Predicate) :
    Predicate.blankAll ps = ps.map Predicate.blank := by
  induction ps with
  | nil => rfl
  | cons p ps ih => rw [Predicate.blankAll, ih, List.map_cons]

/-- Whether a value has a literal, and which error there is if not, does not
depend on its payload. -/
theorem Value.literal_blank (column : String) (sqlType : Option String) (v : Value) :
    v.blank.literal column sqlType = (v.literal column sqlType).map Literal.blank := by
  cases v with
  | float x =>
      simp only [Value.blank, Value.literal]
      split <;> rfl
  | moment m =>
      cases sqlType with
      | none => rfl
      | some type =>
          simp only [Value.blank, Value.literal, Moment.literal]
          split <;> rfl
  | _ => rfl

/-- A blanked list has as many elements as before. -/
theorem ValueList.length_blank (xs : ValueList) : xs.blank.length = xs.length := by
  cases xs with
  | texts xs => simp [ValueList.blank, ValueList.length]
  | _ => rfl

/-- The elements of a blanked list are the blanked elements. -/
theorem ValueList.elements_blank (xs : ValueList) :
    xs.blank.elements = xs.elements.map Value.blank := by
  cases xs with
  | texts xs =>
      simp only [ValueList.blank, ValueList.elements, List.map_map]
      rfl
  | _ => simp [ValueList.blank, ValueList.elements, Value.blank]

/-- Blanking leaves the kind of a value as it is. -/
theorem Value.kind_blank (v : Value) : v.blank.kind = v.kind := by
  cases v <;> rfl

namespace Criterion

/-- The set of a membership test is built from a blanked value as from the value, up to
payloads. -/
theorem resolveSet_blank (column : String) (sqlType : Option String) (v : Value) :
    resolveSet column sqlType v.blank = (resolveSet column sqlType v).map Operand.blank := by
  cases v with
  | list xs =>
      by_cases hxs : xs.length = 0
      · rw [Value.blank, resolveSet, resolveSet, if_pos hxs,
          if_pos (xs.length_blank.trans hxs)]
        rfl
      · have hblank : xs.blank.length ≠ 0 := by rwa [xs.length_blank]
        rw [Value.blank, resolveSet_list column sqlType hblank,
          resolveSet_list column sqlType hxs, ValueList.elements_blank,
          mapM_comm (Value.literal_blank column sqlType)]
        cases xs.elements.mapM (Value.literal column sqlType) <;> rfl
  | _ => rfl

/-- The pattern of a text search is built from a blanked value as from the value, up to
payloads. -/
theorem resolvePattern_blank (column : String) (v : Value) :
    resolvePattern column v.blank = (resolvePattern column v).map Operand.blank := by
  cases v with
  | list xs =>
      cases xs with
      | texts parts => cases parts <;> rfl
      | _ => rfl
  | _ => rfl

/-- Whatever the operator, the operand of a comparison is built alike up to payloads. -/
theorem resolveOperand_blank (schema : Schema) (column : String) (op : Operator) (v : Value) :
    resolveOperand schema column op v.blank =
      (resolveOperand schema column op v).map Operand.blank := by
  have hsingle : (do return Operand.single (← v.blank.literal column (schema.sqlType? column))) =
      (do return Operand.single (← v.literal column (schema.sqlType? column)) :
        Except Error Operand).map Operand.blank := by
    rw [Value.literal_blank]
    cases v.literal column (schema.sqlType? column) <;> rfl
  cases op with
  | isIn => exact resolveSet_blank column (schema.sqlType? column) v
  | notIn => exact resolveSet_blank column (schema.sqlType? column) v
  | like => exact resolvePattern_blank column v
  | _ => exact hsingle

/-- Whether an operator becomes a test for NULL does not depend on the payload. -/
theorem settleOperator_blank (op : Operator) (v : Value) :
    settleOperator op v.blank = settleOperator op v := by
  cases v <;> simp [settleOperator, Value.blank]

/-- A criterion with its payload blanked resolves, or fails, as the criterion does. -/
theorem resolve_blank (schema : Schema) (c : Criterion) :
    c.blank.resolve schema = (c.resolve schema).map Comparison.blank := by
  have hcolumn : c.blank.column = c.column := rfl
  have hoperator : c.blank.operator = c.operator := rfl
  have hvalue : c.blank.value = c.value.blank := rfl
  unfold resolve
  rw [hcolumn, hoperator, hvalue]
  split
  · rfl
  · cases Operator.ofText c.operator with
    | error e => rfl
    | ok op =>
        rw [ok_bind, ok_bind, resolveOperand_blank, settleOperator_blank]
        cases resolveOperand schema c.column op c.value <;> rfl

end Criterion

mutual

/-- A blanked tree loses the same comparisons. -/
theorem Condition.resolve_blank (schema : Schema) :
    ∀ c : Condition, c.blank.resolve schema = (c.resolve schema).map Predicate.blank
  | .leaf c => by
      rw [Condition.blank, Condition.resolve, Condition.resolve, Criterion.resolve_blank]
      cases c.resolve schema <;> rfl
  | .all cs => by
      rw [Condition.blank, Condition.resolve, Condition.resolve, Condition.resolveAll_blank]
      cases Condition.resolveAll schema cs <;> rfl
  | .any cs => by
      rw [Condition.blank, Condition.resolve, Condition.resolve, Condition.resolveAll_blank]
      cases Condition.resolveAll schema cs <;> rfl

theorem Condition.resolveAll_blank (schema : Schema) :
    ∀ cs : List Condition, Condition.resolveAll schema (Condition.blankAll cs) =
      Predicate.blankAll (Condition.resolveAll schema cs)
  | [] => rfl
  | c :: cs => by
      rw [Condition.blankAll, Condition.resolveAll, Condition.resolveAll,
        Condition.resolve_blank schema c, Condition.resolveAll_blank schema cs]
      cases c.resolve schema <;> rfl

end

/-- Blanking a table name keeps whether there is one. -/
theorem blankName_isEmpty (name : String) : (blankName name).isEmpty = name.isEmpty := by
  unfold blankName
  split
  · rename_i h
    rw [h]
    rfl
  · rename_i h
    rw [Bool.eq_false_iff.mpr h]
    rfl

/-- Merging blanked options is blanking the merged ones. -/
theorem TableOptions.merge_blank (o p : TableOptions) :
    o.blank.merge p.blank = (o.merge p).blank := by
  simp only [merge, blank, blankName_isEmpty]
  split <;> rfl

/-- The check of options does not see the name of the table. -/
theorem TableOptions.check_blank (o : TableOptions) :
    o.blank.check = o.check.map TableOptions.blank := by
  have hname : o.blank.tableName.isEmpty = o.tableName.isEmpty := blankName_isEmpty _
  have hindexes : o.blank.indexes = o.indexes := rfl
  have huniques : o.blank.uniques = o.uniques := rfl
  unfold check settle
  rw [hname, hindexes, huniques]
  split_ifs
  · rfl
  · rcases Key.settleAll .index o.indexes with ⟨indexes, none | e⟩
    · rcases Key.settleAll .unique o.uniques with ⟨uniques, none | e⟩ <;> rfl
    · rfl

namespace Arguments

/-- Taking up one blanked argument is blanking what taking it up gives. -/
theorem add_blank (schema : Schema) (a : Arguments) (arg : Argument) :
    a.blank.add schema arg.blank = (a.add schema arg).blank := by
  cases arg with
  | options o => simp [add, blank, Argument.blank, TableOptions.merge_blank]
  | condition c =>
      simp only [add, blank, Argument.blank, Condition.resolve_blank, List.map_append]
      cases c.resolve schema <;> rfl
  | _ => rfl

/-- Blanking leaves the kind of an argument as it is. -/
theorem kind_blank (arg : Argument) : arg.blank.kind = arg.kind := by
  cases arg <;> rfl

/-- A list of arguments is taken up, or refused, alike when its payloads are blanked. -/
theorem addAll_blank (schema : Schema) (verb : Verb) (a : Arguments) (args : List Argument) :
    addAll schema verb a.blank (args.map Argument.blank) =
      (addAll schema verb a args).map Arguments.blank := by
  induction args generalizing a with
  | nil => rfl
  | cons arg args ih =>
      rw [List.map_cons, addAll, addAll, kind_blank, add_blank]
      split
      · exact ih (a.add schema arg)
      · rfl

/-- Gathering blanked arguments over blanked options gives the blanked arguments. -/
theorem gather_blank (schema : Schema) (base : TableOptions) (verb : Verb)
    (args : List Argument) :
    gather schema base.blank verb (args.map Argument.blank) =
      (gather schema base verb args).map Arguments.blank := by
  have hall := addAll_blank schema verb { options := base } args
  unfold gather
  change (addAll schema verb (blank { options := base }) _ >>= _) = _
  rw [hall]
  cases addAll schema verb { options := base } args with
  | error e => rfl
  | ok gathered =>
      have hcheck : gathered.blank.options.check = gathered.options.check.map TableOptions.blank :=
        gathered.options.check_blank
      simp only [Except.map, ok_bind, hcheck]
      cases gathered.options.check <;> rfl

end Arguments

/-- A blanked request is gathered as the request is. -/
theorem Request.gather_blank (schema : Schema) (r : Request) :
    r.blank.gather schema = (r.gather schema).map Arguments.blank :=
  Arguments.gather_blank schema r.base r.verb r.args

/-- The literal of a blanked value under a field is the blanked literal, and there is one
for both or for neither. -/
theorem Field.literal_blank (f : Field) (v : Value) :
    f.literal v.blank = (f.literal v).map Literal.blank :=
  v.literal_blank f.name (some f.sqlType)

namespace Batch

/-- The places that a record fills do not depend on the payloads of its values. -/
theorem placedFrom_blank (place : Nat) (fields : List Field) (record : List Value) :
    placedFrom place fields (blankRecord record) =
      (placedFrom place fields record).map Placed.blank := by
  induction fields generalizing place record with
  | nil => rfl
  | cons f fields ih =>
      cases record with
      | nil => rfl
      | cons v record =>
          have hrest := ih (place + 1) record
          have hcons : blankRecord (v :: record) = v.blank :: blankRecord record := rfl
          rw [hcons, placedFrom, placedFrom, Field.literal_blank, hrest]
          split
          · rfl
          · cases f.literal v <;> rfl

/-- A blanked record fills the places that the record fills. -/
theorem placed_blank (schema : Schema) (record : List Value) :
    placed schema (blankRecord record) = (placed schema record).map Placed.blank :=
  placedFrom_blank 0 schema.fields record

/-- A blanked record gives the blanked literal at every place. -/
theorem literalAt_blank (record : List Value) (p : Placed) :
    literalAt (blankRecord record) p.blank = (literalAt record p).map Literal.blank := by
  unfold literalAt blankRecord
  rw [List.getElem?_map]
  have hplace : p.blank.place = p.place := rfl
  rw [hplace]
  cases record[p.place]? with
  | none => rfl
  | some v => exact p.field.literal_blank v

/-- A row over given places is built from a blanked record as from the record. -/
theorem row_blank (ps : List Placed) (record : List Value) :
    row (ps.map Placed.blank) (blankRecord record) =
      (row ps record).map (List.map Literal.blank) :=
  mapM_comm (literalAt_blank record) ps

/-- Blanking keeps the column names of the places. -/
theorem names_blank (ps : List Placed) :
    (ps.map Placed.blank).map (·.field.name) = ps.map (·.field.name) := by
  rw [List.map_map]
  rfl

/-- The literals of blanked places are the blanked literals. -/
theorem literals_blank (ps : List Placed) :
    (ps.map Placed.blank).map (·.literal) = (ps.map (·.literal)).map Literal.blank := by
  rw [List.map_map, List.map_map]
  rfl

/-- The batch of one blanked record is its blanked batch. -/
theorem ofRecord_blank (schema : Schema) (record : List Value) :
    ofRecord schema (blankRecord record) = (ofRecord schema record).blank := by
  unfold ofRecord
  rw [placed_blank]
  simp only [names_blank, literals_blank]
  rfl

/-- Many blanked records make the blanked batch, or fail alike. -/
theorem ofRecords_blank (schema : Schema) (records : List (List Value)) :
    ofRecords schema (records.map blankRecord) =
      (ofRecords schema records).map Batch.blank := by
  cases records with
  | nil => rfl
  | cons first others =>
      rw [List.map_cons, ofRecords, ofRecords, placed_blank]
      simp only [names_blank, literals_blank]
      rw [mapM_comm (row_blank (placed schema first))]
      cases others.mapM (row (placed schema first)) <;> rfl

end Batch

namespace Assignment

/-- A blanked assignment resolves, or fails, as the assignment does. -/
theorem resolve_blank (schema : Schema) (a : Assignment) :
    a.blank.resolve schema = (a.resolve schema).map Update.blank := by
  have hcolumn : a.blank.column = a.column := rfl
  have hvalue : a.blank.value = a.value.blank := rfl
  unfold resolve
  rw [hcolumn, hvalue]
  cases schema.field? a.column with
  | none => rfl
  | some f =>
      have hset (v : Value) :
          (v.blank.literal a.column (some f.sqlType)).map (Update.set a.column) =
            ((v.literal a.column (some f.sqlType)).map (Update.set a.column)).map
              Update.blank := by
        rw [Value.literal_blank]
        cases v.literal a.column (some f.sqlType) <;> rfl
      cases hv : a.value with
      | raw sql => rfl
      | _ => exact hset _

/-- Blanking keeps which assignments are named. -/
theorem named_blank (as : List Assignment) :
    named (as.map Assignment.blank) = (named as).map Assignment.blank := by
  unfold named
  rw [List.filter_map]
  rfl

/-- A list of blanked assignments resolves, or fails, as the list does. -/
theorem resolveAll_blank (schema : Schema) (as : List Assignment) :
    resolveAll schema (as.map Assignment.blank) =
      (resolveAll schema as).map (List.map Update.blank) := by
  unfold resolveAll
  rw [named_blank, mapM_comm (resolve_blank schema)]
  cases (named as).mapM (resolve schema) with
  | error e => rfl
  | ok updates => cases updates <;> rfl

end Assignment

namespace Statement

/-- A multi-row insert of blanked records is the blanked insert. -/
theorem ofInsertMany_blank (schema : Schema) (table : String) (records : List (List Value)) :
    ofInsertMany schema (blankName table) (records.map blankRecord) =
      (ofInsertMany schema table records).map Statement.blank := by
  unfold ofInsertMany
  rw [Batch.ofRecords_blank]
  cases Batch.ofRecords schema records <;> rfl

/-- An upsert of blanked records and assignments is the blanked upsert. -/
theorem ofUpsert_blank (schema : Schema) (table : String) (records : List (List Value))
    (as : List Assignment) :
    ofUpsert schema (blankName table) (records.map blankRecord) (as.map Assignment.blank) =
      (ofUpsert schema table records as).map Statement.blank := by
  unfold ofUpsert
  rw [Batch.ofRecords_blank, Assignment.resolveAll_blank]
  cases Batch.ofRecords schema records with
  | error e => rfl
  | ok batch => cases Assignment.resolveAll schema as <;> rfl

/-- An update by blanked arguments and assignments is the blanked update. -/
theorem ofUpdate_blank (schema : Schema) (args : Arguments) (as : List Assignment) :
    ofUpdate schema args.blank (as.map Assignment.blank) =
      (ofUpdate schema args as).map Statement.blank := by
  unfold ofUpdate
  rw [Assignment.resolveAll_blank]
  cases Assignment.resolveAll schema as <;> rfl

/-- Only the error for a table without a counting field says which table it
was, so the two errors may differ. -/
theorem toOption_ofGuardedInsert_blank (schema : Schema) (args : Arguments)
    (record : List Value) :
    (ofGuardedInsert schema args.blank (blankRecord record)).toOption =
      (ofGuardedInsert schema args record).toOption.map Statement.blank := by
  have hconditions : args.blank.conditions = args.conditions.map Predicate.blank := rfl
  unfold ofGuardedInsert
  rw [hconditions, Batch.placed_blank]
  cases args.conditions with
  | nil => rfl
  | cons p ps =>
      unfold Schema.increment
      cases schema.increment? with
      | none => rfl
      | some increment => cases Batch.placed schema record <;> rfl

end Statement

/-- A blanked call makes the blanked statement, or none if the call makes
none. -/
theorem BuilderCall.toOption_statement_blank (schema : Schema) (c : BuilderCall) :
    (c.blank.statement schema).toOption = (c.statement schema).toOption.map Statement.blank := by
  cases c with
  | select r =>
      rw [blank, statement, statement, Request.gather_blank]
      cases r.gather schema <;> rfl
  | delete r =>
      rw [blank, statement, statement, Request.gather_blank]
      cases r.gather schema <;> rfl
  | insert table record =>
      rw [blank, statement, statement, Statement.ofInsert, Batch.ofRecord_blank]
      rfl
  | insertMany table records =>
      rw [blank, statement, statement, Statement.ofInsertMany_blank]
      cases Statement.ofInsertMany schema table records <;> rfl
  | guardedInsert r record =>
      rw [blank, statement, statement, Request.gather_blank]
      cases r.gather schema with
      | error e => rfl
      | ok args => exact Statement.toOption_ofGuardedInsert_blank schema args record
  | update r as =>
      rw [blank, statement, statement, Request.gather_blank]
      cases r.gather schema with
      | error e => rfl
      | ok args =>
          simp only [Except.map, ok_bind, Statement.ofUpdate_blank]
          cases Statement.ofUpdate schema args as <;> rfl
  | upsert table records as =>
      rw [blank, statement, statement, Statement.ofUpsert_blank]
      cases Statement.ofUpsert schema table records as <;> rfl

end TableMapper
