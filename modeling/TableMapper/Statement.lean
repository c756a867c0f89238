import TableMapper.Arguments
import TableMapper.Assignment
import TableMapper.Batch

/-!
# Statements

The statements that read and write the records of a table, as data: everything
that can fail has been decided when one exists.

* `Statement.select`, `Statement.insert`, … — what each consists of;
* `Statement.text` — the statement as it is sent;
* `Statement.ofInsertMany`, `Statement.ofGuardedInsert`, … — the statement of a
  call, or why there is none, and beside each what is logged on the way.
-/

namespace TableMapper

/-- A statement on the records of a table. -/
inductive Statement
  | select (columns : List String) (args : Arguments)
  | selectById (columns : List String) (table increment : String) (id : UInt64)
  | insert (table : String) (batch : Batch)
  /-- A record inserted unless a row satisfies the conditions. -/
  | guardedInsert (table increment : String) (placed : List Placed) (conditions : List Predicate)
  /-- Records inserted, and rows that stand in their way updated. -/
  | upsert (table : String) (batch : Batch) (updates : List Update)
  | update (updates : List Update) (args : Arguments)
  | delete (args : Arguments)

/-- The clauses that are there, with single spaces between them. -/
def joinClauses (clauses : List (Option String)) : String :=
  " ".intercalate (clauses.filterMap id)

/-- Literals in round brackets. -/
def tupleText (ls : List Literal) : String :=
  "(" ++ ", ".intercalate (ls.map Literal.text) ++ ")"

/-- Table, columns and rows of an insert. -/
def Batch.text (b : Batch) (table : String) : String :=
  "INSERT INTO " ++ Text.quoteName table ++ " (" ++ Text.quoteNames b.columns ++ ") VALUES " ++
    ", ".intercalate (b.rows.map tupleText)

/-- A record as a query without a table, each literal under its column's name. -/
def projectionText (placed : List Placed) : String :=
  ", ".intercalate (placed.map fun p => p.literal.text ++ " AS " ++ Text.quoteName p.field.name)

namespace Statement

/-- The statement as it is sent. -/
def text : Statement → String
  | select columns args =>
    joinClauses
      [some ("SELECT " ++ Text.quoteNames columns ++ " FROM " ++ Text.quoteName args.table),
        args.whereClause?, args.orderClause?, args.limitClause?, args.offsetClause?,
        if args.forUpdate then some "FOR UPDATE" else none]
  | selectById columns table increment id =>
    "SELECT " ++ Text.quoteNames columns ++ " FROM " ++ Text.quoteName table ++ " WHERE " ++
      Text.quoteName increment ++ " = " ++ toString id.toNat
  | insert table batch => batch.text table
  | guardedInsert table increment placed conditions =>
    "INSERT INTO " ++ Text.quoteName table ++ " (" ++
      Text.quoteNames (placed.map (·.field.name)) ++ ") SELECT * FROM (SELECT " ++
      projectionText placed ++ ") AS tmp WHERE NOT EXISTS (SELECT " ++
      Text.quoteName increment ++ " FROM " ++ Text.quoteName table ++ " WHERE " ++
      " AND ".intercalate (conditions.map Predicate.clause) ++ ") LIMIT 1"
  | upsert table batch updates =>
    batch.text table ++ " ON DUPLICATE KEY UPDATE " ++ Update.textAll updates
  | update updates args =>
    joinClauses
      [some ("UPDATE " ++ Text.quoteName args.table ++ " SET " ++ Update.textAll updates),
        args.whereClause?, args.orderClause?, args.limitClause?]
  | delete args =>
    joinClauses
      [some ("DELETE FROM " ++ Text.quoteName args.table),
        args.whereClause?, args.orderClause?, args.limitClause?]

/-- All columns of the rows that the arguments pick. -/
def ofSelect (schema : Schema) (args : Arguments) : Statement :=
  select schema.names args

/-- All columns of the row whose counting field is `id`. -/
def ofSelectById (schema : Schema) (table : String) (increment : Field) (id : UInt64) :
    Statement :=
  selectById schema.names table increment.name id

/-- One record inserted. -/
def ofInsert (schema : Schema) (table : String) (values : List Value) : Statement :=
  insert table (.ofRecord schema values)

/-- Several records inserted. -/
def ofInsertMany (schema : Schema) (table : String) (records : List (List Value)) :
    Except Error Statement := do
  return insert table (← Batch.ofRecords schema records)

/-- A record inserted unless a row satisfies the conditions: there must be a
condition, a field that counts up, and a column to write. -/
def ofGuardedInsert (schema : Schema) (args : Arguments) (values : List Value) :
    Except Error Statement := do
  if args.conditions.isEmpty then throw .noConditionsGiven
  let increment ← schema.increment args.table
  let placed := Batch.placed schema values
  if placed.isEmpty then throw .noValueSpecified
  return guardedInsert args.table increment.name placed args.conditions

/-- What is logged when a guarded insert is made: nothing unless its columns are
looked at. -/
def guardedInsertEvents (schema : Schema) (args : Arguments) (values : List Value) :
    List Event :=
  if args.conditions.isEmpty || schema.increment?.isNone then []
  else Batch.recordEvents schema.fields values

/-- Several records inserted, and rows that stand in their way updated. -/
def ofUpsert (schema : Schema) (table : String) (records : List (List Value))
    (as : List Assignment) : Except Error Statement := do
  let batch ← Batch.ofRecords schema records
  return upsert table batch (← Assignment.resolveAll schema as)

/-- What is logged when an upsert is made: the assignments come after the
records. -/
def upsertEvents (schema : Schema) (records : List (List Value)) (as : List Assignment) :
    List Event :=
  Batch.events schema records ++ (match Batch.ofRecords schema records with
    | .ok _ => Assignment.events schema as
    | .error _ => [])

/-- The rows that the arguments pick, updated. -/
def ofUpdate (schema : Schema) (args : Arguments) (as : List Assignment) :
    Except Error Statement := do
  return update (← Assignment.resolveAll schema as) args

end Statement

end TableMapper
