import TableMapper.Reconcile.Plan
import TableMapper.Session
import TableMapper.Settings
import TableMapper.Statement

/-!
# The facade

The operations on the records of a table.  Each one makes its statement before it
sends anything; on a dry run the statement is the result.  Where tables are
created automatically, a write first brings the table in line with the record
type, unless it is known to exist.

* `Facade.select`, `Facade.insert`, … — the operations on records;
* `Facade.plan`, `Facade.createTable` — the operations on the table itself;
* `Facade.readFields`, `Facade.readKeys` — what the database says about a table.
-/

namespace TableMapper

/-- The result of an operation: what it did, or the statement that it would have
sent. -/
inductive Outcome (α : Type)
  | performed (a : α)
  | statement (sql : String)
  deriving DecidableEq, Repr

namespace Facade

open Session (logAll)

/-- A statement without rows, logged and sent; a failure remembers it. -/
def send (s : Settings) (sql : String) : Session ExecResult :=
  .log (.exec (s.shown sql)) (.exec sql fun reply => .done (reply.mapError (·.withStatement sql)))

/-- A query, logged and sent; a failure remembers it. -/
def ask (s : Settings) (sql : String) : Session (List Row) :=
  .log (.query (s.shown sql)) (.query sql fun reply => .done (reply.mapError (·.withStatement sql)))

/-- Schema and gathered arguments of a call. -/
def prepare (t : RecordType) (verb : Verb) (args : List Argument) :
    Session (Schema × Arguments) := do
  let schema ← .done t.schema
  logAll (Arguments.events schema verb args)
  let args ← .done (Arguments.gather schema t.options verb args)
  return (schema, args)

/-- The columns of an existing table. -/
def readFields (s : Settings) (table : String) : Session (List Field) := do
  .done (Live.fields (← ask s (Live.describeText table)))

/-- The keys of an existing table. -/
def readKeys (s : Settings) (table : String) : Session LiveKeys := do
  .done (Live.keys (← ask s (Live.showIndexText table)))

/-- A table as it exists, if it does. One without columns does not. -/
def liveTable (s : Settings) (table : String) : Session (Option LiveTable) :=
  (readFields s table).andThen fun
    | .error e => if e.isTableMissing then pure none else .done (.error e)
    | .ok [] => pure none
    | .ok fields => do return some ⟨fields, ← readKeys s table⟩

/-- What has to be done about a table. -/
def planFor (s : Settings) (schema : Schema) (options : TableOptions) : Session SchemaPlan := do
  .done (SchemaPlan.make schema options s.defaults (← liveTable s options.tableName))

/-- Changes of a table sent in order, up to the first that fails. -/
def apply (s : Settings) (table : String) : List TableChange → Session Unit
  | [] => pure ()
  | c :: cs => .log (.reconciling table c.text) do
    let _ ← send s c.text
    apply s table cs

/-- A table brought in line with its schema; from then on it is known to exist. -/
def reconcile (s : Settings) (schema : Schema) (options : TableOptions) : Session SchemaPlan := do
  let plan ← planFor s schema options
  apply s options.tableName plan.changes
  .markCreated options.tableName (pure plan)

/-- A table brought in line before a write, where this is wanted and it is not
known to exist. -/
def ensureTable (s : Settings) (schema : Schema) (options : TableOptions) : Session Unit :=
  .autoCreate fun wanted => .isCreated options.tableName fun known =>
    if wanted && !known then do
      let _ ← reconcile s schema options
    else pure ()

/-- The plan for the table of a record type; nothing is changed. -/
def plan (s : Settings) (t : RecordType) (args : List Argument) : Session SchemaPlan := do
  let (schema, args) ← prepare t .insert args
  planFor s schema args.options

/-- The table of a record type created or altered; on a dry run only planned. -/
def createTable (s : Settings) (t : RecordType) (args : List Argument) : Session SchemaPlan := do
  let (schema, args) ← prepare t .insert args
  if args.options.dryRun then planFor s schema args.options
  else reconcile s schema args.options

/-- A writing statement: returned on a dry run, or else sent once the table is
in line. -/
def write (s : Settings) (schema : Schema) (options : TableOptions) (st : Statement) :
    Session (Outcome ExecResult) :=
  if options.dryRun then pure (.statement st.text)
  else do
    ensureTable s schema options
    return .performed (← send s st.text)

/-- The records that a query gives. -/
def fetch (s : Settings) (t : RecordType) (st : Statement) : Session (List (List Cell)) := do
  .done ((← ask s st.text).mapM t.read)

/-- The records that the arguments pick. -/
def select (s : Settings) (t : RecordType) (args : List Argument) :
    Session (Outcome (List (List Cell))) := do
  let (schema, args) ← prepare t .select args
  let st := Statement.ofSelect schema args
  if args.options.dryRun then return .statement st.text
  return .performed (← fetch s t st)

/-- One record inserted. -/
def insert (s : Settings) (t : RecordType) (record : List Cell) (args : List Argument) :
    Session (Outcome ExecResult) := do
  let (schema, args) ← prepare t .insert args
  let values ← .done (schema.values record)
  logAll (Batch.recordEvents schema.fields values)
  write s schema args.options (.ofInsert schema args.table values)

/-- Several records inserted. -/
def insertMany (s : Settings) (t : RecordType) (records : List (List Cell))
    (args : List Argument) : Session (Outcome ExecResult) := do
  let (schema, args) ← prepare t .insert args
  let records ← .done (records.mapM schema.values)
  logAll (Batch.events schema records)
  write s schema args.options (← .done (Statement.ofInsertMany schema args.table records))

/-- The rows that the arguments pick, updated. -/
def update (s : Settings) (t : RecordType) (as : List Assignment) (args : List Argument) :
    Session (Outcome ExecResult) := do
  let (schema, args) ← prepare t .update args
  logAll (Assignment.events schema as)
  write s schema args.options (← .done (Statement.ofUpdate schema args as))

/-- The rows that the arguments pick, deleted. -/
def delete (s : Settings) (t : RecordType) (args : List Argument) :
    Session (Outcome ExecResult) := do
  let (schema, args) ← prepare t .delete args
  write s schema args.options (.delete args)

/-- Schema, arguments and statement of a guarded insert. -/
def prepareGuarded (t : RecordType) (record : List Cell) (args : List Argument) :
    Session (Schema × Arguments × Statement) := do
  let (schema, args) ← prepare t .upsert args
  let values ← .done (schema.values record)
  logAll (Statement.guardedInsertEvents schema args values)
  let st ← .done (Statement.ofGuardedInsert schema args values)
  return (schema, args, st)

/-- The query behind a guarded insert: the new row by its number, or else the
rows that the conditions pick. -/
def followUp (schema : Schema) (args : Arguments) (increment : Field) (r : ExecResult) :
    Statement :=
  if 0 < r.affected ∧ 0 < r.lastId then .ofSelectById schema args.table increment r.lastId
  else .ofSelect schema args

/-- A record inserted unless a row satisfies the conditions, and then the records
that are there. -/
def selectOrInsert (s : Settings) (t : RecordType) (record : List Cell)
    (args : List Argument) : Session (Outcome (List (List Cell))) := do
  let (schema, args, st) ← prepareGuarded t record args
  if args.options.dryRun then return .statement st.text
  ensureTable s schema args.options
  let result ← send s st.text
  let increment ← .done (schema.increment args.table)
  return .performed (← fetch s t (followUp schema args increment result))

/-- A record inserted unless a row satisfies the conditions. -/
def insertIfAbsent (s : Settings) (t : RecordType) (record : List Cell)
    (args : List Argument) : Session (Outcome ExecResult) := do
  let (schema, args, st) ← prepareGuarded t record args
  write s schema args.options st

/-- Several records inserted, and rows that stand in their way updated. -/
def upsertMany (s : Settings) (t : RecordType) (records : List (List Cell))
    (as : List Assignment) (args : List Argument) : Session (Outcome ExecResult) := do
  let (schema, args) ← prepare t .insert args
  let records ← .done (records.mapM schema.values)
  logAll (Statement.upsertEvents schema records as)
  write s schema args.options (← .done (Statement.ofUpsert schema args.table records as))

/-- One record inserted, and a row that stands in its way updated. -/
def upsert (s : Settings) (t : RecordType) (record : List Cell) (as : List Assignment)
    (args : List Argument) : Session (Outcome ExecResult) :=
  upsertMany s t [record] as args

/-- The quoted columns and the literals that an insert of a record would write. -/
def insertFields (t : RecordType) (record : List Cell) :
    Session (List String × List String) := do
  let schema ← .done t.schema
  let values ← .done (schema.values record)
  logAll (Batch.recordEvents schema.fields values)
  let placed := Batch.placed schema values
  return (placed.map (Text.quoteName ·.field.name), placed.map (·.literal.text))

/-- The first row of a query that must have one. -/
def firstRow (rows : List Row) : Except Error Row :=
  match rows with
  | row :: _ => .ok row
  | [] => .error (.notFound "Expected one row, got none")

/-- The database that the connection is in, if it is in one. -/
def currentDatabase (s : Settings) : Session (Option String) := do
  let row ← .done (firstRow (← ask s "SELECT DATABASE() AS \x60db\x60"))
  .done (row.readText? "db")

end Facade

end TableMapper
