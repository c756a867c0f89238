import TableMapper.Literal
import TableMapper.Schema

/-!
# Assignments

What an update sets: columns, each with a value or with statement text that
stands behind its name as it is.

* `Assignment.resolve` — an assignment becomes an `Update`, whose text cannot
  fail;
* `Assignment.resolveAll` — a list of them; at least one must be left.
-/

namespace TableMapper

/-- A column and what to set it to. -/
structure Assignment where
  column : String
  value : Value
  deriving DecidableEq

/-- An assignment that can be written out. -/
inductive Update
  | set (column : String) (l : Literal)
  | raw (column sql : String)
  deriving DecidableEq

namespace Update

/-- The assignment as text. -/
def text : Update → String
  | set column l => Text.quoteName column ++ " = " ++ l.text
  | raw column sql => Text.quoteName column ++ " " ++ sql

/-- Assignments as text. -/
def textAll (us : List Update) : String :=
  ", ".intercalate (us.map text)

/-- What is logged when the assignment is made. -/
def events : Update → List Event
  | set _ l => l.events
  | raw _ _ => []

end Update

namespace Assignment

/-- The assignment to a field of the schema. -/
def resolve (schema : Schema) (a : Assignment) : Except Error Update :=
  match schema.field? a.column with
  | none => .error (.unrecognizedField a.column)
  | some f =>
    match a.value with
    | .raw sql => .ok (.raw a.column sql)
    | v => (v.literal a.column (some f.sqlType)).map (.set a.column)

/-- The assignments that name a column. -/
def named (as : List Assignment) : List Assignment :=
  as.filter fun a => !a.column.isEmpty

/-- The assignments of an update. Those without a column are left out; all
others must be possible, and there must be one. -/
def resolveAll (schema : Schema) (as : List Assignment) : Except Error (List Update) := do
  let updates ← (named as).mapM (resolve schema)
  if updates.isEmpty then throw .noValueSpecified
  return updates

/-- What is logged when assignments are resolved, up to the first that is not
possible. -/
def eventsOf (schema : Schema) : List Assignment → List Event
  | [] => []
  | a :: as =>
    match a.resolve schema with
    | .ok u => u.events ++ eventsOf schema as
    | .error _ => []

/-- What is logged when the assignments of an update are resolved. -/
def events (schema : Schema) (as : List Assignment) : List Event :=
  eventsOf schema (named as)

end Assignment

end TableMapper
