import TableMapper.Error

/-!
# Log events

What the library reports while it works: a value or a condition that it leaves
out, every statement sent to the database, a poll that failed.
-/

namespace TableMapper

/-- Severity of an event. -/
inductive Level
  | debug
  | info
  | warn
  deriving DecidableEq, Repr

/-- Something worth logging. -/
inductive Event
  /-- A moment was written as `NULL`, since its column's type is not temporal. -/
  | formlessMoment (sqlType : String)
  /-- A condition was left out of its tree. -/
  | droppedCondition (column operator : String) (error : Error)
  /-- A column was left out of an insert. -/
  | skippedColumn (column : String) (error : Error)
  /-- A statement without rows is about to be sent. -/
  | exec (sql : String)
  /-- A query is about to be sent. -/
  | query (sql : String)
  /-- A statement of a reconciliation is about to be sent. -/
  | reconciling (table sql : String)
  /-- A keep-alive poll failed. -/
  | pollFailed (error : Error)
  deriving DecidableEq, Repr

namespace Event

/-- The severity of an event. -/
def level : Event → Level
  | formlessMoment _ | pollFailed _ => .warn
  | reconciling _ _ => .info
  | _ => .debug

/-- The part of the library an event comes from. -/
def target : Event → String
  | formlessMoment _ => "myorm.value"
  | droppedCondition _ _ _ => "myorm.condition"
  | skippedColumn _ _ => "myorm.builder"
  | exec _ | query _ => "myorm.sql"
  | reconciling _ _ => "myorm.schema"
  | pollFailed _ => "myorm.keepalive"

/-- The wording of an event. -/
def message : Event → String
  | formlessMoment _ =>
    "temporal value for unrecognized column type, encoding as NULL"
  | droppedCondition _ _ _ => "dropping condition"
  | skippedColumn _ _ => "skipping column in INSERT"
  | exec _ => "exec"
  | query _ => "query"
  | reconciling _ _ => "reconciling table"
  | pollFailed _ => "keep-alive poll failed, stopping"

/-- The particulars of an event, by name. -/
def fields : Event → List (String × String)
  | formlessMoment sqlType => [("sql_type", sqlType)]
  | droppedCondition column operator error =>
    [("column", column), ("operator", operator), ("error", error.message)]
  | skippedColumn column error => [("column", column), ("error", error.message)]
  | exec sql | query sql => [("sql", sql)]
  | reconciling table sql => [("table", table), ("sql", sql)]
  | pollFailed error => [("error", error.message)]

end Event

end TableMapper
