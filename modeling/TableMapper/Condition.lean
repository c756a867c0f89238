import TableMapper.Literal
import TableMapper.Operator
import TableMapper.Schema

/-!
# Conditions

A condition is a tree of comparisons grouped by `AND` and `OR`.  A comparison is
resolved against a schema, which may fail; a tree keeps the comparisons that
could be resolved and the groups that have any of them left.

* `Criterion.resolve` — a comparison as it is asked for becomes a
  `Comparison`, whose text cannot fail;
* `Condition.resolve` — a tree becomes a `Predicate`, or nothing is left of it;
* `Condition.events` — what is logged on the way, in the order of the leaves;
* `Predicate.text`, `Predicate.clause` — a predicate inside another one, and
  on its own.
-/

namespace TableMapper

/-- A comparison as it is asked for: a column, an operator's spelling and a
value. -/
structure Criterion where
  column : String
  operator : String
  value : Value
  deriving DecidableEq

/-- A tree of comparisons. -/
inductive Condition
  | leaf (c : Criterion)
  | all (cs : List Condition)
  | any (cs : List Condition)

/-- The right side of a comparison. -/
inductive Operand
  /-- A single literal. -/
  | single (l : Literal)
  /-- The elements of a set. -/
  | set (ls : List Literal)
  /-- Texts with anything between them. -/
  | pattern (parts : List String)
  deriving DecidableEq

/-- A comparison that can be written out. -/
structure Comparison where
  column : String
  operator : Operator
  operand : Operand
  deriving DecidableEq

/-- What is left of a condition tree. -/
inductive Predicate
  | leaf (c : Comparison)
  | all (ps : List Predicate)
  | any (ps : List Predicate)

/-- The right side as text. -/
def Operand.text : Operand → String
  | .single l => l.text
  | .set ls => "(" ++ ", ".intercalate (ls.map Literal.text) ++ ")"
  | .pattern parts => Text.quotePattern parts

/-- What is logged when the right side is made. -/
def Operand.events : Operand → List Event
  | .single l => l.events
  | .set ls => ls.flatMap Literal.events
  | .pattern _ => []

/-- The comparison as text. -/
def Comparison.text (c : Comparison) : String :=
  Text.quoteName c.column ++ " " ++ c.operator.text ++ " " ++ c.operand.text

namespace Criterion

/-- The elements of the set that a value is. All must have a literal, and there
must be one. -/
def resolveSet (column : String) (sqlType : Option String) : Value → Except Error Operand
  | .list xs =>
    if xs.length = 0 then .error (.emptyInSet column)
    else (xs.literals column sqlType).map .set
  | v => .error (.unsupportedValueType column (.ofKind v.kind))

/-- The pattern that a value is: a text is used as it is, and texts in a list
are joined by anything. -/
def resolvePattern (column : String) : Value → Except Error Operand
  | .text s => .ok (.single (.quoted s))
  | .list (.texts (p :: ps)) => .ok (.pattern (p :: ps))
  | _ => .error (.invalidLikeValue column)

/-- The right side that a value is to an operator. -/
def resolveOperand (schema : Schema) (column : String) (op : Operator) (v : Value) :
    Except Error Operand :=
  match op with
  | .isIn | .notIn => resolveSet column (schema.sqlType? column) v
  | .like => resolvePattern column v
  | _ => return .single (← v.literal column (schema.sqlType? column))

/-- The operator to use with a value. -/
def settleOperator (op : Operator) (v : Value) : Operator :=
  if v = .null then op.forNull else op

/-- The comparison that is asked for. -/
def resolve (schema : Schema) (c : Criterion) : Except Error Comparison := do
  if c.column.isEmpty then throw .emptyColumnName
  let op ← Operator.ofText c.operator
  let operand ← resolveOperand schema c.column op c.value
  return { column := c.column, operator := settleOperator op c.value, operand }

/-- What is logged when a comparison is resolved on its own. -/
def events (schema : Schema) (c : Criterion) : List Event :=
  match c.resolve schema with
  | .ok comparison => comparison.operand.events
  | .error _ => []

/-- What is logged when a comparison is resolved in a tree, which leaves a
failing one out. -/
def treeEvents (schema : Schema) (c : Criterion) : List Event :=
  match c.resolve schema with
  | .ok comparison => comparison.operand.events
  | .error e => [.droppedCondition c.column c.operator e]

end Criterion

namespace Condition

/-- A group of what is left, if anything is. -/
def group (make : List Predicate → Predicate) : List Predicate → Option Predicate
  | [] => none
  | ps => some (make ps)

mutual

/-- What is left of a tree. -/
def resolve (schema : Schema) : Condition → Option Predicate
  | leaf c => (c.resolve schema).toOption.map .leaf
  | all cs => group .all (resolveAll schema cs)
  | any cs => group .any (resolveAll schema cs)

/-- What is left of each of several trees. -/
def resolveAll (schema : Schema) : List Condition → List Predicate
  | [] => []
  | c :: cs =>
    match c.resolve schema with
    | some p => p :: resolveAll schema cs
    | none => resolveAll schema cs

end

mutual

/-- What is logged when a tree is resolved. -/
def events (schema : Schema) : Condition → List Event
  | leaf c => c.treeEvents schema
  | all cs => eventsAll schema cs
  | any cs => eventsAll schema cs

/-- What is logged when several trees are resolved. -/
def eventsAll (schema : Schema) : List Condition → List Event
  | [] => []
  | c :: cs => c.events schema ++ eventsAll schema cs

end

end Condition

namespace Predicate

mutual

/-- The predicate inside another one. A group has brackets, a comparison has
none. -/
def text : Predicate → String
  | leaf c => c.text
  | all ps => "(" ++ " AND ".intercalate (texts ps) ++ ")"
  | any ps => "(" ++ " OR ".intercalate (texts ps) ++ ")"

/-- The texts of several predicates. -/
def texts : List Predicate → List String
  | [] => []
  | p :: ps => p.text :: texts ps

end

/-- The predicate on its own, always in brackets. -/
def clause : Predicate → String
  | leaf c => "(" ++ c.text ++ ")"
  | p => p.text

end Predicate

end TableMapper
