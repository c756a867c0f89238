import TableMapper.Condition
import TableMapper.OrderItem
import TableMapper.TableOptions

/-!
# Arguments

A statement is called with a list of arguments.  They are gathered on top of
the options of the record type: conditions and orderings add up, everything
else is replaced by what comes later.

* `Arguments.gather` — the arguments of a call, or the first that its verb does
  not take;
* `Arguments.events` — what is logged on the way.
-/

namespace TableMapper

/-- An argument of a statement. -/
inductive Argument
  | options (o : TableOptions)
  | limit (n : UInt64)
  | offset (n : UInt64)
  | condition (c : Condition)
  | order (o : OrderItem)
  | forUpdate

/-- The kind of an argument. -/
def Argument.kind : Argument → ArgumentKind
  | .options _ => .options
  | .limit _ => .limit
  | .offset _ => .offset
  | .condition _ => .condition
  | .order _ => .order
  | .forUpdate => .forUpdate

/-- The arguments of a call, gathered. -/
structure Arguments where
  options : TableOptions
  limit : Option UInt64 := none
  offset : Option UInt64 := none
  conditions : List Predicate := []
  orders : List OrderItem := []
  forUpdate : Bool := false

namespace Arguments

/-- A number of rows; zero means that none is given. -/
def count? (n : UInt64) : Option UInt64 :=
  if n = 0 then none else some n

/-- Arguments with one more. A condition of which nothing is left and an
ordering without a column add nothing. -/
def add (schema : Schema) (a : Arguments) : Argument → Arguments
  | .options o => { a with options := a.options.merge o }
  | .limit n => { a with limit := count? n }
  | .offset n => { a with offset := count? n }
  | .condition c => { a with conditions := a.conditions ++ (c.resolve schema).toList }
  | .order o => { a with orders := a.orders ++ (if o.column.isEmpty then [] else [o]) }
  | .forUpdate => { a with forUpdate := true }

/-- Arguments with several more, each of which the verb must take. -/
def addAll (schema : Schema) (verb : Verb) (a : Arguments) :
    List Argument → Except Error Arguments
  | [] => .ok a
  | arg :: args =>
    if verb.accepts arg.kind then addAll schema verb (a.add schema arg) args
    else .error (.unsupportedArgument verb arg.kind)

/-- The arguments of a call on a record type with the options `base`. -/
def gather (schema : Schema) (base : TableOptions) (verb : Verb) (args : List Argument) :
    Except Error Arguments := do
  let gathered ← addAll schema verb { options := base } args
  return { gathered with options := ← gathered.options.check }

/-- What is logged when arguments are gathered, up to the first that the verb
does not take. -/
def events (schema : Schema) (verb : Verb) (args : List Argument) : List Event :=
  (args.takeWhile fun arg => verb.accepts arg.kind).flatMap fun
    | .condition c => c.events schema
    | _ => []

/-- The name of the table. -/
def table (a : Arguments) : String :=
  a.options.tableName

/-- The conditions joined by `AND`. -/
def predicateText (a : Arguments) : String :=
  " AND ".intercalate (a.conditions.map Predicate.clause)

/-- The clause of the conditions, if there are any. -/
def whereClause? (a : Arguments) : Option String :=
  if a.conditions.isEmpty then none else some ("WHERE " ++ a.predicateText)

/-- The clause of the orderings, if there are any. -/
def orderClause? (a : Arguments) : Option String :=
  if a.orders.isEmpty then none
  else some ("ORDER BY " ++ ", ".intercalate (a.orders.map OrderItem.text))

/-- The clause of the limit, if there is one. -/
def limitClause? (a : Arguments) : Option String :=
  a.limit.map fun n => "LIMIT " ++ toString n.toNat

/-- The clause of the offset, if there is one. -/
def offsetClause? (a : Arguments) : Option String :=
  a.offset.map fun n => "OFFSET " ++ toString n.toNat

end Arguments

end TableMapper
