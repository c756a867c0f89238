import TableMapper.Moment

/-!
# Values

What a column of a record holds, what a condition compares with, and what a row
of a result carries: one of nine kinds of value.
-/

namespace TableMapper

/-- The kinds of value. -/
inductive ValueKind
  | null
  | int
  | unsigned
  | float
  | bool
  | text
  | moment
  | raw
  | list
  deriving DecidableEq, Repr

/-- The kind as error messages write it. -/
def ValueKind.name : ValueKind → String
  | .null => "null"
  | .int => "int"
  | .unsigned => "unsigned"
  | .float => "float"
  | .bool => "bool"
  | .text => "string"
  | .moment => "time"
  | .raw => "raw"
  | .list => "list"

/-- A list of values of one kind: the right side of `IN`, or the parts of a
`LIKE` pattern. -/
inductive ValueList
  | ints (xs : List Int64)
  | unsigneds (xs : List UInt64)
  | floats (xs : List Binary64)
  | texts (xs : List String)
  | moments (xs : List Moment)
  deriving DecidableEq

/-- A value. `raw` is statement text that only an assignment of an update may
hold. -/
inductive Value
  | null
  | int (n : Int64)
  | unsigned (n : UInt64)
  | float (x : Binary64)
  | bool (b : Bool)
  | text (s : String)
  | moment (m : Moment)
  | raw (sql : String)
  | list (xs : ValueList)
  deriving DecidableEq

/-- The number of elements. -/
def ValueList.length : ValueList → Nat
  | .ints xs => xs.length
  | .unsigneds xs => xs.length
  | .floats xs => xs.length
  | .texts xs => xs.length
  | .moments xs => xs.length

/-- The elements as values of their own. -/
def ValueList.elements : ValueList → List Value
  | .ints xs => xs.map .int
  | .unsigneds xs => xs.map .unsigned
  | .floats xs => xs.map .float
  | .texts xs => xs.map .text
  | .moments xs => xs.map .moment

/-- The kind of a value. -/
def Value.kind : Value → ValueKind
  | .null => .null
  | .int _ => .int
  | .unsigned _ => .unsigned
  | .float _ => .float
  | .bool _ => .bool
  | .text _ => .text
  | .moment _ => .moment
  | .raw _ => .raw
  | .list _ => .list

/-- Whether a value equals itself. All do that hold no not-a-number. -/
def Value.selfEqual : Value → Bool
  | .float x => x.equals x
  | .list (.floats xs) => xs.all fun x => x.equals x
  | _ => true

end TableMapper
