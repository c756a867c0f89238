import TableMapper.Event
import TableMapper.TemporalType
import TableMapper.Text.Quoted

/-!
# Literals

A value enters a statement as a literal.  What may stand there is a type of its
own, so that a statement can be looked at before it is written out.

* `Value.literal`, `ValueList.literals` — the literal of a value in a column of a
  given type, and those of the elements of a set, or why there is none;
* `Literal.text` — the text of a literal;
* `Literal.events` — what is logged when it is made.
-/

namespace TableMapper

/-- A value as it stands in a statement. `formless` is a moment in a column
whose declared type is not temporal: it is written as `NULL`. -/
inductive Literal
  | null
  | integer (n : Int)
  | fixed (x : Binary64)
  | truth (b : Bool)
  | quoted (s : String)
  | temporal (type : TemporalType) (m : Moment)
  | formless (sqlType : String)
  deriving DecidableEq

/-- A truth value as a literal. -/
def truthText (b : Bool) : String :=
  if b then "TRUE" else "FALSE"

/-- The literal as text. -/
def Literal.text : Literal → String
  | .null => "NULL"
  | .integer n => toString n
  | .fixed x => x.fixedSix
  | .truth b => truthText b
  | .quoted s => Text.quote s
  | .temporal type m => "'" ++ type.text m ++ "'"
  | .formless _ => "NULL"

/-- What is logged when the literal is made. -/
def Literal.events : Literal → List Event
  | .formless sqlType => [.formlessMoment sqlType]
  | _ => []

/-- The literal of a moment in a column of type `sqlType`. -/
def Moment.literal (m : Moment) (sqlType : String) : Literal :=
  match TemporalType.ofSqlType? sqlType with
  | some type => .temporal type m
  | none => .formless sqlType

/-- The literal of a single value in a column; `sqlType` is the declared type,
without which a moment has none. Statement text and lists have none either. -/
def Value.literal (column : String) (sqlType : Option String) : Value → Except Error Literal
  | .null => .ok .null
  | .int n => .ok (.integer n.toInt)
  | .unsigned n => .ok (.integer n.toNat)
  | .float x =>
    if x.isFinite then .ok (.fixed x)
    else .error (.unsupportedValueType column .nonFinite)
  | .bool b => .ok (.truth b)
  | .text s => .ok (.quoted s)
  | .moment m =>
    match sqlType with
    | some type => .ok (m.literal type)
    | none => .error (.unknownColumn column)
  | .raw _ => .error (.unsupportedValueType column (.ofKind .raw))
  | .list _ => .error (.unsupportedValueType column (.ofKind .list))

/-- The literals of the elements of a set. Elements are of one kind, so that they
are looked at together: one number that is not finite refuses all numbers, and a
missing type all moments. -/
def ValueList.literals (column : String) (sqlType : Option String) :
    ValueList → Except Error (List Literal)
  | .ints ns => .ok (ns.map fun n => .integer n.toInt)
  | .unsigneds ns => .ok (ns.map fun n => .integer n.toNat)
  | .floats xs =>
    if xs.any fun x => !x.isFinite then .error (.unsupportedValueType column .nonFinite)
    else .ok (xs.map .fixed)
  | .texts ss => .ok (ss.map .quoted)
  | .moments ms =>
    match sqlType with
    | some type => .ok (ms.map (·.literal type))
    | none => .error (.unknownColumn column)

end TableMapper
