import TableMapper.Error

/-!
# Storage

How a record holds the value of a column: as an integer of some width, a
floating point number of single or double precision, a truth value, a text or
a moment, perhaps with the possibility of holding nothing.

* `Scalar.category`, `Scalar.defaultType` — what a column of that storage is
  declared as when nothing else is said;
* `Storage.decode` — what such a column takes from a result row.
-/

namespace TableMapper

/-- Widths of integers. -/
inductive Width
  | w8
  | w16
  | w32
  | w64
  deriving DecidableEq, Repr

/-- The number of bits. -/
def Width.bits : Width → Nat
  | .w8 => 8
  | .w16 => 16
  | .w32 => 32
  | .w64 => 64

/-- What a column holds when it holds something. -/
inductive Scalar
  | integer (signed : Bool) (width : Width)
  | float (single : Bool)
  | bool
  | text
  | moment
  deriving DecidableEq, Repr

/-- The families of scalars that share their default literals. -/
inductive Category
  | integer
  | float
  | bool
  | text
  | moment
  deriving DecidableEq, Repr

/-- What a column holds; an optional one may hold nothing. -/
structure Storage where
  scalar : Scalar
  optional : Bool
  deriving DecidableEq, Repr

namespace Scalar

/-- The family of a scalar. -/
def category : Scalar → Category
  | integer _ _ => .integer
  | float _ => .float
  | bool => .bool
  | text => .text
  | moment => .moment

/-- The column type used when none is declared. Texts and floating point
numbers have none. -/
def defaultType : Scalar → Option String
  | integer true .w8 => some "tinyint"
  | integer false .w8 => some "tinyint unsigned"
  | integer true .w16 => some "smallint"
  | integer false .w16 => some "smallint unsigned"
  | integer true .w32 => some "int"
  | integer false .w32 => some "int unsigned"
  | integer true .w64 => some "bigint"
  | integer false .w64 => some "bigint unsigned"
  | bool => some "boolean"
  | moment => some "datetime"
  | float _ | text => none

/-- The scalar as error messages write it. -/
def name : Scalar → String
  | integer signed width => (if signed then "i" else "u") ++ toString width.bits
  | float single => if single then "f32" else "f64"
  | bool => "bool"
  | text => "string"
  | moment => "datetime"

/-- Whether an integer is within a width. -/
def inRange (signed : Bool) (width : Width) (n : Int) : Bool :=
  if signed then -(twoTo (width.bits - 1) : Int) ≤ n && n < twoTo (width.bits - 1)
  else 0 ≤ n && n < twoTo width.bits

/-- An integer in text: an optional sign and at least one digit. Only a signed
column reads a minus. -/
def readInteger? (signed : Bool) (cs : List Char) : Option Int :=
  let (negative, ds) := match cs with
    | '-' :: ds => if signed then (true, ds) else (false, '-' :: ds)
    | '+' :: ds => (false, ds)
    | ds => (false, ds)
  if ds.isEmpty || !ds.all Char.isDigit then none
  else some (if negative then -(digitsValue ds : Int) else digitsValue ds)

/-- The integer that a value stands for, if it stands for one. -/
def integer? (signed : Bool) : Value → Option Int
  | .int n => some n.toInt
  | .unsigned n => some n.toNat
  | .bool b => some (if b then 1 else 0)
  | .text s => readInteger? signed (Text.trimChars s.toList)
  | _ => none

/-- An integer as a column of the given sign holds it. -/
def integerValue (signed : Bool) (n : Int) : Value :=
  if signed then .int (Int64.ofInt n) else .unsigned (UInt64.ofNat n.toNat)

/-- The precision of a floating point column. -/
def format (single : Bool) : Format :=
  if single then .single else .double

/-- The floating point number that a value stands for, if it stands for one. -/
def float? (single : Bool) : Value → Option Binary64
  | .float x => some (x.toFormat (format single))
  | .int n => some (.ofInt (format single) n.toInt)
  | .unsigned n => some (.ofInt (format single) n.toNat)
  | .text s => Binary64.read? (format single) (Text.trimChars s.toList)
  | _ => none

/-- The truth value that a value stands for, if it stands for one. -/
def bool? : Value → Option Bool
  | .bool b => some b
  | .int n => some (n != 0)
  | .unsigned n => some (n != 0)
  | .text s =>
    let word := Text.trim s
    if word = "1" || word = "true" || word = "TRUE" then some true
    else if word = "0" || word = "false" || word = "FALSE" then some false
    else none
  | _ => none

/-- The text that a value stands for, if it stands for one. -/
def text? : Value → Option String
  | .text s => some s
  | .int n => some (toString n.toInt)
  | .unsigned n => some (toString n.toNat)
  | _ => none

/-- The moment that a value stands for, if it stands for one. -/
def moment? : Value → Option Moment
  | .moment m => some m
  | .text s => Moment.read? s
  | _ => none

/-- What a scalar takes from a value. -/
def take? : Scalar → Value → Option Value
  | integer signed width, v =>
    ((integer? signed v).filter (inRange signed width)).map (integerValue signed)
  | float single, v => (float? single v).map .float
  | bool, v => (bool? v).map .bool
  | text, v => (text? v).map .text
  | moment, v => (moment? v).map .moment

/-- What a column of this scalar takes from a result row. -/
def decode (s : Scalar) (column : String) (v : Value) : Except Error Value :=
  match s.take? v with
  | some taken => .ok taken
  | none => .error (.unexpected column s.name v.kind)

end Scalar

/-- What a column takes from a result row; an optional one also takes nothing. -/
def Storage.decode (s : Storage) (column : String) (v : Value) : Except Error Value :=
  if s.optional && v = .null then .ok .null else s.scalar.decode column v

end TableMapper
