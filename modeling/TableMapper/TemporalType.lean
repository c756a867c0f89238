import TableMapper.Moment
import TableMapper.Text.Digit

/-!
# Temporal column types

How a moment is written depends on the type that its column was declared with:
as a day, a year, a clock reading or both, and with how many digits of the
second's fraction.

* `TemporalType.ofSqlType?` — the type that a declaration names, if it is a
  temporal one;
* `TemporalType.text` — a moment as a column of that type shows it.
-/

namespace TableMapper

/-- The temporal column types; `digits` counts the shown digits of the second's
fraction. -/
inductive TemporalType
  | day
  | year
  | clock (digits : Nat)
  | moment (digits : Nat)
  deriving DecidableEq, Repr

namespace TemporalType

/-- The types that may carry a number of digits. -/
def ofBase? (base : List Char) : Option (Nat → TemporalType) :=
  if base = "datetime".toList || base = "timestamp".toList then some moment
  else if base = "time".toList then some clock
  else none

/-- The character `c` at the front is passed over if it is there. -/
def dropOne (c : Char) : List Char → List Char
  | d :: cs => if d = c then cs else d :: cs
  | [] => []

/-- The number of digits behind a base type: one decimal digit, perhaps in
round brackets of which either may be left out, with blanks anywhere. A digit
that is not an ASCII one counts as zero. -/
def precision? (cs : List Char) : Option Nat :=
  match (dropOne '(' (cs.dropWhile Text.isBlank)).dropWhile Text.isBlank with
  | d :: rest =>
    if Text.isDecimalDigit d && (dropOne ')' (rest.dropWhile Text.isBlank)).isEmpty then
      some (if d.isDigit then d.toNat - '0'.toNat else 0)
    else none
  | [] => none

/-- The temporal type that a declared column type names. Case and outer blanks
do not count. -/
def ofSqlType? (sqlType : String) : Option TemporalType :=
  let name := (Text.lower (Text.trim sqlType)).toList
  if name = "date".toList then some day
  else if name = "year".toList then some year
  else match ofBase? name with
    | some base => some (base 0)
    | none =>
      let base := name.takeWhile Char.isAlpha
      match ofBase? base, precision? (name.drop base.length) with
      | some make, some digits => some (make digits)
      | _, _ => none

/-- A moment as a column of this type shows it. -/
def text : TemporalType → Moment → String
  | day, m => m.date.text
  | year, m => m.date.yearText
  | clock digits, m => m.clock.textWith digits
  | moment digits, m => m.textWith digits

end TemporalType

end TableMapper
