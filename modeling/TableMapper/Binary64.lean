import TableMapper.Power

/-!
# Double precision numbers

A floating point column holds a double, kept here as its 64 bits, so that
equality is decidable and every operation is exact arithmetic on integers.

* `Binary64.fixedSix` — the number with six decimal places, a tie going to the
  even neighbour;
* `Format.round` — the nearest number of a binary format to a fraction, again
  with ties to even, with gradual underflow and overflow to infinity;
* `Binary64.read?`, `Binary64.ofInt`, `Binary64.toSingle` — what a column
  makes of a text, of an integer and of a double, in either precision.
-/

namespace TableMapper

/-- A double by its bits: sign, eleven exponent bits, fifty-two fraction bits. -/
structure Binary64 where
  bits : UInt64
  deriving DecidableEq, Repr

/-- The quotient `num / den` rounded to the nearest integer, a tie to the even
one. -/
def roundHalfEven (num den : Nat) : Nat :=
  let q := num / den
  let r := num % den
  if 2 * r < den then q
  else if 2 * r > den then q + 1
  else if q % 2 = 0 then q else q + 1

namespace Binary64

/-- The sign bit. -/
def isNegative (x : Binary64) : Bool :=
  twoTo 63 ≤ x.bits.toNat

/-- The biased exponent. -/
def exponentField (x : Binary64) : Nat :=
  x.bits.toNat / twoTo 52 % twoTo 11

/-- The fraction bits. -/
def fractionField (x : Binary64) : Nat :=
  x.bits.toNat % twoTo 52

/-- Neither infinite nor not-a-number. -/
def isFinite (x : Binary64) : Bool :=
  x.exponentField ≠ 2047

/-- Not-a-number, of either sign. -/
def isNaN (x : Binary64) : Bool :=
  x.exponentField = 2047 && x.fractionField ≠ 0

/-- The magnitude of a finite number is `significand * 2 ^ exponent`. -/
def significand (x : Binary64) : Nat :=
  if x.exponentField = 0 then x.fractionField else twoTo 52 + x.fractionField

/-- The power of two that the significand counts. -/
def exponent (x : Binary64) : Int :=
  if x.exponentField = 0 then -1074 else (x.exponentField : Int) - 1075

/-- The equality of floating point: not-a-number differs from everything, and
the two zeros are equal. -/
def equals (x y : Binary64) : Bool :=
  !x.isNaN && !y.isNaN &&
    (x == y || (x.bits.toNat % twoTo 63 = 0 && y.bits.toNat % twoTo 63 = 0))

/-- Assemble a number from its sign and the lower sixty-three bits. -/
def ofFields (negative : Bool) (magnitude : Nat) : Binary64 :=
  ⟨UInt64.ofNat ((if negative then twoTo 63 else 0) + magnitude)⟩

/-- Infinity of either sign. -/
def infinity (negative : Bool) : Binary64 :=
  ofFields negative (2047 * twoTo 52)

/-- The not-a-number that reading a text gives. -/
def notANumber : Binary64 :=
  ofFields false (2047 * twoTo 52 + twoTo 51)

/-- The magnitude of a finite number in millionths, a tie going to the even
neighbour. -/
def millionths (x : Binary64) : Nat :=
  if 0 ≤ x.exponent then x.significand * twoTo x.exponent.toNat * tenTo 6
  else roundHalfEven (x.significand * tenTo 6) (twoTo (-x.exponent).toNat)

end Binary64

/-- The decimal digits of `n`, with zeros in front to make at least `width`. -/
def padded (width n : Nat) : String :=
  let digits := toString n
  .ofList (List.replicate (width - digits.length) '0') ++ digits

namespace Binary64

/-- The number with six decimal places. A negative number, zero included,
keeps its sign even where all digits are zero. -/
def fixedSix (x : Binary64) : String :=
  if x.isNaN then "NaN"
  else
    let sign := if x.isNegative then "-" else ""
    if x.isFinite then
      sign ++ toString (x.millionths / tenTo 6) ++ "." ++ padded 6 (x.millionths % tenTo 6)
    else sign ++ "inf"

end Binary64

/-- A binary floating point format: how many significant bits it has, and the
least and greatest power of two that its last bit may count. -/
structure Format where
  precision : Nat
  least : Int
  greatest : Int

/-- Double precision. -/
def Format.double : Format := ⟨53, -1074, 971⟩

/-- Single precision. -/
def Format.single : Format := ⟨24, -149, 104⟩

/-- The fraction `num / den`, measured in units of `2 ^ e` and rounded. -/
def roundScaled (num den : Nat) (e : Int) : Nat :=
  if 0 ≤ e then roundHalfEven num (den * twoTo e.toNat)
  else roundHalfEven (num * twoTo (-e).toNat) den

/-- The power of two that the last kept bit of `num / den` counts: the one
that leaves exactly `precision` bits, or the least of the format. -/
def Format.scale (f : Format) (num den : Nat) : Int :=
  let e : Int := (num.log2 : Int) - den.log2 - f.precision
  let fits :=
    if 0 ≤ e then num < den * twoTo e.toNat * twoTo f.precision
    else num * twoTo (-e).toNat < den * twoTo f.precision
  max (if fits then e else e + 1) f.least

/-- The number of the format nearest to the positive fraction `num / den`, as
a significand and a power of two; `none` where it overflows. -/
def Format.round (f : Format) (num den : Nat) : Option (Nat × Int) :=
  let e := f.scale num den
  let m := roundScaled num den e
  let (m, e) := if m = twoTo f.precision then (twoTo (f.precision - 1), e + 1) else (m, e)
  if e > f.greatest then none else some (m, e)

namespace Binary64

/-- The double with magnitude `m * 2 ^ e`, for a pair that double precision
holds: at most fifty-three bits, and either all of them or the least power. -/
def pack (negative : Bool) (m : Nat) (e : Int) : Binary64 :=
  if m < twoTo 52 then ofFields negative m
  else ofFields negative ((e + 1075).toNat * twoTo 52 + (m - twoTo 52))

/-- The double nearest to a fraction of the given sign. -/
def ofFraction (negative : Bool) (num den : Nat) : Binary64 :=
  match Format.double.round num den with
  | some (m, e) => pack negative m e
  | none => infinity negative

/-- A fraction first brought to format `f` and then widened to a double;
widening is exact, since the double has every single precision number. -/
def ofFractionIn (f : Format) (negative : Bool) (num den : Nat) : Binary64 :=
  if num = 0 then ofFields negative 0
  else match f.round num den with
    | none => infinity negative
    | some (m, e) =>
      if m = 0 then ofFields negative 0
      else if 0 ≤ e then ofFraction negative (m * twoTo e.toNat) 1
      else ofFraction negative m (twoTo (-e).toNat)

/-- An integer in format `f`, widened. -/
def ofInt (f : Format) (n : Int) : Binary64 :=
  ofFractionIn f (n < 0) n.natAbs 1

/-- A double brought to format `f` and widened again. -/
def toFormat (f : Format) (x : Binary64) : Binary64 :=
  if x.isFinite then
    if 0 ≤ x.exponent then ofFractionIn f x.isNegative (x.significand * twoTo x.exponent.toNat) 1
    else ofFractionIn f x.isNegative x.significand (twoTo (-x.exponent).toNat)
  else x

/-- A double brought to single precision and widened again. -/
def toSingle (x : Binary64) : Binary64 :=
  x.toFormat .single

end Binary64

/-- The value of a run of decimal digits. -/
def digitsValue (ds : List Char) : Nat :=
  ds.foldl (fun n d => 10 * n + (d.toNat - '0'.toNat)) 0

/-- A decimal number: its digits before and after the point, read as one
integer, times a power of ten. -/
structure Decimal where
  digits : Nat
  power : Int
  deriving DecidableEq, Repr

namespace Decimal

/-- An optional exponent: nothing, or `e` with an optional sign and digits. -/
def exponent? : List Char → Option Int
  | [] => some 0
  | c :: cs =>
    if c = 'e' || c = 'E' then
      let (negative, ds) := match cs with
        | '-' :: ds => (true, ds)
        | '+' :: ds => (false, ds)
        | ds => (false, ds)
      if ds.isEmpty || !ds.all Char.isDigit then none
      else some (if negative then -(digitsValue ds : Int) else digitsValue ds)
    else none

/-- Digits, an optional point and digits, an optional exponent; at least one
digit before the exponent. -/
def read? (cs : List Char) : Option Decimal :=
  let whole := cs.takeWhile Char.isDigit
  let rest := cs.dropWhile Char.isDigit
  let (places, rest) := match rest with
    | '.' :: r => (r.takeWhile Char.isDigit, r.dropWhile Char.isDigit)
    | r => ([], r)
  if whole.isEmpty && places.isEmpty then none
  else (exponent? rest).map fun e => ⟨digitsValue (whole ++ places), e - places.length⟩

/-- The nearest number of a format. Far outside every format's range the power
of ten is not expanded. -/
def toBinary (f : Format) (negative : Bool) (d : Decimal) : Binary64 :=
  if d.digits = 0 then .ofFields negative 0
  else
    let size : Int := (toString d.digits).length + d.power
    if size > 400 then .infinity negative
    else if size < -400 then .ofFields negative 0
    else if 0 ≤ d.power then .ofFractionIn f negative (d.digits * tenTo d.power.toNat) 1
    else .ofFractionIn f negative d.digits (tenTo (-d.power).toNat)

end Decimal

/-- A floating point number in text: an optional sign, then a decimal number or
one of the words for infinity and not-a-number in any case. -/
def Binary64.read? (f : Format) (cs : List Char) : Option Binary64 :=
  let (negative, body) := match cs with
    | '-' :: r => (true, r)
    | '+' :: r => (false, r)
    | r => (false, r)
  match Decimal.read? body with
  | some d => some (d.toBinary f negative)
  | none =>
    let word := String.ofList (body.map Char.toLower)
    if word = "inf" || word = "infinity" then some (.infinity negative)
    else if word = "nan" then some .notANumber
    else none

end TableMapper
