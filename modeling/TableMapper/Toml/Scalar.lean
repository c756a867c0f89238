import TableMapper.Moment
import TableMapper.Toml.Text

/-!
# Numbers, times and truth values of TOML

The values of TOML that are no strings and hold no others.  Each is a run of
characters that ends at a blank or at a mark of the document; the readers here take
the whole run.

* `integer?`, `isFloat`, `time?` — a run read as an integer, as a floating point
  number, as a date, a clock reading or both.
-/

namespace TableMapper.Toml

/-- A run of characters for which `p` holds, with single underscores between them,
without the underscores. -/
def grouped? (p : Char → Bool) (cs : List Char) : Option (List Char) :=
  let groups := Text.cut '_' cs
  if groups.all fun g => !g.isEmpty && g.all p then some groups.flatten else none

/-- The number that digits of a base stand for. -/
def based? (base : Nat) (cs : List Char) : Option Int := do
  let digits ← grouped? (fun c => (Text.hexValue? c).any (· < base)) cs
  let values ← digits.mapM Text.hexValue?
  return (values.foldl (fun n d => base * n + d) 0 : Nat)

/-- A sign at the front: whether it is a minus, and the rest. -/
def sign (cs : List Char) : Bool × List Char :=
  match cs with
  | '-' :: r => (true, r)
  | '+' :: r => (false, r)
  | r => (false, r)

/-- Decimal digits without a zero in front. -/
def decimal? (cs : List Char) : Option (List Char) :=
  (grouped? Char.isDigit cs).filter fun ds => ds.length = 1 || ds.head? ≠ some '0'

/-- An integer of 64 bits, with or without a sign. -/
def integer? (cs : List Char) : Option Int :=
  let found := match cs with
    | '0' :: 'x' :: r => based? 16 r
    | '0' :: 'o' :: r => based? 8 r
    | '0' :: 'b' :: r => based? 2 r
    | cs =>
      let (negative, r) := sign cs
      (decimal? r).map fun ds => if negative then -(digitsValue ds : Int) else digitsValue ds
  found.filter fun n => -(twoTo 63 : Int) ≤ n && n < twoTo 64

/-- An exponent without its mark. -/
def exponent? (cs : List Char) : Option (List Char) :=
  (grouped? Char.isDigit (sign cs).2).map fun ds => if (sign cs).1 then '-' :: ds else ds

/-- A decimal number with a fraction, an exponent or both, without underscores. -/
def fractional? (cs : List Char) : Option (List Char) :=
  let isMark (c : Char) : Bool := c = 'e' || c = 'E'
  let front := cs.takeWhile (!isMark ·)
  let tail := cs.drop (front.length + 1)
  let whole := front.takeWhile (· ≠ '.')
  let places := front.drop (whole.length + 1)
  if front.length = cs.length && whole.length = front.length then none
  else do
    let whole' ← decimal? whole
    let places' ← if whole.length = front.length then some []
      else (grouped? Char.isDigit places).map ('.' :: ·)
    let tail' ← if front.length = cs.length then some [] else (exponent? tail).map ('e' :: ·)
    return whole' ++ places' ++ tail'

/-- Whether a run is a floating point number; one that is too large is none. -/
def isFloat (cs : List Char) : Bool :=
  let r := (sign cs).2
  r = "inf".toList || r = "nan".toList ||
    ((fractional? r).bind (Binary64.read? .double)).any Binary64.isFinite

/-- So many digits, and the rest. -/
def digits? (n : Nat) (cs : List Char) : Option (Nat × List Char) :=
  let ds := cs.take n
  if ds.length = n && ds.all Char.isDigit then some (digitsValue ds, cs.drop n) else none

/-- A date, as it is written. -/
def date? (cs : List Char) : Option (String × List Char) := do
  let (year, r) ← digits? 4 cs
  let (month, r) ← digits? 2 (← Moment.skip? '-' r)
  let (day, r) ← digits? 2 (← Moment.skip? '-' r)
  let date ← Date.make? year month day
  return (date.text, r)

/-- A fraction of a second: its first nine digits without zeros at the end. -/
def fraction? : List Char → Option (String × List Char)
  | '.' :: r =>
    let ds := r.takeWhile Char.isDigit
    let shown := ((ds.take 9).reverse.dropWhile (· = '0')).reverse
    if ds.isEmpty then none
    else some (if shown.isEmpty then "" else "." ++ .ofList shown, r.drop ds.length)
  | r => some ("", r)

/-- A clock reading; its seconds may be left out. -/
def clock? (cs : List Char) : Option (String × List Char) := do
  let (hour, r) ← digits? 2 cs
  let (minute, r) ← digits? 2 (← Moment.skip? ':' r)
  if 23 < hour || 59 < minute then none
  let shown := padded 2 hour ++ ":" ++ padded 2 minute
  match r with
  | ':' :: r => do
    let (second, r) ← digits? 2 r
    let (fraction, r) ← fraction? r
    if 60 < second then none
    return (shown ++ ":" ++ padded 2 second ++ fraction, r)
  | r => return (shown, r)

/-- The distance from universal time, if one is given. -/
def offset? (cs : List Char) : Option String :=
  match cs with
  | [] => some ""
  | ['Z'] | ['z'] => some "Z"
  | c :: r => do
    if c ≠ '+' && c ≠ '-' then none
    let (hours, r) ← digits? 2 r
    let (minutes, r) ← digits? 2 (← Moment.skip? ':' r)
    if 59 < minutes || 24 * 60 < 60 * hours + minutes || !r.isEmpty then none
    let mark := if c = '-' && 0 < 60 * hours + minutes then "-" else "+"
    return mark ++ padded 2 hours ++ ":" ++ padded 2 minutes

/-- A date, a clock reading, or both with a distance from universal time; as it is
written. -/
def time? (cs : List Char) : Option String :=
  match date? cs with
  | some (date, []) => some date
  | some (date, c :: r) => do
    if c ≠ 'T' && c ≠ 't' && c ≠ ' ' then none
    let (clock, r) ← clock? r
    return date ++ "T" ++ clock ++ (← offset? r)
  | none =>
    match clock? cs with
    | some (clock, []) => some clock
    | _ => none

end TableMapper.Toml
