import TableMapper.Binary64
import TableMapper.Text.Blank

/-!
# Moments

A point of the proleptic Gregorian calendar without a time zone: a date, and a
clock reading to the nanosecond.  A nanosecond count of `10 ^ 9` or more is
within a leap second, which comes behind the second that is counted.  At the end
of a minute it is written as second sixty; within a minute it is written like the
next second.

* `Date`, `Clock`, `Moment` — the readings, with the ranges they keep;
* `Date.text`, `Clock.text` — how they are written;
* `Moment.read?` — the texts a temporal column accepts.
-/

namespace TableMapper

/-- A year with a twenty-ninth of February. -/
def isLeapYear (year : Int) : Bool :=
  year % 4 = 0 && (year % 100 ≠ 0 || year % 400 = 0)

/-- The number of days of a month; zero for a number that is no month. -/
def daysIn (year : Int) (month : Nat) : Nat :=
  match month with
  | 2 => if isLeapYear year then 29 else 28
  | 4 | 6 | 9 | 11 => 30
  | 1 | 3 | 5 | 7 | 8 | 10 | 12 => 31
  | _ => 0

/-- A day of the calendar. -/
structure Date where
  year : Int
  month : Nat
  day : Nat
  valid : -262143 ≤ year ∧ year ≤ 262142 ∧ 1 ≤ day ∧ day ≤ daysIn year month
  deriving DecidableEq, Repr

/-- The day with these numbers, if there is one. -/
def Date.make? (year : Int) (month day : Nat) : Option Date :=
  if h : -262143 ≤ year ∧ year ≤ 262142 ∧ 1 ≤ day ∧ day ≤ daysIn year month then
    some ⟨year, month, day, h⟩
  else none

/-- A reading of the clock. -/
structure Clock where
  hour : Nat
  minute : Nat
  second : Nat
  nanosecond : Nat
  valid : hour < 24 ∧ minute < 60 ∧ second < 60 ∧ nanosecond < 2000000000
  deriving DecidableEq, Repr

/-- The reading with these numbers, if there is one. -/
def Clock.make? (hour minute second nanosecond : Nat) : Option Clock :=
  if h : hour < 24 ∧ minute < 60 ∧ second < 60 ∧ nanosecond < 2000000000 then
    some ⟨hour, minute, second, nanosecond, h⟩
  else none

/-- The start of a day. -/
def Clock.midnight : Clock :=
  ⟨0, 0, 0, 0, by decide⟩

/-- A date and a clock reading. -/
structure Moment where
  date : Date
  clock : Clock
  deriving DecidableEq, Repr

/-- The start of a moment's day. -/
def Moment.startOfDay (m : Moment) : Moment :=
  ⟨m.date, .midnight⟩

/-- A year has four digits; outside the years zero to 9999 it has a sign and at
least four. -/
def Date.yearText (d : Date) : String :=
  if 0 ≤ d.year ∧ d.year ≤ 9999 then padded 4 d.year.toNat
  else (if d.year < 0 then "-" else "+") ++ padded 4 d.year.natAbs

/-- Year, month and day. -/
def Date.text (d : Date) : String :=
  d.yearText ++ "-" ++ padded 2 d.month ++ "-" ++ padded 2 d.day

/-- The second as it is written: a leap second has the number behind the one that
is counted. -/
def Clock.shownSecond (c : Clock) : Nat :=
  c.second + c.nanosecond / 1000000000

/-- Hour, minute and second. -/
def Clock.text (c : Clock) : String :=
  padded 2 c.hour ++ ":" ++ padded 2 c.minute ++ ":" ++ padded 2 c.shownSecond

/-- The first `digits` of the nine digits of the second's fraction, behind a
point; nothing when none is asked for. -/
def Clock.fractionText (digits : Nat) (c : Clock) : String :=
  if digits = 0 then ""
  else "." ++ .ofList ((padded 9 (c.nanosecond % 1000000000)).toList.take digits)

/-- Hour, minute, second, and so many digits of its fraction. -/
def Clock.textWith (digits : Nat) (c : Clock) : String :=
  c.text ++ c.fractionText digits

/-- Date and clock with a space between them. -/
def Moment.textWith (digits : Nat) (m : Moment) : String :=
  m.date.text ++ " " ++ m.clock.textWith digits

namespace Moment

/-- At least one digit, and as many more as stand there and `width` allows,
with the text behind them. -/
def digits? (width : Option Nat) (cs : List Char) : Option (Nat × List Char) :=
  let run := cs.takeWhile Char.isDigit
  let ds := match width with
    | some w => run.take w
    | none => run
  if ds.isEmpty then none else some (digitsValue ds, cs.drop ds.length)

/-- One or two digits; blanks in front are skipped. -/
def pair? (cs : List Char) : Option (Nat × List Char) :=
  digits? (some 2) (cs.dropWhile Text.isBlank)

/-- A year: with a sign of any number of digits, without one of at most four;
blanks in front are skipped. -/
def year? (cs : List Char) : Option (Int × List Char) :=
  match cs.dropWhile Text.isBlank with
  | '-' :: r => (digits? none r).map fun (n, rest) => (-(n : Int), rest)
  | '+' :: r => (digits? none r).map fun (n, rest) => ((n : Int), rest)
  | r => (digits? (some 4) r).map fun (n, rest) => ((n : Int), rest)

/-- The rest of a text behind one fixed character. -/
def skip? (c : Char) : List Char → Option (List Char)
  | d :: cs => if d = c then some cs else none
  | [] => none

/-- Year, month and day with hyphens between them. -/
def date? (cs : List Char) : Option (Date × List Char) := do
  let (year, cs) ← year? cs
  let (month, cs) ← pair? (← skip? '-' cs)
  let (day, cs) ← pair? (← skip? '-' cs)
  let date ← Date.make? year month day
  return (date, cs)

/-- An optional fraction of a second in nanoseconds. A point must be followed
by a digit; digits after the ninth are passed over. -/
def fraction? : List Char → Option (Nat × List Char)
  | '.' :: cs =>
    let ds := (cs.takeWhile Char.isDigit).take 9
    if ds.isEmpty then none
    else some (digitsValue ds * tenTo (9 - ds.length), cs.dropWhile Char.isDigit)
  | cs => some (0, cs)

/-- Hour, minute and second with colons between them, and an optional
fraction. Second sixty is a leap second. -/
def clock? (cs : List Char) : Option (Clock × List Char) := do
  let (hour, cs) ← pair? cs
  let (minute, cs) ← pair? (← skip? ':' cs)
  let (second, cs) ← pair? (← skip? ':' cs)
  let (nanos, cs) ← fraction? cs
  let clock ← if second = 60 then Clock.make? hour minute 59 (1000000000 + nanos)
    else Clock.make? hour minute second nanos
  return (clock, cs)

/-- What a reading gives when it leaves nothing over. -/
def complete? {α : Type} : Option (α × List Char) → Option α
  | some (a, []) => some a
  | _ => none

/-- A date, a separator and a clock reading. -/
def dateAndClock? (separator : List Char → Option (List Char)) (cs : List Char) :
    Option (Moment × List Char) := do
  let (date, cs) ← date? cs
  let (clock, cs) ← clock? (← separator cs)
  return (⟨date, clock⟩, cs)

/-- A moment in text: a date and a clock reading with blanks (or nothing) or a
`T` between them, or a date alone, which means its midnight. Blanks around the
text do not count. -/
def read? (s : String) : Option Moment :=
  let cs := Text.trimChars s.toList
  (complete? (dateAndClock? (fun r => some (r.dropWhile Text.isBlank)) cs)).or <|
    (complete? (dateAndClock? (skip? 'T') cs)).or <|
      (complete? (date? cs)).map fun d => ⟨d, .midnight⟩

end Moment

end TableMapper
