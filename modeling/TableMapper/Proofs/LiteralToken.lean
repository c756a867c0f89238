import Mathlib.Tactic.SplitIfs
import TableMapper.Literal
import TableMapper.Proofs.Token

/-!
# Literals as tokens

A literal in a statement is either one quoted token or a word without any
character that means something to a reader.  Texts are quoted by design; what
has to be looked at is everything that is written without quoting: the digits
of numbers, and the calendar readings between the quotes of a temporal literal.

* `Numeral` — digits, points and hyphens;
* `TemporalType.isQuoted_text` — a temporal literal is one token for every moment and
  every temporal type;
* `Literal.quoted_or_bare` — the two forms of a literal.
-/

namespace TableMapper

/-- A character of a number. -/
def isNumeralChar (c : Char) : Bool :=
  c.isDigit || c = '-' || c = '.'

/-- A text of digits, points and hyphens. -/
abbrev Numeral (s : String) : Prop :=
  Only isNumeralChar s

/-- A number is written in digits. -/
theorem isDigit_of_mem_toString {n : Nat} {c : Char} (hc : c ∈ (toString n).toList) :
    c.isDigit = true := by
  have hdigits : (toString n).toList = Nat.toDigits 10 n := Nat.toList_repr
  rw [hdigits] at hc
  exact Nat.isDigit_of_mem_toDigits (by decide) (by decide) hc

theorem toString_nat_ne_empty (n : Nat) : toString n ≠ "" := by
  intro h
  have hdigits : (toString n).toList = Nat.toDigits 10 n := Nat.toList_repr
  rw [h] at hdigits
  exact Nat.toDigits_ne_nil hdigits.symm

/-- A padded number is written in digits. -/
theorem isDigit_of_mem_padded {width n : Nat} {c : Char} (hc : c ∈ (padded width n).toList) :
    c.isDigit = true := by
  rw [padded, String.toList_append, String.toList_ofList] at hc
  rcases List.mem_append.mp hc with h | h
  · rw [List.eq_of_mem_replicate h]
    rfl
  · exact isDigit_of_mem_toString h

/-- Digits are a numeral. -/
theorem numeral_of_digits {s : String} (hs : ∀ c ∈ s.toList, c.isDigit = true) : Numeral s := by
  intro c hc
  simp [isNumeralChar, hs c hc]

/-- A number is a numeral. -/
theorem numeral_toString (n : Nat) : Numeral (toString n) :=
  numeral_of_digits fun _ => isDigit_of_mem_toString

/-- An integer is a numeral, with its sign. -/
theorem numeral_toString_int (n : Int) : Numeral (toString n) := by
  cases n with
  | ofNat m => exact numeral_toString m
  | negSucc m =>
      have hsign : Numeral "-" := by decide
      exact hsign.append (numeral_toString (m + 1))

/-- A padded number is a numeral. -/
theorem numeral_padded (width n : Nat) : Numeral (padded width n) :=
  numeral_of_digits fun _ => isDigit_of_mem_padded

/-- A character of a calendar reading. -/
def isCalendarChar (c : Char) : Bool :=
  isNumeralChar c || c = ':' || c = ' ' || c = '+'

/-- A text of digits and of the characters between them in calendar readings. -/
abbrev CalendarText (s : String) : Prop :=
  Only isCalendarChar s

/-- A numeral has only characters of dates and clock readings. -/
theorem Numeral.calendarText {s : String} (hs : Numeral s) : CalendarText s :=
  hs.mono fun c hc => by simp [isCalendarChar, hc]

/-- So has a year. -/
theorem Date.calendarText_yearText (d : Date) : CalendarText d.yearText := by
  unfold Date.yearText
  split
  · exact (numeral_padded 4 _).calendarText
  · refine Only.append ?_ (numeral_padded 4 _).calendarText
    split <;> decide

/-- So has a date. -/
theorem Date.calendarText_text (d : Date) : CalendarText d.text := by
  have hhyphen : CalendarText "-" := by decide
  have hpair (n : Nat) : CalendarText (padded 2 n) := (numeral_padded 2 n).calendarText
  have hmonth := (d.calendarText_yearText.append hhyphen).append (hpair d.month)
  exact (hmonth.append hhyphen).append (hpair d.day)

/-- So has a clock reading. -/
theorem Clock.calendarText_text (c : Clock) : CalendarText c.text := by
  have hcolon : CalendarText ":" := by decide
  have hpair (n : Nat) : CalendarText (padded 2 n) := (numeral_padded 2 n).calendarText
  exact ((((hpair _).append hcolon).append (hpair _)).append hcolon).append (hpair _)

/-- So has the fraction of a second. -/
theorem Clock.calendarText_fractionText (digits : Nat) (c : Clock) :
    CalendarText (c.fractionText digits) := by
  unfold Clock.fractionText
  split
  · decide
  · refine Only.append (by decide) ?_
    intro d hd
    rw [String.toList_ofList] at hd
    exact (numeral_padded 9 _).calendarText d (List.mem_of_mem_take hd)

/-- So has a clock reading with its fraction. -/
theorem Clock.calendarText_textWith (digits : Nat) (c : Clock) :
    CalendarText (c.textWith digits) :=
  c.calendarText_text.append (c.calendarText_fractionText digits)

/-- Whatever the type, a moment is shown without quotes and backslashes. -/
theorem TemporalType.calendarText_text (type : TemporalType) (m : Moment) :
    CalendarText (type.text m) := by
  cases type with
  | day => exact m.date.calendarText_text
  | year => exact m.date.calendarText_yearText
  | clock digits => exact m.clock.calendarText_textWith digits
  | moment digits =>
      have hspace : CalendarText " " := by decide
      exact (m.date.calendarText_text.append hspace).append (m.clock.calendarText_textWith digits)

/-- A character of a calendar reading means nothing inside a text. -/
theorem literal_of_isCalendarChar {c : Char} (hc : isCalendarChar c = true) :
    c ≠ QuoteKind.text.mark ∧ QuoteKind.text.escapes c = false := by
  constructor
  · rintro rfl
    revert hc
    decide
  · rw [Bool.eq_false_iff]
    intro hescape
    have hbackslash : c = '\\' := by simpa [QuoteKind.escapes] using hescape
    subst hbackslash
    revert hc
    decide

/-- A temporal literal is one token. -/
theorem TemporalType.isQuoted_text (type : TemporalType) (m : Moment) :
    IsQuoted .text ("'" ++ type.text m ++ "'") := by
  refine ⟨(type.text m).toList, Content.of_literals ?_, ?_⟩
  · intro c hc
    exact literal_of_isCalendarChar (type.calendarText_text m c hc)
  · simp [QuoteKind.mark]

/-- The words that are literals: the absent value, the truth values, and what
stands for a number that has no digits. -/
def literalWords : List String :=
  ["NULL", "TRUE", "FALSE", "NaN", "inf", "-inf"]

/-- The text of a literal that is not quoted. -/
def Bare (s : String) : Prop :=
  (s ≠ "" ∧ Numeral s) ∨ s ∈ literalWords

theorem append_ne_empty {s : String} (hs : s ≠ "") (t : String) : s ++ t ≠ "" := by
  intro h
  have hlist := congrArg String.toList h
  rw [String.toList_append] at hlist
  exact hs (String.toList_eq_nil_iff.mp (List.append_eq_nil_iff.mp hlist).1)

/-- A numeral stands without quotes. -/
theorem Numeral.bare {s : String} (hne : s ≠ "") (hs : Numeral s) : Bare s :=
  .inl ⟨hne, hs⟩

/-- An integer stands without quotes. -/
theorem bare_toString_int (n : Int) : Bare (toString n) := by
  refine Numeral.bare ?_ (numeral_toString_int n)
  cases n with
  | ofNat m => exact toString_nat_ne_empty m
  | negSucc m => exact append_ne_empty (by decide) (toString (m + 1))

/-- A number with six places has digits, or is one of the words for numbers that
have none. -/
theorem Binary64.bare_fixedSix (x : Binary64) : Bare x.fixedSix := by
  have hsign : Numeral (if x.isNegative then "-" else "") := by split <;> decide
  have hpoint : Numeral "." := by decide
  unfold fixedSix
  split
  · exact .inr (by decide)
  · dsimp only
    split
    · refine Numeral.bare ?_ (((hsign.append (numeral_toString _)).append hpoint).append
        (numeral_padded 6 _))
      intro h
      have hlist := congrArg String.toList h
      simp at hlist
    · exact .inr (by split <;> decide)

/-- A literal is quoted or bare. -/
theorem Literal.quoted_or_bare (l : Literal) : IsQuoted .text l.text ∨ Bare l.text := by
  cases l with
  | null => exact .inr (.inr (by decide))
  | integer n => exact .inr (bare_toString_int n)
  | fixed x => exact .inr x.bare_fixedSix
  | truth b => exact .inr (.inr (by cases b <;> decide))
  | quoted s => exact .inl (isQuoted_quote s)
  | temporal type m => exact .inl (type.isQuoted_text m)
  | formless _ => exact .inr (.inr (by simp [literalWords, Literal.text]))

end TableMapper
