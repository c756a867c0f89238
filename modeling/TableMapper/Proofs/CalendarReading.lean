import Mathlib.Algebra.Group.Nat.Defs
import Mathlib.Data.List.Induction
import TableMapper.Proofs.BlankText
import TableMapper.Proofs.LiteralToken

/-!
# Reading calendar texts

Dates and clock readings are written with a fixed number of digits and read with at most
as many, so a text that is written is read up to the character behind it.  The fraction
of a second is written to a number of digits, and reading it gives the reading without
the digits that were left out.  Only a leap second at the end of a minute has a text of
its own; one within a minute is read as the next second.

* `digitsValue_padded`, `digitsValue_take` — the value of digits that are written, and of
  the first of them;
* `Clock.truncate`, `Clock.IsLeap` — a reading without some digits of its fraction, and
  one within a leap second;
* `Clock.asRead` — the reading that a text stands for;
* `date?_text`, `clock?_textWith` — a date and a clock reading in front of other text;
* `read?_textWith`, `read?_dateText` — whole texts of moments and of dates.
-/

namespace TableMapper

/-- The value of digits is that of their decimal number. -/
theorem digitsValue_eq (ds : List Char) : digitsValue ds = Nat.ofDigitChars 10 ds 0 :=
  Nat.ofDigitChars_eq_foldl.symm

/-- Digits in front count by the places behind them. -/
theorem digitsValue_append (ds es : List Char) :
    digitsValue (ds ++ es) = 10 ^ es.length * digitsValue ds + digitsValue es := by
  rw [digitsValue_eq, Nat.ofDigitChars_append, Nat.ofDigitChars_eq_ofDigitChars_zero,
    ← digitsValue_eq, ← digitsValue_eq]

/-- A number has its own value, however wide it is written. -/
theorem digitsValue_padded (width n : Nat) : digitsValue (padded width n).toList = n := by
  have hdigits : (toString n).toList = Nat.toDigits 10 n := Nat.toList_repr
  rw [padded, String.toList_append, String.toList_ofList, hdigits, digitsValue_append,
    digitsValue_eq, digitsValue_eq, Nat.ofDigitChars_replicate_zero,
    Nat.ofDigitChars_ten_toDigits]
  simp

/-- A number that fits is written with exactly so many digits. -/
theorem length_padded {width n : Nat} (hwidth : 0 < width) (hn : n < 10 ^ width) :
    (padded width n).toList.length = width := by
  have hdigits : (toString n).toList = Nat.toDigits 10 n := Nat.toList_repr
  have hlength : (toString n).length = (Nat.toDigits 10 n).length := by
    rw [← String.length_toList, hdigits]
  have hfits := (Nat.length_toDigits_le_iff (by decide) hwidth).mpr hn
  rw [padded, String.toList_append, String.toList_ofList, List.length_append,
    List.length_replicate, hlength, hdigits]
  omega

theorem padded_ne_nil (width n : Nat) : (padded width n).toList ≠ [] := by
  rw [padded, String.toList_append]
  refine List.append_ne_nil_of_right_ne_nil _ fun hnil => ?_
  exact toString_nat_ne_empty n (String.toList_eq_nil_iff.mp hnil)

/-- The codes of the digits. -/
theorem toNat_of_isDigit {c : Char} (hc : c.isDigit = true) : 48 ≤ c.toNat ∧ c.toNat ≤ 57 := by
  simpa [Char.isDigit, UInt32.le_iff_toNat_le] using hc

/-- So many digits are worth less than the power of ten. -/
theorem digitsValue_lt {ds : List Char} (hds : ∀ c ∈ ds, c.isDigit = true) :
    digitsValue ds < 10 ^ ds.length := by
  induction ds using List.reverseRecOn with
  | nil => decide
  | append_singleton ds d ih =>
      have hd := toNat_of_isDigit (hds d (by simp))
      have hrest := ih fun c hc => hds c (List.mem_append_left _ hc)
      have hone : digitsValue [d] = d.toNat - 48 := by simp [digitsValue]
      rw [digitsValue_append, hone, List.length_append, List.length_singleton, Nat.pow_succ]
      omega

/-- Leaving out the last digits divides by a power of ten. -/
theorem digitsValue_take {ds : List Char} (hds : ∀ c ∈ ds, c.isDigit = true) (n : Nat) :
    digitsValue (ds.take n) = digitsValue ds / 10 ^ (ds.length - n) := by
  have hvalue := digitsValue_append (ds.take n) (ds.drop n)
  have hsmall : digitsValue (ds.drop n) < 10 ^ (ds.drop n).length :=
    digitsValue_lt fun c hc => hds c (List.mem_of_mem_drop hc)
  rw [List.take_append_drop] at hvalue
  rw [List.length_drop] at hvalue hsmall
  rw [hvalue, Nat.mul_add_div (Nat.pow_pos (by decide)), Nat.div_eq_of_lt hsmall, Nat.add_zero]

open Text (Solid Compact)

/-- No digit is a blank. -/
theorem isBlank_of_isDigit {c : Char} (hc : c.isDigit = true) : Text.isBlank c = false := by
  have hrange := toNat_of_isDigit hc
  refine Bool.eq_false_iff.mpr fun hblank => ?_
  have hcodes := Text.isBlank_iff.mp hblank
  omega

/-- A run of digits has no blank. -/
theorem solid_of_digits {cs : List Char} (hcs : ∀ c ∈ cs, c.isDigit = true) : Solid cs :=
  fun c hc => isBlank_of_isDigit (hcs c hc)

theorem solid_padded (width n : Nat) : Solid (padded width n).toList :=
  solid_of_digits fun _ => isDigit_of_mem_padded

/-- A year has no blank. -/
theorem Date.solid_yearText (d : Date) : Solid d.yearText.toList := by
  unfold Date.yearText
  split
  · exact solid_padded 4 _
  · rw [String.toList_append]
    refine Solid.append ?_ (solid_padded 4 _)
    split <;> decide

/-- A date as characters: year, month and day with hyphens. -/
theorem Date.toList_text (d : Date) : d.text.toList =
    d.yearText.toList ++ '-' :: ((padded 2 d.month).toList ++ '-' :: (padded 2 d.day).toList) := by
  simp [Date.text]

/-- A date has no blank. -/
theorem Date.solid_text (d : Date) : Solid d.text.toList := by
  have hhyphen : Text.isBlank '-' = false := by decide
  rw [toList_text]
  exact d.solid_yearText.append (((solid_padded 2 _).append ((solid_padded 2 _).cons hhyphen)).cons
    hhyphen)

/-- A clock reading as characters: hour, minute and second with colons, and the fraction. -/
theorem Clock.toList_textWith (digits : Nat) (c : Clock) : (c.textWith digits).toList =
    (padded 2 c.hour).toList ++ ':' :: ((padded 2 c.minute).toList ++
      ':' :: ((padded 2 c.shownSecond).toList ++ (c.fractionText digits).toList)) := by
  simp [Clock.textWith, Clock.text]

/-- The nine digits of the second's fraction. -/
def Clock.fractionDigits (c : Clock) : List Char :=
  (padded 9 (c.nanosecond % 1000000000)).toList

/-- The digits of the fraction are digits. -/
theorem Clock.isDigit_of_mem_fractionDigits {c : Clock} {d : Char}
    (hd : d ∈ c.fractionDigits) : d.isDigit = true :=
  isDigit_of_mem_padded hd

/-- There are nine of them. -/
theorem Clock.length_fractionDigits (c : Clock) : c.fractionDigits.length = 9 :=
  length_padded (by decide) (Nat.mod_lt _ (by decide))

/-- The fraction is a point and the first digits, or nothing. -/
theorem Clock.toList_fractionText (digits : Nat) (c : Clock) : (c.fractionText digits).toList =
    if digits = 0 then [] else '.' :: c.fractionDigits.take digits := by
  unfold fractionText fractionDigits
  split
  · rfl
  · simp

/-- A clock reading has no blank. -/
theorem Clock.solid_textWith (digits : Nat) (c : Clock) : Solid (c.textWith digits).toList := by
  have hcolon : Text.isBlank ':' = false := by decide
  have hfraction : Solid (c.fractionText digits).toList := by
    rw [toList_fractionText]
    split
    · decide
    · refine Solid.cons (by decide) (solid_of_digits ?_)
      exact fun d hd => isDigit_of_mem_fractionDigits (List.mem_of_mem_take hd)
  rw [toList_textWith]
  have hseconds := (solid_padded 2 c.shownSecond).append hfraction
  exact (solid_padded 2 _).append (((solid_padded 2 _).append (hseconds.cons hcolon)).cons hcolon)

namespace Moment

/-- A text that does not go on with a digit. -/
def NoDigit (cs : List Char) : Prop :=
  ∀ c ∈ cs.head?, c.isDigit = false

theorem noDigit_nil : NoDigit [] := by
  intro c hc
  cases hc

theorem noDigit_cons {c : Char} (hc : c.isDigit = false) (cs : List Char) : NoDigit (c :: cs) := by
  intro d hd
  rw [← Option.some.inj hd]
  exact hc

/-- Digits are taken up to a text that begins with none. -/
theorem takeWhile_digits {ds rest : List Char} (hds : ∀ c ∈ ds, c.isDigit = true)
    (hrest : NoDigit rest) : (ds ++ rest).takeWhile Char.isDigit = ds := by
  rw [List.takeWhile_append_of_pos hds]
  cases rest with
  | nil => simp
  | cons c rest => simp [hrest c rfl]

/-- Digits are read up to the character behind them. -/
theorem digits?_append {width : Option Nat} {ds rest : List Char} (hne : ds ≠ [])
    (hds : ∀ c ∈ ds, c.isDigit = true) (hrest : NoDigit rest)
    (hwidth : ∀ w ∈ width, ds.length ≤ w) :
    digits? width (ds ++ rest) = some (digitsValue ds, rest) := by
  have hempty : ds.isEmpty = false := by simpa using hne
  unfold digits?
  dsimp only
  rw [takeWhile_digits hds hrest]
  cases width with
  | none => simp [hempty]
  | some w => simp [List.take_of_length_le (hwidth w rfl), hempty]

/-- Nothing stands in front of a number to be skipped. -/
theorem dropWhile_padded (width n : Nat) (rest : List Char) :
    ((padded width n).toList ++ rest).dropWhile Text.isBlank = (padded width n).toList ++ rest := by
  apply Text.dropWhile_of_head?
  intro c hc
  rw [List.head?_append_of_ne_nil _ (padded_ne_nil width n)] at hc
  exact solid_padded width n c (List.mem_of_mem_head? hc)

/-- A number of two digits is read back. -/
theorem pair?_padded {n : Nat} {rest : List Char} (hn : n < 100) (hrest : NoDigit rest) :
    pair? ((padded 2 n).toList ++ rest) = some (n, rest) := by
  have hwidth : ∀ w ∈ some 2, (padded 2 n).toList.length ≤ w := by
    intro w hw
    rw [length_padded (by decide) hn, Option.some.inj hw]
  rw [pair?, dropWhile_padded,
    digits?_append (padded_ne_nil 2 n) (fun _ => isDigit_of_mem_padded) hrest hwidth,
    digitsValue_padded]

/-- A year in four digits. -/
theorem year?_padded {n : Nat} {rest : List Char} (hn : n < 10000) (hrest : NoDigit rest) :
    year? ((padded 4 n).toList ++ rest) = some ((n : Int), rest) := by
  have hwidth : ∀ w ∈ some 4, (padded 4 n).toList.length ≤ w := by
    intro w hw
    rw [length_padded (by decide) hn, Option.some.inj hw]
  have hdigits := digits?_append (padded_ne_nil 4 n) (fun _ => isDigit_of_mem_padded) hrest hwidth
  rw [digitsValue_padded] at hdigits
  obtain ⟨d, ds, htext⟩ := List.exists_cons_of_ne_nil (padded_ne_nil 4 n)
  have hd : d.isDigit = true := isDigit_of_mem_padded (htext ▸ List.mem_cons_self)
  have hminus : d ≠ '-' := by
    rintro rfl
    cases hd
  have hplus : d ≠ '+' := by
    rintro rfl
    cases hd
  rw [year?, dropWhile_padded]
  rw [htext] at hdigits ⊢
  split
  · rename_i heq
    exact absurd (List.cons.inj heq).1 hminus
  · rename_i heq
    exact absurd (List.cons.inj heq).1 hplus
  · rw [hdigits]
    rfl

/-- A year with a sign may have any number of digits. -/
theorem year?_signed {n : Nat} {rest : List Char} (hrest : NoDigit rest) :
    year? ('-' :: ((padded 4 n).toList ++ rest)) = some (-(n : Int), rest) ∧
      year? ('+' :: ((padded 4 n).toList ++ rest)) = some ((n : Int), rest) := by
  have hwidth : ∀ w ∈ (none : Option Nat), (padded 4 n).toList.length ≤ w := by simp
  have hdigits := digits?_append (padded_ne_nil 4 n) (fun _ => isDigit_of_mem_padded) hrest hwidth
  rw [digitsValue_padded] at hdigits
  have hminus : ('-' :: ((padded 4 n).toList ++ rest)).dropWhile Text.isBlank =
      '-' :: ((padded 4 n).toList ++ rest) := rfl
  have hplus : ('+' :: ((padded 4 n).toList ++ rest)).dropWhile Text.isBlank =
      '+' :: ((padded 4 n).toList ++ rest) := rfl
  constructor
  · rw [year?, hminus]
    simp [hdigits]
  · rw [year?, hplus]
    simp [hdigits]

/-- A year is read back, with its sign and all its digits. -/
theorem year?_yearText (d : Date) {rest : List Char} (hrest : NoDigit rest) :
    year? (d.yearText.toList ++ rest) = some (d.year, rest) := by
  unfold Date.yearText
  split
  · rename_i hyear
    have hsmall : d.year.toNat < 10000 := by omega
    rw [year?_padded hsmall hrest, Int.toNat_of_nonneg hyear.1]
  · rw [String.toList_append, List.append_assoc]
    obtain ⟨hminus, hplus⟩ := year?_signed (n := d.year.natAbs) hrest
    split
    · rename_i hnegative
      have hsign : "-".toList = ['-'] := by decide
      have hvalue : -(d.year.natAbs : Int) = d.year := by omega
      rw [hsign, List.singleton_append, hminus, hvalue]
    · rename_i hnonneg
      have hsign : "+".toList = ['+'] := by decide
      have hvalue : (d.year.natAbs : Int) = d.year := by omega
      rw [hsign, List.singleton_append, hplus, hvalue]

/-- No month has more than thirty-one days. -/
theorem daysIn_le (year : Int) (month : Nat) : daysIn year month ≤ 31 := by
  unfold daysIn
  split
  · split <;> decide
  all_goals decide

/-- Only the twelve months have days. -/
theorem month_le_of_daysIn {year : Int} {month : Nat} (h : 0 < daysIn year month) :
    month ≤ 12 := by
  unfold daysIn at h
  split at h
  all_goals omega

/-- A date is read back. -/
theorem date?_text (d : Date) {rest : List Char} (hrest : NoDigit rest) :
    date? (d.text.toList ++ rest) = some (d, rest) := by
  obtain ⟨_, _, hday, hdays⟩ := d.valid
  have hmonth : d.month < 100 := by
    have := month_le_of_daysIn (Nat.lt_of_lt_of_le hday hdays)
    omega
  have hday : d.day < 100 := by
    have := daysIn_le d.year d.month
    omega
  have hhyphen {cs : List Char} : NoDigit ('-' :: cs) := noDigit_cons (by decide) cs
  have hmake : Date.make? d.year d.month d.day = some d := dif_pos d.valid
  rw [Date.toList_text, List.append_assoc, List.cons_append, List.append_assoc,
    List.cons_append, date?, year?_yearText d hhyphen]
  simp only [Option.bind_eq_bind, Option.bind_some, skip?, if_pos, pair?_padded hmonth hhyphen,
    pair?_padded hday hrest, hmake]
  rfl

end Moment

/-- A reading within a leap second. -/
def Clock.IsLeap (c : Clock) : Prop :=
  1000000000 ≤ c.nanosecond

instance (c : Clock) : Decidable c.IsLeap :=
  inferInstanceAs (Decidable (1000000000 ≤ c.nanosecond))

/-- The reading with the first of the nine digits of the second's fraction, the others
being zero. -/
def Clock.truncate (digits : Nat) (c : Clock) : Clock where
  hour := c.hour
  minute := c.minute
  second := c.second
  nanosecond := c.nanosecond - c.nanosecond % 10 ^ (9 - digits)
  valid := by
    obtain ⟨hhour, hminute, hsecond, hnanosecond⟩ := c.valid
    exact ⟨hhour, hminute, hsecond, by omega⟩

/-- The moment with the first digits of the second's fraction. -/
def Moment.truncate (digits : Nat) (m : Moment) : Moment :=
  ⟨m.date, m.clock.truncate digits⟩

/-- The reading that the text of another one stands for: a leap second within a minute is
taken for the next second. -/
def Clock.asRead (c : Clock) : Clock :=
  if h : c.IsLeap ∧ c.second ≠ 59 then
    { hour := c.hour
      minute := c.minute
      second := c.second + 1
      nanosecond := c.nanosecond - 1000000000
      valid := by
        obtain ⟨hhour, hminute, hsecond, hnanosecond⟩ := c.valid
        have hwithin := h.2
        exact ⟨hhour, hminute, by omega, by omega⟩ }
  else c

/-- The moment that the text of another one stands for. -/
def Moment.asRead (m : Moment) : Moment :=
  ⟨m.date, m.clock.asRead⟩

namespace Clock

/-- What is left out is left out of the fraction. -/
theorem nanosecond_mod (digits : Nat) (c : Clock) :
    c.nanosecond % 10 ^ (9 - digits) =
      c.nanosecond % 1000000000 % 10 ^ (9 - digits) := by
  have hdvd : 10 ^ (9 - digits) ∣ 1000000000 := Nat.pow_dvd_pow 10 (Nat.sub_le 9 digits)
  exact (Nat.mod_mod_of_dvd c.nanosecond hdvd).symm

/-- Readings are taken for themselves, except within a leap second within a minute. -/
theorem asRead_eq_iff {c : Clock} : c.asRead = c ↔ (c.IsLeap → c.second = 59) := by
  unfold asRead
  split
  · rename_i h
    refine iff_of_false ?_ fun hlast => h.2 (hlast h.1)
    intro heq
    exact absurd (congrArg Clock.second heq) (Nat.succ_ne_self c.second)
  · rename_i h
    exact iff_of_true rfl fun hleap => by_contra fun hsecond => h ⟨hleap, hsecond⟩

/-- A leap second within a minute is taken for the next second, with the same digits of its
fraction. -/
theorem asRead_within {c : Clock} (hleap : c.IsLeap) (hsecond : c.second ≠ 59) :
    c.asRead.hour = c.hour ∧ c.asRead.minute = c.minute ∧ c.asRead.second = c.second + 1 ∧
      c.asRead.nanosecond = c.nanosecond % 1000000000 := by
  have hbound := c.valid.2.2.2
  have hnanosecond : c.nanosecond - 1000000000 = c.nanosecond % 1000000000 := by
    unfold IsLeap at hleap
    omega
  rw [asRead, dif_pos ⟨hleap, hsecond⟩]
  exact ⟨rfl, rfl, rfl, hnanosecond⟩

/-- A leap second that is taken for itself is the last second of its minute. -/
theorem second_asRead {c : Clock} (h : c.asRead.IsLeap) : c.asRead.second = 59 := by
  unfold asRead at h ⊢
  split at h
  · have hnanosecond := c.valid.2.2.2
    unfold IsLeap at h
    dsimp only at h
    omega
  · rename_i hnot
    rw [dif_neg hnot]
    exact by_contra fun hsecond => hnot ⟨h, hsecond⟩

/-- A reading has the text of the one that it is taken for. -/
theorem textWith_asRead (digits : Nat) (c : Clock) :
    c.asRead.textWith digits = c.textWith digits := by
  unfold asRead
  split
  · rename_i h
    have hleap := h.1
    have hbound := c.valid.2.2.2
    unfold IsLeap at hleap
    have hsecond : c.second + 1 + (c.nanosecond - 1000000000) / 1000000000 =
        c.second + c.nanosecond / 1000000000 := by omega
    have hfraction : (c.nanosecond - 1000000000) % 1000000000 = c.nanosecond % 1000000000 := by
      omega
    simp only [textWith, text, shownSecond, fractionText, hsecond, hfraction]
  · rfl

/-- The parts of a valid reading make it again. -/
theorem make?_eq (c : Clock) : make? c.hour c.minute c.second c.nanosecond = some c :=
  dif_pos c.valid

/-- A leap second stays one. -/
theorem isLeap_truncate (digits : Nat) (c : Clock) : (c.truncate digits).IsLeap ↔ c.IsLeap := by
  have hmod := c.nanosecond_mod digits
  have hle := Nat.mod_le (c.nanosecond % 1000000000) (10 ^ (9 - digits))
  unfold IsLeap truncate
  dsimp only
  omega

/-- The shown digits are the fraction without its last digits. -/
theorem digitsValue_take_fractionDigits (digits : Nat) (c : Clock) :
    digitsValue (c.fractionDigits.take digits) =
      c.nanosecond % 1000000000 / 10 ^ (9 - digits) := by
  rw [digitsValue_take fun _ => isDigit_of_mem_fractionDigits, length_fractionDigits,
    fractionDigits, digitsValue_padded]

end Clock

namespace Moment

/-- Moments are taken for themselves, except within a leap second within a minute. -/
theorem asRead_eq_iff {m : Moment} :
    m.asRead = m ↔ (m.clock.IsLeap → m.clock.second = 59) := by
  rw [← Clock.asRead_eq_iff]
  constructor
  · intro h
    exact congrArg Moment.clock h
  · intro h
    rw [asRead, h]

/-- A fraction is read as the nanoseconds that its digits show. -/
theorem fraction?_fractionText {digits : Nat} (hdigits : digits ≤ 9) (c : Clock) :
    fraction? (c.fractionText digits).toList =
      some (c.nanosecond % 1000000000 -
        c.nanosecond % 1000000000 % 10 ^ (9 - digits), []) := by
  rw [Clock.toList_fractionText]
  by_cases hzero : digits = 0
  · subst hzero
    have hmod : c.nanosecond % 1000000000 % 10 ^ (9 - 0) = c.nanosecond % 1000000000 :=
      Nat.mod_mod _ _
    rw [if_pos rfl, hmod, Nat.sub_self]
    rfl
  · have hisDigit : ∀ d ∈ c.fractionDigits.take digits, d.isDigit = true :=
      fun d hd => Clock.isDigit_of_mem_fractionDigits (List.mem_of_mem_take hd)
    have hlength : (c.fractionDigits.take digits).length = digits := by
      rw [List.length_take, c.length_fractionDigits]
      omega
    have htake : (c.fractionDigits.take digits).takeWhile Char.isDigit =
        c.fractionDigits.take digits := by
      have h := takeWhile_digits hisDigit noDigit_nil
      rwa [List.append_nil] at h
    have hdrop : (c.fractionDigits.take digits).dropWhile Char.isDigit = [] :=
      List.dropWhile_eq_nil_iff.mpr hisDigit
    have hne : (c.fractionDigits.take digits).isEmpty = false := by
      rw [List.isEmpty_eq_false_iff, ← List.length_pos_iff, hlength]
      omega
    rw [if_neg hzero, fraction?]
    rw [htake, hdrop, List.take_of_length_le (by omega), hne, hlength,
      c.digitsValue_take_fractionDigits]
    simp only [Bool.false_eq_true, if_false, Option.some.injEq, Prod.mk.injEq, and_true]
    exact Nat.eq_sub_of_add_eq (Nat.div_add_mod' _ _)

/-- Reading what is written keeps the digits that are shown, if no leap second is within a
minute. -/
theorem clock?_textWith_of_last {digits : Nat} (hdigits : digits ≤ 9) {c : Clock}
    (hleap : c.IsLeap → c.second = 59) :
    clock? (c.textWith digits).toList = some (c.truncate digits, []) := by
  obtain ⟨hhour, hminute, hsecond, hnanosecond⟩ := c.valid
  have hshown : c.shownSecond < 100 := by
    unfold Clock.shownSecond
    omega
  have hcolon {cs : List Char} : NoDigit (':' :: cs) := noDigit_cons (by decide) cs
  have hfraction : NoDigit (c.fractionText digits).toList := by
    rw [Clock.toList_fractionText]
    split
    · exact noDigit_nil
    · exact noDigit_cons (by decide) _
  rw [Clock.toList_textWith, clock?, pair?_padded (by omega) hcolon]
  simp only [Option.bind_eq_bind, Option.bind_some, skip?, if_pos,
    pair?_padded (show c.minute < 100 by omega) hcolon, pair?_padded hshown hfraction,
    fraction?_fractionText hdigits]
  -- a leap second is written as second sixty, and read as second fifty-nine
  have hmod := c.nanosecond_mod digits
  have hle := Nat.mod_le (c.nanosecond % 1000000000) (10 ^ (9 - digits))
  have hmake : Clock.make? c.hour c.minute c.second
      (c.nanosecond - c.nanosecond % 10 ^ (9 - digits)) = some (c.truncate digits) :=
    (c.truncate digits).make?_eq
  by_cases hc : c.IsLeap
  · have hlast := hleap hc
    have hsixty : c.shownSecond = 60 := by
      unfold Clock.shownSecond
      unfold Clock.IsLeap at hc
      omega
    have hnanos : 1000000000 + (c.nanosecond % 1000000000 -
        c.nanosecond % 1000000000 % 10 ^ (9 - digits)) =
          c.nanosecond - c.nanosecond % 10 ^ (9 - digits) := by
      unfold Clock.IsLeap at hc
      omega
    rw [if_pos hsixty, hnanos, ← hlast, hmake]
    rfl
  · have hsame : c.shownSecond = c.second := by
      unfold Clock.shownSecond
      unfold Clock.IsLeap at hc
      omega
    have hnanos : c.nanosecond % 1000000000 -
        c.nanosecond % 1000000000 % 10 ^ (9 - digits) =
          c.nanosecond - c.nanosecond % 10 ^ (9 - digits) := by
      unfold Clock.IsLeap at hc
      omega
    rw [hsame, if_neg (by omega), hnanos, hmake]
    rfl

/-- Reading what is written keeps the digits that are shown, of the reading that the text
stands for. -/
theorem clock?_textWith {digits : Nat} (hdigits : digits ≤ 9) (c : Clock) :
    clock? (c.textWith digits).toList = some (c.asRead.truncate digits, []) := by
  rw [← c.textWith_asRead]
  exact clock?_textWith_of_last hdigits Clock.second_asRead

/-- A moment as characters: date and clock reading with a space between them. -/
theorem toList_textWith (digits : Nat) (m : Moment) : (m.textWith digits).toList =
    m.date.text.toList ++ ' ' :: (m.clock.textWith digits).toList := by
  simp [textWith]

theorem clock_textWith_ne_nil (digits : Nat) (c : Clock) : (c.textWith digits).toList ≠ [] := by
  rw [Clock.toList_textWith]
  exact List.append_ne_nil_of_left_ne_nil (padded_ne_nil 2 c.hour) _

theorem date_text_ne_nil (d : Date) : d.text.toList ≠ [] := by
  rw [Date.toList_text]
  exact List.append_ne_nil_of_right_ne_nil _ (List.cons_ne_nil _ _)

/-- A moment that is written with some digits of the second's fraction is read without the
others, as the moment that its text stands for. -/
theorem read?_textWith {digits : Nat} (hdigits : digits ≤ 9) (m : Moment) :
    read? (m.textWith digits) = some (m.asRead.truncate digits) := by
  have hcompact : Compact (m.textWith digits).toList := by
    rw [toList_textWith, ← List.singleton_append]
    exact Compact.of_solid m.date.solid_text (date_text_ne_nil m.date)
      (m.clock.solid_textWith digits) (clock_textWith_ne_nil digits m.clock) [' ']
  have hspace : NoDigit (' ' :: (m.clock.textWith digits).toList) := noDigit_cons (by decide) _
  have hskip : (' ' :: (m.clock.textWith digits).toList).dropWhile Text.isBlank =
      (m.clock.textWith digits).toList := by
    rw [List.dropWhile_cons_of_pos (by decide)]
    apply Text.dropWhile_of_head?
    exact (m.clock.solid_textWith digits).compact.1
  have hread : dateAndClock? (fun r => some (r.dropWhile Text.isBlank)) (m.textWith digits).toList =
      some (m.asRead.truncate digits, []) := by
    rw [toList_textWith, dateAndClock?, date?_text m.date hspace]
    simp only [Option.bind_eq_bind, Option.bind_some, hskip, clock?_textWith hdigits]
    rfl
  rw [read?]
  rw [hcompact.trimChars_eq, hread]
  rfl

/-- A date alone is read as its midnight. -/
theorem read?_dateText (d : Date) : read? d.text = some ⟨d, .midnight⟩ := by
  have hdate : date? d.text.toList = some (d, []) := by
    have h := date?_text d noDigit_nil
    rwa [List.append_nil] at h
  have hspace : dateAndClock? (fun r => some (r.dropWhile Text.isBlank)) d.text.toList = none := by
    rw [dateAndClock?, hdate]
    rfl
  have hletter : dateAndClock? (skip? 'T') d.text.toList = none := by
    rw [dateAndClock?, hdate]
    rfl
  rw [read?]
  rw [d.solid_text.compact.trimChars_eq, hspace, hletter, hdate]
  rfl

end Moment

end TableMapper
