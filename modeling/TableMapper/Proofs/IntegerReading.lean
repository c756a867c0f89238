import Mathlib.Data.Set.Defs
import TableMapper.Proofs.CalendarReading
import TableMapper.Proofs.ColumnContent

/-!
# Reading integers

An integer comes to a column in several forms: as a number, with a sign or without, as a
truth value, or as a text that spells it.  The column takes it if its width has room for
it, in whatever form it comes, and never takes another one in its place.

* `IntegerText` — the texts that spell an integer, a sign in front of digits;
* `Value.Carries` — the values that an integer can come as;
* `Scalar.range`, `Scalar.inRange_iff` — the integers that a width has room for;
* `Scalar.integer?_eq_some_iff` — an integer is got from exactly the values that carry it;
* `integer_decoding` — what an integer column takes, and that a number and its decimal
  text are taken alike.
-/

namespace TableMapper

/-- Decimal digits, at least one. -/
def DigitRun (ds : List Char) : Prop :=
  ds ≠ [] ∧ ∀ c ∈ ds, c.isDigit = true

instance (ds : List Char) : Decidable (DigitRun ds) :=
  inferInstanceAs (Decidable (_ ∧ _))

/-- The texts of an integer: digits with a sign in front or without one. A minus is read
where there are negative numbers. -/
inductive IntegerText (signed : Bool) : List Char → Int → Prop
  | bare {ds : List Char} (h : DigitRun ds) : IntegerText signed ds (Nat.ofDigitChars 10 ds 0)
  | plus {ds : List Char} (h : DigitRun ds) :
      IntegerText signed ('+' :: ds) (Nat.ofDigitChars 10 ds 0)
  | minus {ds : List Char} (h : DigitRun ds) (hsigned : signed = true) :
      IntegerText signed ('-' :: ds) (-(Nat.ofDigitChars 10 ds 0))

/-- A sign is no digit. -/
theorem not_digitRun_cons {c : Char} (hc : c.isDigit = false) (ds : List Char) :
    ¬DigitRun (c :: ds) := by
  rintro ⟨_, hdigits⟩
  rw [hdigits c List.mem_cons_self] at hc
  cases hc

/-- A text of an integer has no outer blanks. -/
theorem IntegerText.compact {signed : Bool} {cs : List Char} {n : Int}
    (h : IntegerText signed cs n) : Text.Compact cs := by
  have hsolid {c : Char} {ds : List Char} (hc : Text.isBlank c = false) (hds : DigitRun ds) :
      Text.Compact (c :: ds) := (Text.Solid.cons hc (solid_of_digits hds.2)).compact
  cases h with
  | bare hds => exact (solid_of_digits hds.2).compact
  | plus hds => exact hsolid (by decide) hds
  | minus hds _ => exact hsolid (by decide) hds

namespace Scalar

variable {signed : Bool} {cs ds : List Char} {n : Int}

/-- Digits behind a sign that has been read. -/
def digits? (negative : Bool) (ds : List Char) : Option Int :=
  if DigitRun ds then
    some (if negative then -(Nat.ofDigitChars 10 ds 0) else Nat.ofDigitChars 10 ds 0)
  else none

/-- The check of digits as it stands in the reader. -/
theorem digits?_eq (negative : Bool) (ds : List Char) :
    (if ds.isEmpty || !ds.all Char.isDigit then none
      else some (if negative then -(digitsValue ds : Int) else digitsValue ds)) =
        digits? negative ds := by
  have hcond : (ds.isEmpty || !ds.all Char.isDigit) = true ↔ ¬DigitRun ds := by
    simp [DigitRun, or_iff_not_imp_left]
  rw [digits?, digitsValue_eq]
  by_cases hds : DigitRun ds
  · rw [if_neg (fun h => hcond.mp h hds), if_pos hds]
  · rw [if_pos (hcond.mpr hds), if_neg hds]

/-- A minus is read in front of the digits of a signed number only. -/
theorem readInteger?_minus (signed : Bool) (ds : List Char) :
    readInteger? signed ('-' :: ds) = if signed then digits? true ds else none := by
  have hsign : ¬DigitRun ('-' :: ds) := not_digitRun_cons (by decide) ds
  cases signed with
  | false => exact (digits?_eq false _).trans (if_neg hsign)
  | true => exact digits?_eq true ds

/-- A plus is read in front of digits. -/
theorem readInteger?_plus (signed : Bool) (ds : List Char) :
    readInteger? signed ('+' :: ds) = digits? false ds :=
  digits?_eq false ds

/-- Without a sign all characters must be digits. -/
theorem readInteger?_bare (hminus : ∀ ds, cs ≠ '-' :: ds) (hplus : ∀ ds, cs ≠ '+' :: ds) :
    readInteger? signed cs = digits? false cs := by
  rw [← digits?_eq, readInteger?]
  · exact hminus
  · exact hplus

/-- Digits are read exactly as the number that they are. -/
theorem digits?_eq_some_iff {negative : Bool} :
    digits? negative ds = some n ↔
      DigitRun ds ∧ (if negative then -(Nat.ofDigitChars 10 ds 0 : Int)
        else Nat.ofDigitChars 10 ds 0) = n := by
  rw [digits?]
  split_ifs <;> simp_all

/-- An integer is read from exactly the texts that spell it. -/
theorem readInteger?_eq_some_iff : readInteger? signed cs = some n ↔ IntegerText signed cs n := by
  constructor
  · intro h
    by_cases hminus : ∃ ds, cs = '-' :: ds
    · obtain ⟨ds, rfl⟩ := hminus
      rw [readInteger?_minus] at h
      cases signed with
      | false => cases h
      | true =>
          obtain ⟨hds, rfl⟩ := digits?_eq_some_iff.mp h
          exact .minus hds rfl
    · by_cases hplus : ∃ ds, cs = '+' :: ds
      · obtain ⟨ds, rfl⟩ := hplus
        rw [readInteger?_plus] at h
        obtain ⟨hds, rfl⟩ := digits?_eq_some_iff.mp h
        exact .plus hds
      · rw [readInteger?_bare (not_exists.mp hminus) (not_exists.mp hplus)] at h
        obtain ⟨hds, rfl⟩ := digits?_eq_some_iff.mp h
        exact .bare hds
  · intro h
    cases h with
    | bare hds =>
        have hfront {c : Char} (hc : c.isDigit = false) (ds : List Char) : cs ≠ c :: ds := by
          rintro rfl
          exact not_digitRun_cons hc ds hds
        rw [readInteger?_bare (hfront (by decide)) (hfront (by decide))]
        exact digits?_eq_some_iff.mpr ⟨hds, rfl⟩
    | plus hds =>
        rw [readInteger?_plus]
        exact digits?_eq_some_iff.mpr ⟨hds, rfl⟩
    | minus hds hsigned =>
        rw [readInteger?_minus, if_pos hsigned]
        exact digits?_eq_some_iff.mpr ⟨hds, rfl⟩

end Scalar

/-- The values that an integer can come as to a column of integers with or without a
sign. A text may have blanks around it. -/
inductive Value.Carries (signed : Bool) : Value → Int → Prop
  | int (k : Int64) : Carries signed (.int k) k.toInt
  | unsigned (k : UInt64) : Carries signed (.unsigned k) k.toNat
  | bool (b : Bool) : Carries signed (.bool b) (if b then 1 else 0)
  | text {b cs b' : List Char} {n : Int} (hb : Text.Blanks b) (h : IntegerText signed cs n)
      (hb' : Text.Blanks b') : Carries signed (.text (.ofList (b ++ (cs ++ b')))) n

/-- A value is a number. -/
def Value.IsNumber (v : Value) (n : Int) : Prop :=
  (∃ k : Int64, v = .int k ∧ k.toInt = n) ∨ ∃ k : UInt64, v = .unsigned k ∧ (k.toNat : Int) = n

namespace Scalar

variable {signed : Bool} {width : Width} {column : String} {v : Value} {n m : Int}

/-- An integer is got from exactly the values that carry it. -/
theorem integer?_eq_some_iff : integer? signed v = some n ↔ v.Carries signed n := by
  constructor
  · intro h
    cases v with
    | int k =>
        cases h
        exact .int k
    | unsigned k =>
        cases h
        exact .unsigned k
    | bool b =>
        cases h
        exact .bool b
    | text s =>
        obtain ⟨_, b, b', hb, hb', hs⟩ := Text.exists_trimChars s.toList
        have htext := Value.Carries.text hb (readInteger?_eq_some_iff.mp h) hb'
        rwa [← hs, String.ofList_toList] at htext
    | null | float x | moment m | raw sql | list xs => cases h
  · intro h
    cases h with
    | int k => rfl
    | unsigned k => rfl
    | bool b => rfl
    | text hb htext hb' =>
        rw [integer?, String.toList_ofList, Text.trimChars_of_compact hb htext.compact hb']
        exact readInteger?_eq_some_iff.mpr htext

/-- The integers that a width has room for: half of them negative, or none. -/
def range (signed : Bool) (width : Width) : Set Int :=
  if signed then {n | -2 ^ (width.bits - 1) ≤ n ∧ n < 2 ^ (width.bits - 1)}
  else {n | 0 ≤ n ∧ n < 2 ^ width.bits}

/-- A number is in the range of its width if the bounds say so. -/
theorem inRange_iff : inRange signed width n = true ↔ n ∈ range signed width := by
  cases signed with
  | false => simp [inRange, range, twoTo_eq]
  | true => simp [inRange, range, twoTo_eq]

/-- A number that is not negative is written in its digits. -/
theorem toList_toString_ofNat (k : Nat) : (toString (k : Int)).toList = Nat.toDigits 10 k :=
  Nat.toList_repr

/-- A negative number is written with a minus in front. -/
theorem toList_toString_negSucc (k : Nat) :
    (toString (Int.negSucc k)).toList = '-' :: Nat.toDigits 10 (k + 1) := by
  have hrepr : toString (Int.negSucc k) = "-" ++ toString (k + 1) := rfl
  rw [hrepr, String.toList_append]
  exact congrArg _ Nat.toList_repr

/-- The digits of a number are a run of digits. -/
theorem digitRun_toDigits (k : Nat) : DigitRun (Nat.toDigits 10 k) :=
  ⟨Nat.toDigits_ne_nil, fun _ hc => Nat.isDigit_of_mem_toDigits (by decide) (by decide) hc⟩

/-- The decimal text of an integer spells it, with a minus for a negative one. -/
theorem integerText_toString (signed : Bool) (h : signed = true ∨ 0 ≤ n) :
    IntegerText signed (toString n).toList n := by
  cases n with
  | ofNat k =>
      have htext : IntegerText signed (Nat.toDigits 10 k) _ := .bare (digitRun_toDigits k)
      rwa [Nat.ofDigitChars_ten_toDigits, ← toList_toString_ofNat] at htext
  | negSucc k =>
      have hsigned : signed = true := h.resolve_right (by omega)
      have htext : IntegerText signed ('-' :: Nat.toDigits 10 (k + 1)) _ :=
        .minus (digitRun_toDigits (k + 1)) hsigned
      rwa [Nat.ofDigitChars_ten_toDigits, ← toList_toString_negSucc] at htext

/-- It is read as that integer, but not where there are no negative numbers. -/
theorem integer?_toString (signed : Bool) (n : Int) :
    integer? signed (.text (toString n)) = if signed = true ∨ 0 ≤ n then some n else none := by
  have hcompact : Text.Compact (toString n).toList :=
    (integerText_toString true (.inl rfl)).compact
  rw [integer?, hcompact.trimChars_eq]
  split_ifs with h
  · exact readInteger?_eq_some_iff.mpr (integerText_toString signed h)
  · obtain ⟨hunsigned, hnegative⟩ := not_or.mp h
    cases n with
    | ofNat k => exact absurd (Int.natCast_nonneg k) hnegative
    | negSucc k => rw [toList_toString_negSucc, readInteger?_minus, if_neg hunsigned]

/-- A text column takes from a number its decimal text. -/
theorem text?_of_isNumber (h : v.IsNumber n) : text? v = some (toString n) := by
  rcases h with ⟨k, rfl, rfl⟩ | ⟨k, rfl, rfl⟩
  · rfl
  · rfl

/-- A value that is a number is read as it. -/
theorem integer?_of_isNumber (h : v.IsNumber n) : integer? signed v = some n := by
  rcases h with ⟨k, rfl, rfl⟩ | ⟨k, rfl, rfl⟩
  · rfl
  · rfl

/-- A number and its decimal text come to the same where the width has room for it. -/
theorem filter_integer?_toString (h : v.IsNumber n) :
    (integer? signed (.text (toString n))).filter (inRange signed width) =
      (integer? signed v).filter (inRange signed width) := by
  rw [integer?_toString, integer?_of_isNumber h]
  split_ifs with hread
  · rfl
  · have hout : ¬inRange signed width n = true := by
      rw [inRange_iff]
      cases signed with
      | false => exact fun hin => hread (.inr hin.1)
      | true => exact fun _ => hread (.inl rfl)
    rw [Option.filter_none, Option.filter_some, if_neg hout]

section WithProof

variable {α : Type} {p : α → Prop} {o o' : Option α} {h : ∀ a, o = some a → p a}
  {h' : ∀ a, o' = some a → p a}

/-- The same results have the same proofs. -/
theorem withProof_congr (heq : o = o') : withProof o h = withProof o' h' := by
  subst heq
  rfl

/-- A result with its proof is the result. -/
theorem withProof_eq_some_iff {a : { a // p a }} : withProof o h = some a ↔ o = some a.1 := by
  constructor
  · intro heq
    cases o with
    | none => cases heq
    | some b =>
        cases heq
        rfl
  · exact withProof_of_eq a.2

end WithProof

/-- A value is accepted exactly if it has content of that kind. -/
theorem fromValue_eq_ok_iff {s : Scalar} {c : s.Content} :
    s.fromValue column v = .ok c ↔ s.fromValue? v = some c := by
  rw [fromValue]
  cases s.fromValue? v <;> simp

/-- A column takes an integer from exactly the values that carry it, if there is room. -/
theorem fromValue_integer_iff :
    (∃ c, (integer signed width).fromValue column v = .ok c ∧ c.1 = n) ↔
      v.Carries signed n ∧ n ∈ range signed width := by
  simp only [fromValue_eq_ok_iff]
  rw [← integer?_eq_some_iff, ← inRange_iff, ← Option.filter_eq_some_iff]
  constructor
  · rintro ⟨c, hc, rfl⟩
    exact withProof_eq_some_iff.mp hc
  · intro hn
    exact ⟨⟨n, inRange_of_filter hn⟩, withProof_eq_some_iff.mpr hn, rfl⟩

/-- It fails on every other value, with an error of decoding that names the column. -/
theorem fromValue_integer_of_not (h : ∀ n ∈ range signed width, ¬v.Carries signed n) :
    (integer signed width).fromValue column v =
      .error (.decode column ("expected " ++ (integer signed width).name ++ ", got " ++
        v.kind.name)) := by
  cases htaken : (integer signed width).fromValue? v with
  | some c =>
      have hc : (integer signed width).fromValue column v = .ok c :=
        fromValue_eq_ok_iff.mpr htaken
      obtain ⟨hcarries, hrange⟩ := fromValue_integer_iff.mp ⟨c, hc, rfl⟩
      exact absurd hcarries (h c.1 hrange)
  | none =>
      rw [fromValue, htaken]
      rfl

/-- A column takes the same from a number and from its decimal text. -/
theorem fromValue?_toString (h : v.IsNumber n) :
    (integer signed width).fromValue? (.text (toString n)) =
      (integer signed width).fromValue? v :=
  withProof_congr (filter_integer?_toString h)

end Scalar

namespace Storage

/-- A value that is there is read alike under an option. -/
theorem fromValue_optional (s : Scalar) (column : String) {v : Value} (h : v ≠ .null) :
    fromValue ⟨s, true⟩ column v = (s.fromValue column v).map some :=
  if_neg h

/-- Values of which a scalar takes the same are taken alike, optional or not. -/
theorem toOption_fromValue_congr {s : Scalar} {column : String} {v v' : Value} (h : v ≠ .null)
    (h' : v' ≠ .null) (hsame : s.fromValue? v = s.fromValue? v') (optional : Bool) :
    (fromValue ⟨s, optional⟩ column v).toOption =
      (fromValue ⟨s, optional⟩ column v').toOption := by
  cases optional with
  | false =>
      change (s.fromValue column v).toOption = (s.fromValue column v').toOption
      rw [Scalar.fromValue, Scalar.fromValue, hsame]
      cases s.fromValue? v' <;> rfl
  | true =>
      change (if v = .null then Except.ok none else (s.fromValue column v).map some).toOption =
        (if v' = .null then Except.ok none else (s.fromValue column v').map some).toOption
      rw [if_neg h, if_neg h', Scalar.fromValue, Scalar.fromValue, hsame]
      cases s.fromValue? v' <;> rfl

end Storage

/-- **Integers are decoded whole or not at all.**  An integer column, of any width and with
a sign or without, takes an integer exactly if the value carries it and the width has room
for it; from every other value it takes nothing, and the error names the column.  A number
and its decimal text, which is what a text column takes from it, come to the same; and an
optional column takes what the plain one takes from all values but a null. -/
theorem integer_decoding (signed : Bool) (width : Width) (column : String) :
    let s := Scalar.integer signed width
    (∀ v n, (∃ c, s.fromValue column v = .ok c ∧ c.1 = n) ↔
      v.Carries signed n ∧ n ∈ Scalar.range signed width) ∧
    (∀ v, (∀ n ∈ Scalar.range signed width, ¬v.Carries signed n) →
      s.fromValue column v =
        .error (.decode column ("expected " ++ s.name ++ ", got " ++ v.kind.name))) ∧
    (∀ optional v n, v.IsNumber n →
      Scalar.text.fromValue column v = .ok (toString n) ∧
      (Storage.fromValue ⟨s, optional⟩ column v).toOption =
        (Storage.fromValue ⟨s, optional⟩ column (.text (toString n))).toOption) ∧
    (∀ v, v ≠ .null → Storage.fromValue ⟨s, true⟩ column v = (s.fromValue column v).map some) ∧
    ∀ optional v, Storage.decode ⟨s, optional⟩ column v =
      (Storage.fromValue ⟨s, optional⟩ column v).map (Storage.toValue ⟨s, optional⟩) := by
  intro s
  refine ⟨fun v n => Scalar.fromValue_integer_iff, fun v => Scalar.fromValue_integer_of_not, ?_,
    fun v => Storage.fromValue_optional s column,
    fun optional => Storage.decode_eq ⟨s, optional⟩ column⟩
  intro optional v n hv
  have hnull : v ≠ .null := by
    rintro rfl
    rcases hv with ⟨k, hk, _⟩ | ⟨k, hk, _⟩ <;> cases hk
  have htext : Value.text (toString n) ≠ .null := nofun
  exact ⟨Scalar.fromValue_eq_ok_iff.mpr (Scalar.text?_of_isNumber hv),
    Storage.toOption_fromValue_congr hnull htext (Scalar.fromValue?_toString hv).symm optional⟩

/-- A byte takes its least number from a text with blanks and zeros; one without a sign
takes no minus, and none takes a number beyond its bounds, as a number or as a text. -/
theorem integer_decoding_bounds :
    (∃ c, (Scalar.integer true .w8).fromValue "n" (.text "\t-0128 ") = .ok c ∧ c.1 = -128) ∧
    (Scalar.integer false .w8).fromValue "n" (.text "-0") =
      .error (.decode "n" "expected u8, got string") ∧
    (Value.unsigned 128).IsNumber 128 ∧
    (Storage.fromValue ⟨.integer true .w8, true⟩ "n" (.unsigned 128)).toOption =
      (Storage.fromValue ⟨.integer true .w8, true⟩ "n" (.text "128")).toOption ∧
    Storage.fromValue ⟨.integer true .w8, true⟩ "n" (.bool true) =
      ((Scalar.integer true .w8).fromValue "n" (.bool true)).map some := by
  obtain ⟨htaken, _, halike, hoptional, _⟩ := integer_decoding true .w8 "n"
  obtain ⟨_, hrefused, _⟩ := integer_decoding false .w8 "n"
  have hnumber : (Value.unsigned 128).IsNumber 128 := .inr ⟨128, rfl, by decide⟩
  refine ⟨(htaken _ _).mpr ⟨Scalar.integer?_eq_some_iff.mp (by decide +kernel),
    Scalar.inRange_iff.mp (by decide)⟩, hrefused _ ?_, hnumber, (halike true _ _ hnumber).2,
    hoptional _ nofun⟩
  intro n _ hcarries
  have hread := Scalar.integer?_eq_some_iff.mpr hcarries
  have hnone : Scalar.integer? false (.text "-0") = none := by decide +kernel
  rw [hnone] at hread
  cases hread

end TableMapper
