import Mathlib.Algebra.Order.Field.Basic
import Mathlib.Algebra.Order.Field.Power
import Mathlib.Data.Rat.Cast.Order
import Mathlib.Tactic.FieldSimp
import Mathlib.Tactic.Linarith
import Mathlib.Tactic.NormNum
import Mathlib.Tactic.Positivity
import Mathlib.Tactic.Ring
import TableMapper.Binary64

/-!
# Exact rounding

A number that a format holds is its own rounding.  The magnitudes of finite doubles
are compared as fractions: a format holds `m * 2 ^ e` for a significand of at most its
precision and a power between its least and its greatest, in one way only, and
rounding a fraction to a format finds this way.

* `Format.Holds` — a significand and a power as a format holds them;
* `Format.round_eq_of_holds`, `Format.holds_of_round` — rounding keeps what a format
  holds, and gives nothing else;
* `Binary64.pack_eq` — a double is put together from its parts;
* `Format.Has` — the doubles that a format has;
* `Binary64.toFormat_of_has` — such a double is not changed by the format;
* `Format.has_ofFractionIn`, `Format.has_read?` — whatever is brought to a format is
  one of these.
-/

namespace TableMapper

/-- The powers of two of the model are those of Mathlib. -/
theorem twoTo_eq (n : Nat) : twoTo n = 2 ^ n :=
  rfl

section Quotients

variable {num den k : Nat}

/-- A quotient that is whole is not rounded. -/
theorem roundHalfEven_eq (hden : 0 < den) (h : num = k * den) : roundHalfEven num den = k := by
  have hquotient : num / den = k := by
    rw [h, Nat.mul_div_cancel _ hden]
  have hrest : num % den = 0 := by
    rw [h, Nat.mul_mod_left]
  rw [roundHalfEven, hquotient, hrest]
  simp [hden]

/-- Rounding does not pass a whole number from below. -/
theorem roundHalfEven_le (hden : 0 < den) (h : num ≤ k * den) : roundHalfEven num den ≤ k := by
  have hquotient : num / den ≤ k := Nat.div_le_of_le_mul (by rwa [Nat.mul_comm] at h)
  rcases Nat.lt_or_ge (num / den) k with hless | hge
  · unfold roundHalfEven
    dsimp only
    split_ifs <;> omega
  · -- At the bound nothing is left over.
    have heq : num / den = k := Nat.le_antisymm hquotient hge
    have hdivides := Nat.div_add_mod num den
    rw [heq, Nat.mul_comm] at hdivides
    exact le_of_eq (roundHalfEven_eq hden (by omega))

/-- Rounding does not pass a whole number from above. -/
theorem le_roundHalfEven (hden : 0 < den) (h : k * den ≤ num) : k ≤ roundHalfEven num den := by
  have hquotient : k ≤ num / den := (Nat.le_div_iff_mul_le hden).mpr h
  unfold roundHalfEven
  dsimp only
  split_ifs <;> omega

end Quotients

/-- The fraction in units of a power of two is a quotient of natural numbers. -/
theorem exists_roundScaled (num : Nat) {den : Nat} (hden : 0 < den) (e : Int) :
    ∃ n d : Nat, 0 < d ∧ roundScaled num den e = roundHalfEven n d ∧
      (n : ℚ) = (num : ℚ) / den / 2 ^ e * d := by
  have hdenq : (den : ℚ) ≠ 0 := by positivity
  by_cases he : 0 ≤ e
  · obtain ⟨n, rfl⟩ := Int.eq_ofNat_of_zero_le he
    refine ⟨num, den * twoTo n, by rw [twoTo_eq]; positivity, ?_, ?_⟩
    · rw [roundScaled, if_pos he]
      rfl
    · rw [twoTo_eq]
      push_cast
      rw [zpow_natCast]
      field_simp
  · obtain ⟨n, hn⟩ : ∃ n : Nat, e = -n := ⟨(-e).toNat, by omega⟩
    subst hn
    refine ⟨num * twoTo n, den, hden, ?_, ?_⟩
    · rw [roundScaled, if_neg he]
      simp
    · rw [twoTo_eq]
      push_cast
      rw [zpow_neg, zpow_natCast]
      field_simp

section Scaled

variable {num den k : Nat} {e : Int}

/-- A fraction that is a whole number of units is not rounded. -/
theorem roundScaled_eq (hden : 0 < den) (h : (num : ℚ) / den = k * 2 ^ e) :
    roundScaled num den e = k := by
  obtain ⟨n, d, hd, hround, hn⟩ := exists_roundScaled num hden e
  rw [hround]
  refine roundHalfEven_eq hd ?_
  have hpow : (2 : ℚ) ^ e ≠ 0 := by positivity
  rw [h, mul_div_assoc, div_self hpow, mul_one] at hn
  exact_mod_cast hn

/-- Rounding to units does not pass a whole number of them from below. -/
theorem roundScaled_le (hden : 0 < den) (h : (num : ℚ) / den ≤ k * 2 ^ e) :
    roundScaled num den e ≤ k := by
  obtain ⟨n, d, hd, hround, hn⟩ := exists_roundScaled num hden e
  rw [hround]
  refine roundHalfEven_le hd ?_
  have hpow : (0 : ℚ) < 2 ^ e := by positivity
  have hbound : (num : ℚ) / den / 2 ^ e ≤ k := (div_le_iff₀ hpow).mpr h
  have hle : (n : ℚ) ≤ k * d := by
    rw [hn]
    exact mul_le_mul_of_nonneg_right hbound (by positivity)
  exact_mod_cast hle

/-- Rounding to units does not pass a whole number of them from above. -/
theorem le_roundScaled (hden : 0 < den) (h : k * 2 ^ e ≤ (num : ℚ) / den) :
    k ≤ roundScaled num den e := by
  obtain ⟨n, d, hd, hround, hn⟩ := exists_roundScaled num hden e
  rw [hround]
  refine le_roundHalfEven hd ?_
  have hpow : (0 : ℚ) < 2 ^ e := by positivity
  have hbound : (k : ℚ) ≤ (num : ℚ) / den / 2 ^ e := (le_div_iff₀ hpow).mpr h
  have hle : (k : ℚ) * d ≤ n := by
    rw [hn]
    exact mul_le_mul_of_nonneg_right hbound (by positivity)
  exact_mod_cast hle

end Scaled

namespace Format

/-- What the last kept bit of a positive fraction counts: the fraction has no more bits
than the format keeps, and no fewer unless it counts the least power. -/
structure Scales (f : Format) (q : ℚ) (e : Int) : Prop where
  lt : q < 2 ^ (e + f.precision)
  normal : (2 : ℚ) ^ (e + f.precision - 1) ≤ q ∨ e = f.least
  least : f.least ≤ e

/-- A fraction has one scale only. -/
theorem Scales.eq {f : Format} {q : ℚ} {e e' : Int} (h : f.Scales q e) (h' : f.Scales q e') :
    e = e' := by
  -- A greater scale is not the least one, so the fraction is too large for the other.
  have hnot {e e' : Int} (h : f.Scales q e) (h' : f.Scales q e') : ¬e < e' := by
    intro hless
    have hnormal := h'.normal.resolve_right (by have := h.least; omega)
    have hpow : (2 : ℚ) ^ (e + f.precision) ≤ 2 ^ (e' + f.precision - 1) :=
      zpow_le_zpow_right₀ (by norm_num) (by omega)
    linarith [h.lt]
  have hle := hnot h h'
  have hge := hnot h' h
  omega

/-- The test for a fraction that is small enough for a scale. -/
theorem fits_iff (num : Nat) {den : Nat} (hden : 0 < den) (p : Nat) (e : Int) :
    (if 0 ≤ e then num < den * twoTo e.toNat * twoTo p
      else num * twoTo (-e).toNat < den * twoTo p) ↔ (num : ℚ) / den < 2 ^ (e + p) := by
  have hdenq : (0 : ℚ) < den := by exact_mod_cast hden
  rw [div_lt_iff₀ hdenq, zpow_add₀ (by norm_num), zpow_natCast]
  by_cases he : 0 ≤ e
  · obtain ⟨n, rfl⟩ := Int.eq_ofNat_of_zero_le he
    rw [if_pos he, twoTo_eq, twoTo_eq, zpow_natCast, Int.toNat_natCast, ← Nat.cast_lt (α := ℚ)]
    push_cast
    ring_nf
  · obtain ⟨n, hn⟩ : ∃ n : Nat, e = -n := ⟨(-e).toNat, by omega⟩
    subst hn
    rw [if_neg he, twoTo_eq, twoTo_eq, neg_neg, Int.toNat_natCast, zpow_neg, zpow_natCast,
      ← Nat.cast_lt (α := ℚ)]
    push_cast
    have hpow : (0 : ℚ) < 2 ^ n := by positivity
    rw [← lt_div_iff₀ hpow]
    ring_nf

/-- A quotient lies between the powers of two that the lengths of its parts give. -/
theorem log2_bounds {num den : Nat} (hnum : 0 < num) (hden : 0 < den) :
    (2 : ℚ) ^ ((num.log2 : Int) - den.log2 - 1) ≤ (num : ℚ) / den ∧
      (num : ℚ) / den < 2 ^ ((num.log2 : Int) - den.log2 + 1) := by
  have hdenq : (0 : ℚ) < den := by exact_mod_cast hden
  have hlow : (2 : ℚ) ^ num.log2 ≤ num := by
    exact_mod_cast Nat.log2_self_le hnum.ne'
  have hhigh : (num : ℚ) < 2 ^ (num.log2 + 1) := by
    exact_mod_cast Nat.lt_log2_self (n := num)
  have hlow' : (2 : ℚ) ^ den.log2 ≤ den := by
    exact_mod_cast Nat.log2_self_le hden.ne'
  have hhigh' : (den : ℚ) < 2 ^ (den.log2 + 1) := by
    exact_mod_cast Nat.lt_log2_self (n := den)
  have hbelow : (2 : ℚ) ^ ((num.log2 : Int) - den.log2 - 1) =
      2 ^ num.log2 / 2 ^ (den.log2 + 1) := by
    rw [sub_sub, zpow_sub₀ (by norm_num), zpow_natCast]
    exact_mod_cast rfl
  have habove : (2 : ℚ) ^ ((num.log2 : Int) - den.log2 + 1) =
      2 ^ (num.log2 + 1) / 2 ^ den.log2 := by
    rw [sub_add_eq_add_sub, zpow_sub₀ (by norm_num), zpow_natCast]
    exact_mod_cast rfl
  rw [hbelow, habove, div_le_div_iff₀ (by positivity) hdenq, div_lt_div_iff₀ hdenq (by positivity)]
  refine ⟨?_, ?_⟩
  · gcongr
  · calc (num : ℚ) * 2 ^ den.log2 ≤ num * den := by gcongr
      _ < 2 ^ (num.log2 + 1) * den := by gcongr

/-- The scale that is computed is the one. -/
theorem scales_scale (f : Format) {num den : Nat} (hnum : 0 < num) (hden : 0 < den) :
    f.Scales ((num : ℚ) / den) (f.scale num den) := by
  obtain ⟨hlow, hhigh⟩ := log2_bounds hnum hden
  -- Of two neighbouring scales the smaller one is chosen if the fraction fits.
  obtain ⟨e, hscale, hlt, hnormal⟩ : ∃ e : Int, f.scale num den = max e f.least ∧
      (num : ℚ) / den < 2 ^ (e + f.precision) ∧
      (2 : ℚ) ^ (e + f.precision - 1) ≤ (num : ℚ) / den := by
    have hfits := fits_iff num hden f.precision
      ((num.log2 : Int) - den.log2 - f.precision)
    by_cases hfit : (num : ℚ) / den <
        2 ^ ((num.log2 : Int) - den.log2 - f.precision + f.precision)
    · refine ⟨(num.log2 : Int) - den.log2 - f.precision, ?_, hfit, ?_⟩
      · have htest := hfits.mpr hfit
        unfold scale
        dsimp only
        rw [if_pos htest]
      · rwa [sub_add_cancel]
    · refine ⟨(num.log2 : Int) - den.log2 - f.precision + 1, ?_, ?_, ?_⟩
      · have htest := fun h => hfit (hfits.mp h)
        unfold scale
        dsimp only
        rw [if_neg htest]
      · rwa [add_right_comm, sub_add_cancel]
      · rw [add_right_comm, add_sub_cancel_right]
        exact not_lt.mp hfit
  rw [hscale]
  rcases le_total e f.least with hsmall | hlarge
  · rw [max_eq_right hsmall]
    refine ⟨lt_of_lt_of_le hlt ?_, .inr rfl, le_refl _⟩
    exact zpow_le_zpow_right₀ (by norm_num) (by omega)
  · rw [max_eq_left hlarge]
    exact ⟨hlt, .inl hnormal, hlarge⟩

/-- A significand and a power as a format holds them: all bits of the significand are
used, unless the power is the least one. -/
structure Holds (f : Format) (m : Nat) (e : Int) : Prop where
  lt : m < 2 ^ f.precision
  normal : 2 ^ (f.precision - 1) ≤ m ∨ e = f.least
  least : f.least ≤ e
  greatest : e ≤ f.greatest

section Holding

variable {f : Format} {m : Nat} {e : Int} {num den : Nat}

/-- A number of a format scales by its own power. -/
theorem Holds.scales (h : f.Holds m e) (hf : 0 < f.precision) : f.Scales (m * 2 ^ e) e := by
  have hpow : (0 : ℚ) < 2 ^ e := by positivity
  refine ⟨?_, ?_, h.least⟩
  · rw [add_comm, zpow_add₀ (by norm_num), zpow_natCast]
    have hlt : (m : ℚ) < 2 ^ f.precision := by exact_mod_cast h.lt
    gcongr
  · rcases h.normal with hnormal | hleast
    · have hbits : e + f.precision - 1 = ((f.precision - 1 : Nat) : Int) + e := by
        omega
      left
      rw [hbits, zpow_add₀ (by norm_num), zpow_natCast]
      have hle : (2 : ℚ) ^ (f.precision - 1) ≤ m := by exact_mod_cast hnormal
      gcongr
    · exact .inr hleast

/-- A format holds a number in one way only. -/
theorem Holds.eq {m' : Nat} {e' : Int} (hf : 0 < f.precision) (h : f.Holds m e)
    (h' : f.Holds m' e') (heq : (m : ℚ) * 2 ^ e = m' * 2 ^ e') : m = m' ∧ e = e' := by
  have hscales := h.scales hf
  rw [heq] at hscales
  obtain rfl := hscales.eq (h'.scales hf)
  have hpow : (2 : ℚ) ^ e ≠ 0 := by positivity
  have hcast := mul_right_cancel₀ hpow heq
  exact ⟨by exact_mod_cast hcast, rfl⟩

/-- **A number that a format holds is its own rounding.** -/
theorem round_eq_of_holds (hf : 0 < f.precision) (h : f.Holds m e) (hm : 0 < m) (hden : 0 < den)
    (hq : (num : ℚ) / den = m * 2 ^ e) : f.round num den = some (m, e) := by
  have hpositive : (0 : ℚ) < num / den := by
    rw [hq]
    positivity
  have hnum : 0 < num := by
    rcases Nat.eq_zero_or_pos num with rfl | hnum
    · simp at hpositive
    · exact hnum
  have hscales := f.scales_scale hnum hden
  rw [hq] at hscales
  have hscale : f.scale num den = e := hscales.eq (h.scales hf)
  have hround : roundScaled num den e = m := roundScaled_eq hden hq
  have hkept : ¬m = twoTo f.precision := Nat.ne_of_lt h.lt
  have hgreatest : ¬e > f.greatest := not_lt.mpr h.greatest
  unfold round
  dsimp only
  rw [hscale, hround, if_neg hkept]
  exact if_neg hgreatest

/-- Rounding gives nothing but what the format holds. -/
theorem holds_of_round (hf : 0 < f.precision) (hnum : 0 < num) (hden : 0 < den)
    (h : f.round num den = some (m, e)) : f.Holds m e := by
  have hscales := f.scales_scale hnum hden
  have hle : roundScaled num den (f.scale num den) ≤ 2 ^ f.precision := by
    refine roundScaled_le hden ?_
    have hlt := hscales.lt
    rw [add_comm, zpow_add₀ (by norm_num), zpow_natCast] at hlt
    push_cast
    exact hlt.le
  have hnormal : 2 ^ (f.precision - 1) ≤ roundScaled num den (f.scale num den) ∨
      f.scale num den = f.least := by
    refine hscales.normal.imp_left fun hnormal => le_roundScaled hden ?_
    have hbits : f.scale num den + f.precision - 1 =
        ((f.precision - 1 : Nat) : Int) + f.scale num den := by
      omega
    rw [hbits, zpow_add₀ (by norm_num), zpow_natCast] at hnormal
    push_cast
    exact hnormal
  have hhalf : 2 ^ (f.precision - 1) < 2 ^ f.precision :=
    Nat.pow_lt_pow_right (by norm_num) (by omega)
  have hleast := hscales.least
  unfold round at h
  dsimp only at h
  by_cases hcarry : roundScaled num den (f.scale num den) = twoTo f.precision
  · -- The significand has overflown into one more bit.
    rw [if_pos hcarry] at h
    obtain ⟨hgreatest, heq⟩ := Option.ite_none_left_eq_some.mp h
    cases heq
    exact ⟨hhalf, .inl (le_refl _), by omega, not_lt.mp hgreatest⟩
  · rw [if_neg hcarry] at h
    obtain ⟨hgreatest, heq⟩ := Option.ite_none_left_eq_some.mp h
    cases heq
    exact ⟨lt_of_le_of_ne hle hcarry, hnormal, hleast, not_lt.mp hgreatest⟩

/-- Whatever is small enough can be written as a format holds it. -/
theorem exists_holds (hf : 0 < f.precision) (hlt : m < 2 ^ f.precision) (hleast : f.least ≤ e)
    (hgreatest : e ≤ f.greatest) :
    ∃ m' e', f.Holds m' e' ∧ (m' : ℚ) * 2 ^ e' = m * 2 ^ e := by
  obtain ⟨n, hn⟩ : ∃ n : Nat, e = f.least + n := ⟨(e - f.least).toNat, by omega⟩
  induction n generalizing m e with
  | zero => exact ⟨m, e, ⟨hlt, .inr (by omega), hleast, hgreatest⟩, rfl⟩
  | succ n ih =>
      by_cases hnormal : 2 ^ (f.precision - 1) ≤ m
      · exact ⟨m, e, ⟨hlt, .inl hnormal, hleast, hgreatest⟩, rfl⟩
      · have hdouble : 2 * m < 2 ^ f.precision := by
          obtain ⟨p, hp⟩ := Nat.exists_eq_succ_of_ne_zero hf.ne'
          rw [hp, Nat.succ_sub_one] at hnormal
          rw [hp, Nat.pow_succ]
          omega
        obtain ⟨m', e', hholds, heq⟩ := ih (m := 2 * m) (e := e - 1) hdouble (by omega) (by omega)
          (by omega)
        refine ⟨m', e', hholds, heq.trans ?_⟩
        rw [zpow_sub_one₀ (by norm_num)]
        push_cast
        ring

end Holding

end Format

namespace Binary64

/-- The magnitude of a finite number. -/
def magnitude (x : Binary64) : ℚ :=
  x.significand * 2 ^ x.exponent

/-- The bits of a double: the sign above everything else. -/
theorem toNat_ofFields (negative : Bool) {n : Nat} (hn : n < 2 ^ 63) :
    (ofFields negative n).bits.toNat = (if negative then 2 ^ 63 else 0) + n := by
  unfold ofFields
  rw [UInt64.toNat_ofNat', twoTo_eq, Nat.mod_eq_of_lt]
  split <;> omega

/-- The fields of a number that was put together. -/
theorem fields_ofFields (negative : Bool) {exponent : Nat} (hexponent : exponent < 2 ^ 11)
    {fraction : Nat} (hfraction : fraction < 2 ^ 52) :
    (ofFields negative (exponent * 2 ^ 52 + fraction)).exponentField = exponent ∧
      (ofFields negative (exponent * 2 ^ 52 + fraction)).fractionField = fraction := by
  have hbits := toNat_ofFields negative (n := exponent * 2 ^ 52 + fraction) (by omega)
  unfold exponentField fractionField
  rw [hbits]
  simp only [twoTo_eq]
  cases negative with
  | false => simp only [Bool.false_eq_true, if_false]; omega
  | true => simp only [if_true]; omega

section Parts

variable {x : Binary64}

/-- A number without an exponent field has no hidden bit. -/
theorem significand_of_zero (h : x.exponentField = 0) : x.significand = x.fractionField :=
  if_pos h

/-- Every other number has the hidden bit. -/
theorem significand_of_ne_zero (h : x.exponentField ≠ 0) :
    x.significand = 2 ^ 52 + x.fractionField :=
  if_neg h

/-- A number without an exponent field counts the least power. -/
theorem exponent_of_zero (h : x.exponentField = 0) : x.exponent = -1074 :=
  if_pos h

/-- Every other number counts the power that its field is biased from. -/
theorem exponent_of_ne_zero (h : x.exponentField ≠ 0) : x.exponent = x.exponentField - 1075 :=
  if_neg h

/-- The fraction field has 52 bits. -/
theorem fractionField_lt : x.fractionField < 2 ^ 52 :=
  Nat.mod_lt _ (by decide)

/-- The exponent field has eleven bits. -/
theorem exponentField_lt : x.exponentField < 2 ^ 11 :=
  Nat.mod_lt _ (by decide)

end Parts

section Packing

variable (negative : Bool) {m : Nat} {e : Int}

/-- Without the hidden bit a significand is packed with an empty exponent field. -/
theorem pack_of_lt (h : m < 2 ^ 52) : pack negative m e = ofFields negative (0 * 2 ^ 52 + m) := by
  rw [Nat.zero_mul, Nat.zero_add]
  exact if_pos h

/-- With the hidden bit it is packed below the biased exponent. -/
theorem pack_of_le (h : 2 ^ 52 ≤ m) :
    pack negative m e = ofFields negative ((e + 1075).toNat * 2 ^ 52 + (m - 2 ^ 52)) :=
  if_neg (Nat.not_lt.mpr h)

/-- A number that was put together has the significand and the power it was made of. -/
theorem parts_pack (h : Format.double.Holds m e) :
    (pack negative m e).significand = m ∧ (pack negative m e).exponent = e := by
  have hlt : m < 2 ^ 53 := h.lt
  have hnormal : 2 ^ 52 ≤ m ∨ e = -1074 := h.normal
  have hleast : -1074 ≤ e := h.least
  have hgreatest : e ≤ 971 := h.greatest
  rcases Nat.lt_or_ge m (2 ^ 52) with hsmall | hlarge
  · have hzero : 0 < 2 ^ 11 := by norm_num
    obtain ⟨hexponent, hfraction⟩ := fields_ofFields negative hzero hsmall
    rw [pack_of_lt negative hsmall, significand_of_zero hexponent, exponent_of_zero hexponent,
      hfraction]
    exact ⟨rfl, (hnormal.resolve_left (Nat.not_le.mpr hsmall)).symm⟩
  · have hbiased : (e + 1075).toNat < 2 ^ 11 := by omega
    have hrest : m - 2 ^ 52 < 2 ^ 52 := by omega
    obtain ⟨hexponent, hfraction⟩ := fields_ofFields negative hbiased hrest
    rw [pack_of_le negative hlarge, significand_of_ne_zero (by omega),
      exponent_of_ne_zero (by omega), hexponent, hfraction]
    omega

end Packing

/-- A finite double is one of the numbers of double precision. -/
theorem holds_of_isFinite {x : Binary64} (h : x.isFinite = true) :
    Format.double.Holds x.significand x.exponent := by
  have hfraction := x.fractionField_lt
  have hexponent := x.exponentField_lt
  have hfinite : x.exponentField ≠ 2047 := by simpa [isFinite] using h
  by_cases hzero : x.exponentField = 0
  · rw [significand_of_zero hzero, exponent_of_zero hzero]
    refine ⟨?_, .inr rfl, ?_, ?_⟩ <;> simp only [Format.double] <;> omega
  · rw [significand_of_ne_zero hzero, exponent_of_ne_zero hzero]
    refine ⟨?_, .inl ?_, ?_, ?_⟩ <;> simp only [Format.double] <;> omega

/-- A double is its sign and its two fields. -/
theorem ofFields_eq (x : Binary64) :
    ofFields x.isNegative (x.exponentField * 2 ^ 52 + x.fractionField) = x := by
  have hfraction := x.fractionField_lt
  have hexponent := x.exponentField_lt
  have hbits := x.bits.toNat_lt
  have hfields : (ofFields x.isNegative (x.exponentField * 2 ^ 52 + x.fractionField)).bits =
      x.bits := by
    have hsign : x.isNegative = true ↔ 2 ^ 63 ≤ x.bits.toNat := decide_eq_true_iff
    rw [← UInt64.toNat_inj, toNat_ofFields _ (by omega), if_congr hsign rfl rfl]
    unfold exponentField fractionField
    simp only [twoTo_eq]
    split <;> omega
  cases x with
  | mk bits => exact congrArg mk hfields

/-- A double is put together from its sign, its significand and its power. -/
theorem pack_eq (x : Binary64) :
    pack x.isNegative x.significand x.exponent = x := by
  have hfraction := x.fractionField_lt
  by_cases hzero : x.exponentField = 0
  · have hfields := x.ofFields_eq
    rw [hzero] at hfields
    rw [significand_of_zero hzero, pack_of_lt _ hfraction, hfields]
  · have hfields : (x.exponent + 1075).toNat * 2 ^ 52 + (x.significand - 2 ^ 52) =
        x.exponentField * 2 ^ 52 + x.fractionField := by
      rw [significand_of_ne_zero hzero, exponent_of_ne_zero hzero]
      omega
    rw [pack_of_le _ (by rw [significand_of_ne_zero hzero]; omega), hfields, ofFields_eq]

end Binary64

/-- A format whose numbers are numbers of double precision. -/
structure Format.Within (f : Format) : Prop where
  positive : 0 < f.precision
  precision : f.precision ≤ 53
  least : -1074 ≤ f.least
  nonempty : f.least ≤ f.greatest
  greatest : f.greatest ≤ 971

/-- Double precision is within itself. -/
theorem Format.within_double : Format.double.Within :=
  ⟨by decide, by decide, by decide, by decide, by decide⟩

/-- Single precision is within double precision. -/
theorem Format.within_single : Format.single.Within :=
  ⟨by decide, by decide, by decide, by decide, by decide⟩

/-- The doubles that a format has: its numbers, the infinities, and what is not a
number. -/
def Format.Has (f : Format) (x : Binary64) : Prop :=
  x.isFinite = true → ∃ m e, f.Holds m e ∧ x.magnitude = m * 2 ^ e

/-- A significand and a power as a fraction of natural numbers. -/
theorem exists_fraction {α : Type} (F : Nat → Nat → α) (m : Nat) (e : Int) :
    ∃ num den : Nat, 0 < den ∧ (num : ℚ) / den = m * 2 ^ e ∧
      (if 0 ≤ e then F (m * twoTo e.toNat) 1 else F m (twoTo (-e).toNat)) = F num den := by
  by_cases he : 0 ≤ e
  · obtain ⟨n, rfl⟩ := Int.eq_ofNat_of_zero_le he
    refine ⟨m * twoTo n, 1, by norm_num, ?_, ?_⟩
    · rw [twoTo_eq]
      push_cast
      rw [zpow_natCast, div_one]
    · rw [if_pos he]
      rfl
  · obtain ⟨n, hn⟩ : ∃ n : Nat, e = -n := ⟨(-e).toNat, by omega⟩
    subst hn
    refine ⟨m, twoTo n, by rw [twoTo_eq]; positivity, ?_, ?_⟩
    · rw [twoTo_eq, zpow_neg, zpow_natCast]
      push_cast
      rw [div_eq_mul_inv]
    · rw [if_neg he, neg_neg, Int.toNat_natCast]

section Formats

variable {f : Format} {m num den : Nat} {e : Int}

/-- Every format has both zeros. -/
theorem Format.has_zero (hf : f.Within) (negative : Bool) : f.Has (.ofFields negative 0) := by
  intro _
  have hzero : 0 < 2 ^ 11 := by norm_num
  have hzero' : 0 < 2 ^ 52 := by norm_num
  obtain ⟨hexponent, hfraction⟩ := Binary64.fields_ofFields negative hzero hzero'
  refine ⟨0, f.least, ⟨by positivity, .inr rfl, le_refl _, hf.nonempty⟩, ?_⟩
  rw [Nat.zero_mul, Nat.zero_add] at hexponent hfraction
  rw [Binary64.magnitude, Binary64.significand_of_zero hexponent, hfraction]
  simp

/-- Every format has what is not finite. -/
theorem Format.has_of_not_finite {x : Binary64} (hx : x.isFinite = false) : f.Has x := by
  intro hfinite
  rw [hx] at hfinite
  cases hfinite

/-- The infinities are not finite. -/
theorem Binary64.isFinite_infinity (negative : Bool) : (infinity negative).isFinite = false := by
  cases negative <;> decide

/-- What is not a number is not finite. -/
theorem Binary64.isFinite_notANumber : notANumber.isFinite = false := by
  decide +kernel

/-- A number of a format is one that the format has when it is packed as a double. -/
theorem Format.has_pack {m' : Nat} {e' : Int} (negative : Bool) (h : f.Holds m e)
    (h' : Format.double.Holds m' e') (heq : (m' : ℚ) * 2 ^ e' = m * 2 ^ e) :
    f.Has (.pack negative m' e') := by
  intro _
  obtain ⟨hsignificand, hexponent⟩ := Binary64.parts_pack negative h'
  refine ⟨m, e, h, ?_⟩
  rw [Binary64.magnitude, hsignificand, hexponent, heq]

namespace Binary64

/-- A number of a format is put together as the double that it is. -/
theorem exists_ofFraction (hf : f.Within) (h : f.Holds m e) (hm : 0 < m) (hden : 0 < den)
    (hq : (num : ℚ) / den = m * 2 ^ e) (negative : Bool) :
    ∃ m' e', Format.double.Holds m' e' ∧ (m' : ℚ) * 2 ^ e' = m * 2 ^ e ∧
      ofFraction negative num den = pack negative m' e' := by
  have hprecision : 2 ^ f.precision ≤ 2 ^ 53 := Nat.pow_le_pow_right (by norm_num) hf.precision
  obtain ⟨m', e', hholds, heq⟩ := Format.exists_holds Format.within_double.positive
    (lt_of_lt_of_le h.lt hprecision) (hf.least.trans h.least) (h.greatest.trans hf.greatest)
  have hm' : 0 < m' := by
    rcases Nat.eq_zero_or_pos m' with rfl | hpos
    · have hpositive : (0 : ℚ) < m * 2 ^ e := by positivity
      rw [← heq] at hpositive
      simp at hpositive
    · exact hpos
  have hround : Format.double.round num den = some (m', e') :=
    Format.round_eq_of_holds Format.within_double.positive hholds hm' hden (hq.trans heq.symm)
  refine ⟨m', e', hholds, heq, ?_⟩
  unfold ofFraction
  rw [hround]

/-- A fraction that is rounded to something becomes the double that this is. -/
theorem ofFractionIn_of_round (hf : f.Within) (hnum : 0 < num)
    (hround : f.round num den = some (m, e)) (h : f.Holds m e) (hm : 0 < m) (negative : Bool) :
    ∃ m' e', Format.double.Holds m' e' ∧ (m' : ℚ) * 2 ^ e' = m * 2 ^ e ∧
      ofFractionIn f negative num den = pack negative m' e' := by
  obtain ⟨num', den', hden', hq, hfraction⟩ := exists_fraction (ofFraction negative) m e
  obtain ⟨m', e', hholds', heq, hpack⟩ := exists_ofFraction hf h hm hden' hq negative
  refine ⟨m', e', hholds', heq, ?_⟩
  rw [ofFractionIn, if_neg hnum.ne', hround]
  dsimp only
  rw [if_neg hm.ne', hfraction, hpack]

end Binary64

/-- **What is brought to a format becomes one of its doubles.** -/
theorem Format.has_ofFractionIn (hf : f.Within) (hden : 0 < den) (negative : Bool) :
    f.Has (.ofFractionIn f negative num den) := by
  rcases Nat.eq_zero_or_pos num with rfl | hnum
  · exact has_zero hf negative
  · cases hround : f.round num den with
    | none =>
        rw [Binary64.ofFractionIn, if_neg hnum.ne', hround]
        exact has_of_not_finite (Binary64.isFinite_infinity negative)
    | some p =>
        obtain ⟨m, e⟩ := p
        have hholds := holds_of_round hf.positive hnum hden hround
        rcases Nat.eq_zero_or_pos m with rfl | hm
        · rw [Binary64.ofFractionIn, if_neg hnum.ne', hround]
          exact has_zero hf negative
        · obtain ⟨m', e', hholds', heq, hpack⟩ :=
            Binary64.ofFractionIn_of_round hf hnum hround hholds hm negative
          rw [hpack]
          exact has_pack negative hholds hholds' heq

/-- A whole number is rounded to one that the format has. -/
theorem Format.has_ofInt (hf : f.Within) (n : Int) : f.Has (.ofInt f n) :=
  has_ofFractionIn hf (by norm_num) _

/-- A double is rounded to one that the format has. -/
theorem Format.has_toFormat (hf : f.Within) (x : Binary64) : f.Has (x.toFormat f) := by
  cases hfinite : x.isFinite with
  | false =>
      rw [Binary64.toFormat, if_neg (Bool.eq_false_iff.mp hfinite)]
      exact has_of_not_finite hfinite
  | true =>
      obtain ⟨num, den, hden, _, hfraction⟩ :=
        exists_fraction (Binary64.ofFractionIn f x.isNegative) x.significand x.exponent
      rw [Binary64.toFormat, if_pos hfinite, hfraction]
      exact has_ofFractionIn hf hden _

/-- A decimal is rounded to one that the format has. -/
theorem Format.has_toBinary (hf : f.Within) (negative : Bool) (d : Decimal) :
    f.Has (d.toBinary f negative) := by
  have hinfinity := has_of_not_finite (f := f) (Binary64.isFinite_infinity negative)
  have hten (n : Nat) : 0 < tenTo n := Nat.pow_pos (by norm_num)
  unfold Decimal.toBinary
  dsimp only
  split_ifs
  · exact has_zero hf negative
  · exact hinfinity
  · exact has_zero hf negative
  · exact has_ofFractionIn hf (by norm_num) _
  · exact has_ofFractionIn hf (hten _) _

/-- A number that is read from a text is one of the doubles of its format. -/
theorem Format.has_read? (hf : f.Within) {cs : List Char} {x : Binary64}
    (h : Binary64.read? f cs = some x) : f.Has x := by
  have hword {negative : Bool} {word : String} {y : Binary64}
      (h : (if word = "inf" || word = "infinity" then some (.infinity negative)
        else if word = "nan" then some .notANumber else none) = some y) : f.Has y := by
    split_ifs at h
    · rw [← Option.some.inj h]
      exact has_of_not_finite (Binary64.isFinite_infinity negative)
    · rw [← Option.some.inj h]
      exact has_of_not_finite Binary64.isFinite_notANumber
  unfold Binary64.read? at h
  dsimp only at h
  split at h
  · cases h
    exact has_toBinary hf _ _
  · exact hword h

/-- **A double of a format is not changed by it.** -/
theorem Binary64.toFormat_of_has (hf : f.Within) {x : Binary64} (h : f.Has x) :
    x.toFormat f = x := by
  cases hfinite : x.isFinite with
  | false => exact if_neg (Bool.eq_false_iff.mp hfinite)
  | true =>
      obtain ⟨m, e, hholds, hmagnitude⟩ := h hfinite
      obtain ⟨num, den, hden, hq, hfraction⟩ :=
        exists_fraction (ofFractionIn f x.isNegative) x.significand x.exponent
      rw [toFormat, if_pos hfinite, hfraction]
      have hvalue : (num : ℚ) / den = m * 2 ^ e := hq.trans hmagnitude
      have hdenq : (den : ℚ) ≠ 0 := by positivity
      have hown := holds_of_isFinite hfinite
      rcases Nat.eq_zero_or_pos num with rfl | hnum
      · -- A zero keeps its sign.
        have hzero : x.significand = 0 := by
          have hpow : (2 : ℚ) ^ x.exponent ≠ 0 := by positivity
          rw [Nat.cast_zero, zero_div] at hq
          exact_mod_cast (mul_eq_zero.mp hq.symm).resolve_right hpow
        have hpack := x.pack_eq
        rw [hzero, pack_of_lt _ (by norm_num)] at hpack
        exact hpack
      · have hm : 0 < m := by
          rcases Nat.eq_zero_or_pos m with rfl | hm
          · rw [Nat.cast_zero, zero_mul, div_eq_zero_iff] at hvalue
            exact absurd (hvalue.resolve_right hdenq) (by positivity)
          · exact hm
        have hround := Format.round_eq_of_holds hf.positive hholds hm hden hvalue
        obtain ⟨m', e', hholds', heq, hpack⟩ :=
          ofFractionIn_of_round hf hnum hround hholds hm x.isNegative
        obtain ⟨rfl, rfl⟩ := hholds'.eq Format.within_double.positive hown
          (heq.trans hmagnitude.symm)
        rw [hpack, x.pack_eq]

/-- Every double is one of double precision. -/
theorem Format.has_double (x : Binary64) : Format.double.Has x :=
  fun hfinite => ⟨x.significand, x.exponent, Binary64.holds_of_isFinite hfinite, rfl⟩

end Formats

end TableMapper
