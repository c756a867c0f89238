import TableMapper.Proofs.CalendarReading
import TableMapper.Proofs.QuotedReading
import TableMapper.Storage

/-!
# Temporal literals

A declared column type names a temporal type in many spellings, and a moment is written
for it to the declared number of digits.  This file says which spellings there are and
what a column makes of the text of the literal.

* `Precision`, `Spells` — the ways to write a temporal type;
* `ofSqlType?_eq_base_iff`, `ofSqlType?_eq_day_iff` — these spellings are read, and no
  others;
* `temporalLiteral_reading` — the literal of a moment, and the moment that is read from it;
* `temporalLiteral_withinMinute` — a moment that is not read back.
-/

namespace TableMapper

open Text (Blanks Solid Compact isBlank isDecimalDigit)

/-- A decimal digit is an ASCII one or far behind the ASCII characters. -/
theorem toNat_of_isDecimalDigit {c : Char} (hc : isDecimalDigit c = true) :
    (48 ≤ c.toNat ∧ c.toNat ≤ 57) ∨ 0x660 ≤ c.toNat := by
  have hzeros : ∀ z ∈ Text.digitZeros, z = 48 ∨ 0x660 ≤ z := by decide
  obtain ⟨z, hz, hrange⟩ := List.any_eq_true.mp hc
  have hlow := hzeros z hz
  simp only [Bool.and_eq_true, decide_eq_true_eq] at hrange
  omega

/-- A decimal digit is no blank. -/
theorem isBlank_of_isDecimalDigit {c : Char} (hc : isDecimalDigit c = true) :
    isBlank c = false := by
  -- no run of ten digits touches a run of blanks
  have hzeros : ∀ z ∈ Text.digitZeros, (0x20 < z ∧ z + 10 ≤ 0x85) ∨
      (0xA0 < z ∧ z + 10 ≤ 0x1680) ∨ (0x1680 < z ∧ z + 10 ≤ 0x2000) ∨ 0x3000 < z := by decide
  obtain ⟨z, hz, hrange⟩ := List.any_eq_true.mp hc
  have hapart := hzeros z hz
  simp only [Bool.and_eq_true, decide_eq_true_eq] at hrange
  refine Bool.eq_false_iff.mpr fun hblank => ?_
  have hcodes := Text.isBlank_iff.mp hblank
  omega

/-- An ASCII digit is a decimal digit. -/
theorem isDecimalDigit_of_isDigit {c : Char} (hc : c.isDigit = true) :
    isDecimalDigit c = true := by
  have hrange := toNat_of_isDigit hc
  refine List.any_eq_true.mpr ⟨48, by decide, ?_⟩
  simp only [Bool.and_eq_true, decide_eq_true_eq]
  omega

/-- A character that stands for so many digits: the ASCII digit, or for none a digit of
another script. -/
def StandsFor (n : Nat) (d : Char) : Prop :=
  (n < 10 ∧ d = n.digitChar) ∨ (n = 0 ∧ isDecimalDigit d = true ∧ d.isDigit = false)

/-- What is written behind the name of a temporal type for so many digits of the second's
fraction: nothing for none, or one digit, with either bracket or without it and with
blanks between them. -/
inductive Precision : Nat → List Char → Prop
  | absent : Precision 0 []
  | digit {n : Nat} {b b' opening closing : List Char} {d : Char} (hb : Blanks b)
      (hb' : Blanks b') (hopening : opening = [] ∨ opening = ['('])
      (hclosing : closing = [] ∨ ∃ b'', Blanks b'' ∧ closing = b'' ++ [')'])
      (hd : StandsFor n d) : Precision n (b ++ (opening ++ (b' ++ d :: closing)))

/-- A text of a name, in letters of either case, and what is written behind it, with
blanks around both. -/
def SpelledWith (name : String) (precision : List Char) (s : String) : Prop :=
  ∃ b letters b', Blanks b ∧ Blanks b' ∧ letters.map Char.toLower = name.toList ∧
    s.toList = b ++ ((letters ++ precision) ++ b')

/-- A text that spells a temporal type with so many digits of the second's fraction. -/
def Spells (name : String) (n : Nat) (s : String) : Prop :=
  ∃ precision, Precision n precision ∧ SpelledWith name precision s

/-- A digit stands for its value, and for none if it is not an ASCII one. -/
theorem standsFor_iff {n : Nat} {d : Char} :
    StandsFor n d ↔
      isDecimalDigit d = true ∧ (if d.isDigit then d.toNat - '0'.toNat else 0) = n := by
  constructor
  · rintro (⟨hn, rfl⟩ | ⟨rfl, hd, hdigit⟩)
    · have hdigit : n.digitChar.isDigit = true := by simp [hn]
      have hvalue : n.digitChar.toNat = 48 + n := Nat.toNat_digitChar_of_lt_ten hn
      refine ⟨isDecimalDigit_of_isDigit hdigit, ?_⟩
      rw [if_pos hdigit, hvalue]
      exact Nat.add_sub_cancel_left 48 n
    · exact ⟨hd, by simp [hdigit]⟩
  · rintro ⟨hd, hvalue⟩
    by_cases hdigit : d.isDigit = true
    · rw [if_pos hdigit] at hvalue
      have hrange := toNat_of_isDigit hdigit
      have hzero : '0'.toNat = 48 := rfl
      have hn : n < 10 := by omega
      refine .inl ⟨hn, Char.toNat_inj.mp ?_⟩
      rw [Nat.toNat_digitChar_of_lt_ten hn]
      omega
    · rw [if_neg hdigit] at hvalue
      exact .inr ⟨hvalue.symm, hd, Bool.eq_false_iff.mpr hdigit⟩

/-- One digit stands for nine at most. -/
theorem StandsFor.le {n : Nat} {d : Char} (h : StandsFor n d) : n ≤ 9 := by
  rcases h with ⟨hn, _⟩ | ⟨hn, _⟩
  · omega
  · omega

namespace Precision

variable {n : Nat} {cs : List Char}

/-- There are nine digits at most. -/
theorem le (h : Precision n cs) : n ≤ 9 := by
  cases h with
  | absent => decide
  | digit _ _ _ _ hd => exact hd.le

/-- Without a precision there are no digits. -/
theorem eq_zero (h : Precision n cs) (hnil : cs = []) : n = 0 := by
  cases h with
  | absent => rfl
  | digit => simp at hnil

/-- It ends with no blank. -/
theorem isBlank_getLast? (h : Precision n cs) : ∀ c ∈ cs.getLast?, isBlank c = false := by
  cases h with
  | absent =>
      intro c hc
      cases hc
  | @digit n b b' opening closing d hb hb' hopening hclosing hd =>
      intro c hc
      rw [← List.append_assoc, ← List.append_assoc,
        List.getLast?_append_of_ne_nil _ (List.cons_ne_nil d closing)] at hc
      rcases hclosing with rfl | ⟨b'', _, rfl⟩
      · rw [← Option.some.inj hc]
        exact isBlank_of_isDecimalDigit (standsFor_iff.mp hd).1
      · rw [← List.cons_append, List.getLast?_concat] at hc
        rw [← Option.some.inj hc]
        decide

/-- It has no letters. -/
theorem toNat_of_mem (h : Precision n cs) {c : Char} (hc : c ∈ cs) :
    c.toNat < 65 ∨ 122 < c.toNat := by
  have hblank {d : Char} (hd : isBlank d = true) : d.toNat < 65 ∨ 122 < d.toNat := by
    have hcodes := Text.isBlank_iff.mp hd
    omega
  cases h with
  | absent => cases hc
  | @digit n b b' opening closing d hb hb' hopening hclosing hd =>
      simp only [List.mem_append, List.mem_cons] at hc
      rcases hc with hc | hc | hc | rfl | hc
      · exact hblank (hb c hc)
      · rcases hopening with rfl | rfl
        · cases hc
        · rw [List.mem_singleton.mp hc]
          decide
      · exact hblank (hb' c hc)
      · have hrange := toNat_of_isDecimalDigit (standsFor_iff.mp hd).1
        omega
      · rcases hclosing with rfl | ⟨b'', hb'', rfl⟩
        · cases hc
        · rcases List.mem_append.mp hc with hc | hc
          · exact hblank (hb'' c hc)
          · rw [List.mem_singleton.mp hc]
            decide

end Precision

namespace TemporalType

/-- The character itself is passed over. -/
theorem dropOne_self (c : Char) (cs : List Char) : dropOne c (c :: cs) = cs := by
  rw [dropOne, if_pos rfl]

/-- No other character is passed over. -/
theorem dropOne_of_ne {c d : Char} (h : d ≠ c) (cs : List Char) :
    dropOne c (d :: cs) = d :: cs := by
  rw [dropOne, if_neg h]

/-- A character that is passed over was there, or nothing was. -/
theorem exists_dropOne (c : Char) (cs : List Char) :
    ∃ front, (front = [] ∨ front = [c]) ∧ cs = front ++ dropOne c cs := by
  cases cs with
  | nil => exact ⟨[], .inl rfl, rfl⟩
  | cons d cs =>
      by_cases hd : d = c
      · rw [hd, dropOne_self]
        exact ⟨[c], .inr rfl, rfl⟩
      · rw [dropOne_of_ne hd]
        exact ⟨[], .inl rfl, rfl⟩

/-- A precision that is written is read. -/
theorem precision?_of_precision {n : Nat} {cs : List Char} (h : Precision n cs) (hne : cs ≠ []) :
    precision? cs = some n := by
  cases h with
  | absent => exact absurd rfl hne
  | @digit n b b' opening closing d hb hb' hopening hclosing hd =>
      obtain ⟨hdecimal, hvalue⟩ := standsFor_iff.mp hd
      have hblank : isBlank d = false := isBlank_of_isDecimalDigit hdecimal
      have hstop : (d :: closing).dropWhile isBlank = d :: closing :=
        List.dropWhile_cons_of_neg (by simp [hblank])
      have hfront : (dropOne '(' ((b ++ (opening ++ (b' ++ d :: closing))).dropWhile
          isBlank)).dropWhile isBlank = d :: closing := by
        rw [hb.dropWhile_append]
        rcases hopening with rfl | rfl
        · have hparen : d ≠ '(' := by
            rintro rfl
            revert hdecimal
            decide
          rw [List.nil_append, hb'.dropWhile_append, hstop, dropOne_of_ne hparen, hstop]
        · have hparen : isBlank '(' = false := by decide
          rw [List.singleton_append, List.dropWhile_cons_of_neg (by simp [hparen]), dropOne_self,
            hb'.dropWhile_append, hstop]
      have hback : dropOne ')' (closing.dropWhile isBlank) = [] := by
        rcases hclosing with rfl | ⟨b'', hb'', rfl⟩
        · rfl
        · rw [hb''.dropWhile_append]
          decide
      rw [precision?, hfront]
      simp only [hdecimal, hback, List.isEmpty_nil, Bool.and_self, if_true, hvalue]

/-- What is read as a precision is written as one. -/
theorem precision_of_precision? {n : Nat} {cs : List Char} (h : precision? cs = some n)
    (hend : ∀ c ∈ cs.getLast?, isBlank c = false) : Precision n cs := by
  obtain ⟨opening, hopening, hinner⟩ := exists_dropOne '(' (cs.dropWhile isBlank)
  have hcs : cs = cs.takeWhile isBlank ++ (opening ++
      ((dropOne '(' (cs.dropWhile isBlank)).takeWhile isBlank ++
        (dropOne '(' (cs.dropWhile isBlank)).dropWhile isBlank)) := by
    rw [List.takeWhile_append_dropWhile, ← hinner, List.takeWhile_append_dropWhile]
  rw [precision?] at h
  split at h
  · rename_i d rest hdigit
    split at h
    · rename_i hshape
      obtain ⟨hdecimal, hempty⟩ := Bool.and_eq_true_iff.mp hshape
      rw [hdigit] at hcs
      obtain ⟨last, hlast, hrest⟩ := exists_dropOne ')' (rest.dropWhile isBlank)
      rw [List.isEmpty_iff.mp hempty, List.append_nil] at hrest
      have hclosing : rest = rest.takeWhile isBlank ++ last := by
        rw [← hrest, List.takeWhile_append_dropWhile]
      rw [hcs]
      refine .digit (Text.blanks_takeWhile cs) (Text.blanks_takeWhile _) hopening ?_
        (standsFor_iff.mpr ⟨hdecimal, Option.some.inj h⟩)
      rcases hlast with rfl | rfl
      -- blanks at the very end have been trimmed away
      · rw [List.append_nil] at hclosing
        refine .inl (List.eq_nil_iff_forall_not_mem.mpr fun c hc => ?_)
        obtain ⟨e, he⟩ := Option.isSome_iff_exists.mp
          (List.getLast?_isSome.mpr (List.ne_nil_of_mem hc))
        have hsolid : isBlank e = false := by
          apply hend
          rw [hcs, ← List.append_assoc, ← List.append_assoc,
            List.getLast?_append_of_ne_nil _ (List.cons_ne_nil d rest), List.getLast?_cons, he]
          rfl
        have hblank := Text.blanks_takeWhile rest e (hclosing ▸ List.mem_of_mem_getLast? he)
        rw [hsolid] at hblank
        cases hblank
      · exact .inr ⟨rest.takeWhile isBlank, Text.blanks_takeWhile rest, hclosing⟩
    · cases h
  · cases h

/-- The characters of a type in lower case without the blanks around it. -/
theorem toList_lower_trim (s : String) :
    (Text.lower (Text.trim s)).toList = (Text.trimChars s.toList).map Char.toLower := by
  rw [Text.lower, String.toList_map, Text.trim, String.toList_ofList]

/-- A precision has no letters of either case. -/
theorem map_toLower_of_precision {n : Nat} {cs : List Char} (h : Precision n cs) :
    cs.map Char.toLower = cs := by
  refine (List.map_congr_left fun c hc => ?_).trans (List.map_id cs)
  have hrange := h.toNat_of_mem hc
  have hlower := Text.toNat_toLower c
  rw [if_neg (by omega)] at hlower
  exact Char.toNat_inj.mp hlower

/-- A text is spelled with a name exactly if it is the name in small letters once outer
blanks are left out. -/
theorem spelledWith_iff {name s : String} {n : Nat} {precision : List Char}
    (hname : Solid name.toList) (hne : name.toList ≠ []) (h : Precision n precision) :
    SpelledWith name precision s ↔
      (Text.lower (Text.trim s)).toList = name.toList ++ precision := by
  rw [toList_lower_trim]
  constructor
  · rintro ⟨b, letters, b', hb, hb', hletters, hs⟩
    have hsolid : Solid letters := by
      intro c hc
      rw [← Text.isBlank_toLower]
      exact hname _ (hletters ▸ List.mem_map_of_mem hc)
    have hfirst : letters ≠ [] := by
      rintro rfl
      exact hne hletters.symm
    have hcompact : Compact (letters ++ precision) := by
      refine ⟨?_, ?_⟩
      · intro c hc
        rw [List.head?_append_of_ne_nil _ hfirst] at hc
        exact hsolid.compact.1 c hc
      · intro c hc
        rw [List.getLast?_append, Option.mem_def, Option.or_eq_some_iff] at hc
        rcases hc with hc | ⟨_, hc⟩
        · exact h.isBlank_getLast? c hc
        · exact hsolid.compact.2 c hc
    rw [Text.trimChars_eq_iff.mpr ⟨hcompact, b, b', hb, hb', hs⟩, List.map_append, hletters,
      map_toLower_of_precision h]
  · intro hlower
    obtain ⟨_, b, b', hb, hb', hs⟩ := Text.exists_trimChars s.toList
    obtain ⟨letters, rest, hbody, hletters, hrest⟩ := List.map_eq_append_iff.mp hlower
    have hsame : rest = precision := by
      rw [← hrest]
      refine ((List.map_congr_left fun c hc => ?_).trans (List.map_id rest)).symm
      have hrange := h.toNat_of_mem (hrest ▸ List.mem_map_of_mem hc)
      rcases Text.toLower_eq_or c with hc | hc
      · exact hc
      · omega
    refine ⟨b, letters, b', hb, hb', hletters, ?_⟩
    rw [← hsame, ← hbody]
    exact hs

/-- Where the ASCII letters stand among the characters. -/
theorem toNat_of_isAlpha {c : Char} (hc : c.isAlpha = true) : 65 ≤ c.toNat ∧ c.toNat ≤ 122 := by
  have hbounds : (decide (c.val ≥ 65 ∧ c.val ≤ 90) || c.val ≥ 97 && c.val ≤ 122) = true := hc
  simp only [Bool.or_eq_true, Bool.and_eq_true, decide_eq_true_eq, ge_iff_le,
    UInt32.le_iff_toNat_le] at hbounds
  simp only [← Char.toNat_val]
  rcases hbounds with ⟨hlow, hhigh⟩ | ⟨hlow, hhigh⟩
  · exact ⟨hlow, hhigh.trans (by decide)⟩
  · exact ⟨le_trans (by decide) hlow, hhigh⟩

/-- What stands behind a name goes on with no letter. -/
theorem takeWhile_isAlpha {n : Nat} {name precision : List Char} (h : Precision n precision)
    (hname : ∀ c ∈ name, c.isAlpha = true) :
    (name ++ precision).takeWhile Char.isAlpha = name := by
  rw [List.takeWhile_append_of_pos hname]
  cases precision with
  | nil => simp
  | cons c cs =>
      have hc : ¬c.isAlpha = true := by
        intro halpha
        have hrange := toNat_of_isAlpha halpha
        have hletter := h.toNat_of_mem List.mem_cons_self
        omega
      rw [List.takeWhile_cons_of_neg hc, List.append_nil]

/-- Three names can have a precision. -/
theorem ofBase?_eq_some {cs : List Char} {make : Nat → TemporalType}
    (h : ofBase? cs = some make) :
    (make = moment ∧ (cs = "datetime".toList ∨ cs = "timestamp".toList)) ∨
      (make = clock ∧ cs = "time".toList) := by
  unfold ofBase? at h
  split at h
  · rename_i hcs
    rw [Bool.or_eq_true, decide_eq_true_eq, decide_eq_true_eq] at hcs
    exact .inl ⟨(Option.some.inj h).symm, hcs⟩
  · split at h
    · rename_i hcs
      exact .inr ⟨(Option.some.inj h).symm, hcs⟩
    · cases h

/-- The names that may carry a number of digits are made of letters. -/
theorem isAlpha_of_ofBase? {cs : List Char} {make : Nat → TemporalType}
    (h : ofBase? cs = some make) : ∀ c ∈ cs, c.isAlpha = true := by
  rcases ofBase?_eq_some h with ⟨_, rfl | rfl⟩ | ⟨_, rfl⟩ <;> exact List.all_eq_true.mp (by decide)

/-- None of them is empty. -/
theorem ne_nil_of_ofBase? {cs : List Char} {make : Nat → TemporalType}
    (h : ofBase? cs = some make) : cs ≠ [] := by
  rcases ofBase?_eq_some h with ⟨_, rfl | rfl⟩ | ⟨_, rfl⟩ <;> decide

/-- Types that are the same were made in the same way from the same number of digits. -/
theorem eq_of_ofBase? {cs cs' : List Char} {make make' : Nat → TemporalType} {n n' : Nat}
    (h : ofBase? cs = some make) (h' : ofBase? cs' = some make') (heq : make n = make' n') :
    n = n' ∧ make = make' := by
  rcases ofBase?_eq_some h with ⟨rfl, _⟩ | ⟨rfl, _⟩
  · rcases ofBase?_eq_some h' with ⟨rfl, _⟩ | ⟨rfl, _⟩
    · exact ⟨TemporalType.moment.inj heq, rfl⟩
    · cases heq
  · rcases ofBase?_eq_some h' with ⟨rfl, _⟩ | ⟨rfl, _⟩
    · cases heq
    · exact ⟨TemporalType.clock.inj heq, rfl⟩

/-- The names of the types that are written with date and clock reading. -/
def momentNames : List String :=
  ["datetime", "timestamp"]

/-- Two of them are those of types with date and clock reading. -/
theorem mem_momentNames_iff {name : String} :
    name ∈ momentNames ↔ ofBase? name.toList = some moment := by
  constructor
  · intro h
    rcases List.mem_pair.mp h with rfl | rfl <;> rfl
  · intro h
    rcases ofBase?_eq_some h with ⟨_, hname | hname⟩ | ⟨hmake, _⟩
    · rw [String.toList_injective hname]
      decide
    · rw [String.toList_injective hname]
      decide
    · cases congrFun hmake 0

/-- Letters are no blanks. -/
theorem solid_of_isAlpha {cs : List Char} (h : ∀ c ∈ cs, c.isAlpha = true) : Solid cs := by
  intro c hc
  have hrange := toNat_of_isAlpha (h c hc)
  refine Bool.eq_false_iff.mpr fun hblank => ?_
  have hcodes := Text.isBlank_iff.mp hblank
  omega

/-- A name with a precision is no name. -/
theorem append_precision_ne {n : Nat} {name precision other : List Char}
    (h : Precision n precision) (hne : precision ≠ []) (hname : ∀ c ∈ name, c.isAlpha = true)
    (hother : ∀ c ∈ other, c.isAlpha = true) : name ++ precision ≠ other := by
  intro heq
  have htake := takeWhile_isAlpha h hname
  have hself : other.takeWhile Char.isAlpha = other := List.takeWhile_eq_self_iff.mpr hother
  rw [heq, hself, ← heq] at htake
  exact hne (List.append_right_eq_self.mp htake)

/-- No other name can have a precision. -/
theorem ofBase?_eq_none {cs : List Char} (hdatetime : cs ≠ "datetime".toList)
    (htimestamp : cs ≠ "timestamp".toList) (htime : cs ≠ "time".toList) :
    ofBase? cs = none := by
  rw [ofBase?, if_neg (by simp only [hdatetime, htimestamp, decide_false, Bool.or_self,
    Bool.false_eq_true, not_false_iff]), if_neg htime]

/-- A name with a precision is read. -/
theorem ofSqlType?_of_name {name s : String} {make : Nat → TemporalType} {n : Nat}
    {precision : List Char} (hname : ofBase? name.toList = some make) (h : Precision n precision)
    (hs : (Text.lower (Text.trim s)).toList = name.toList ++ precision) :
    ofSqlType? s = some (make n) := by
  have halpha := isAlpha_of_ofBase? hname
  rw [ofSqlType?]
  dsimp only
  rw [hs]
  by_cases hnil : precision = []
  · rw [hnil, List.append_nil, h.eq_zero hnil]
    have hdate : name.toList ≠ "date".toList ∧ name.toList ≠ "year".toList := by
      rcases ofBase?_eq_some hname with ⟨_, hcs | hcs⟩ | ⟨_, hcs⟩ <;> rw [hcs] <;> decide
    rw [if_neg hdate.1, if_neg hdate.2, hname]
  · have hother {other : List Char} (ho : other.all Char.isAlpha = true) :
        name.toList ++ precision ≠ other :=
      append_precision_ne h hnil halpha (List.all_eq_true.mp ho)
    rw [if_neg (hother (by decide)), if_neg (hother (by decide)),
      ofBase?_eq_none (hother (by decide)) (hother (by decide)) (hother (by decide)),
      takeWhile_isAlpha h halpha, hname, List.drop_left, precision?_of_precision h hnil]

/-- A name is spelled exactly if it stands there in lower case without the blanks. -/
theorem spells_iff {name s : String} {make : Nat → TemporalType} {n : Nat}
    {precision : List Char} (hname : ofBase? name.toList = some make)
    (h : Precision n precision) :
    SpelledWith name precision s ↔
      (Text.lower (Text.trim s)).toList = name.toList ++ precision :=
  spelledWith_iff (solid_of_isAlpha (isAlpha_of_ofBase? hname)) (ne_nil_of_ofBase? hname) h

/-- Outer blanks are gone. -/
theorem isBlank_getLast?_lower_trim (s : String) :
    ∀ c ∈ (Text.lower (Text.trim s)).toList.getLast?, isBlank c = false := by
  intro c hc
  rw [toList_lower_trim, List.getLast?_map, Option.mem_def, Option.map_eq_some_iff] at hc
  obtain ⟨d, hd, rfl⟩ := hc
  rw [Text.isBlank_toLower]
  exact (Text.exists_trimChars s.toList).1.2 d hd

/-- A declared type is read as a type with a number of digits exactly if it spells one. -/
theorem ofSqlType?_eq_base_iff {base : List Char} {s : String} {make : Nat → TemporalType}
    {n : Nat} (hbase : ofBase? base = some make) :
    ofSqlType? s = some (make n) ↔
      ∃ name, ofBase? name.toList = some make ∧ Spells name n s := by
  constructor
  · intro h
    -- neither a date nor a year was made from a name
    have hother {type : TemporalType} (htype : type = day ∨ type = year) : make n ≠ type := by
      rcases ofBase?_eq_some hbase with ⟨rfl, _⟩ | ⟨rfl, _⟩ <;>
        rcases htype with rfl | rfl <;> exact nofun
    rw [ofSqlType?] at h
    dsimp only at h
    split at h
    · exact absurd (Option.some.inj h).symm (hother (.inl rfl))
    · split at h
      · exact absurd (Option.some.inj h).symm (hother (.inr rfl))
      · split at h
        · rename_i make' hname
          obtain ⟨rfl, rfl⟩ := eq_of_ofBase? hname hbase (Option.some.inj h)
          refine ⟨_, hname, [], .absent, (spells_iff hname .absent).mpr ?_⟩
          rw [List.append_nil]
        · split at h
          · rename_i make' k hname hread
            obtain ⟨rfl, rfl⟩ := eq_of_ofBase? hname hbase (Option.some.inj h)
            have hprecision := precision_of_precision? hread <| by
              intro c hc
              rw [List.getLast?_drop] at hc
              split at hc
              · cases hc
              · exact isBlank_getLast?_lower_trim s c hc
            have hletters : ofBase? (String.ofList ((Text.lower (Text.trim s)).toList.takeWhile
                Char.isAlpha)).toList = some make' := by
              rw [String.toList_ofList]
              exact hname
            refine ⟨_, hletters, _, hprecision, ?_⟩
            rw [spells_iff hletters hprecision, String.toList_ofList]
            exact (List.prefix_iff_eq_append.mp (List.takeWhile_prefix _)).symm
          · cases h
  · rintro ⟨name, hname, precision, h, hspelled⟩
    exact ofSqlType?_of_name hname h ((spells_iff hname h).mp hspelled)

/-- The types with date and clock reading are spelled by one of their names. -/
theorem ofSqlType?_eq_moment_iff {s : String} {n : Nat} :
    ofSqlType? s = some (moment n) ↔ ∃ name ∈ momentNames, Spells name n s := by
  simp only [mem_momentNames_iff]
  have hbase : ofBase? "datetime".toList = some moment := rfl
  exact ofSqlType?_eq_base_iff hbase

/-- A declared type is read as a date exactly if it is the name of one. -/
theorem ofSqlType?_eq_day_iff {s : String} :
    ofSqlType? s = some day ↔ SpelledWith "date" [] s := by
  rw [spelledWith_iff (by decide) (by decide) .absent, List.append_nil]
  constructor
  · intro h
    have hbase {make : Nat → TemporalType} {k : Nat} {cs : List Char}
        (hmake : ofBase? cs = some make) : make k ≠ day := by
      rcases ofBase?_eq_some hmake with ⟨rfl, _⟩ | ⟨rfl, _⟩
      · intro heq
        cases heq
      · intro heq
        cases heq
    rw [ofSqlType?] at h
    dsimp only at h
    split at h
    · assumption
    · split at h
      · cases h
      · split at h
        · rename_i make hmake
          exact absurd (Option.some.inj h) (hbase hmake)
        · split at h
          · rename_i make k hmake _
            exact absurd (Option.some.inj h) (hbase hmake)
          · cases h
  · intro hs
    rw [ofSqlType?]
    dsimp only
    rw [hs, if_pos rfl]

end TemporalType

/-- Characters that mean nothing inside a token stand for themselves. -/
theorem Denotes.of_literals {kind : QuoteKind} {cs : List Char}
    (hcs : ∀ c ∈ cs, c ≠ kind.mark ∧ kind.escapes c = false) : Denotes kind cs cs := by
  induction cs with
  | nil => exact Denotes.nil
  | cons c cs ih =>
      obtain ⟨⟨hmark, hescape⟩, hrest⟩ := List.forall_mem_cons.mp hcs
      exact (Denotes.literal hmark hescape).append (ih hrest)

/-- The database reads the literal of a moment as what a column of the type shows. -/
theorem TemporalType.readToken_text (type : TemporalType) (m : Moment) :
    readToken .text ("'" ++ type.text m ++ "'") = some (type.text m, "") := by
  have hdenotes : Denotes .text (type.text m).toList (type.text m).toList :=
    Denotes.of_literals fun c hc => literal_of_isCalendarChar (type.calendarText_text m c hc)
  have hquoted : ("'" ++ type.text m ++ "'").toList =
      QuoteKind.text.mark :: ((type.text m).toList ++ [QuoteKind.text.mark]) := by
    simp [QuoteKind.mark]
  have hread := (hdenotes.readToken_iff hquoted "").mpr (by simp)
  rwa [String.append_empty, String.ofList_toList] at hread

/-- Under a temporal type a moment is written as the type says. -/
theorem Moment.literal_eq {m : Moment} {sqlType : String} {type : TemporalType}
    (h : TemporalType.ofSqlType? sqlType = some type) :
    m.literal sqlType = .temporal type m := by
  rw [literal, h]

/-- A column of moments reads a text as the moment that the text is read as. -/
theorem Scalar.decode_moment {column shown : String} {m : Moment}
    (h : Moment.read? shown = some m) :
    Scalar.moment.decode column (.text shown) = .ok (.moment m) := by
  rw [decode, take?, moment?, h]
  rfl

/-- A text without a point. -/
abbrev WithoutPoint (s : String) : Prop :=
  Only (fun c => c != '.') s

/-- Digits have no point. -/
theorem withoutPoint_padded (width n : Nat) : WithoutPoint (padded width n) := by
  intro c hc
  have hdigit := isDigit_of_mem_padded hc
  have hne : c ≠ '.' := by
    rintro rfl
    cases hdigit
  simpa using hne

/-- Only the fraction has a point. -/
theorem Moment.withoutPoint_whole (m : Moment) :
    WithoutPoint (m.date.text ++ " " ++ m.clock.text) := by
  have hpair (n : Nat) : WithoutPoint (padded 2 n) := withoutPoint_padded 2 n
  have hyear : WithoutPoint m.date.yearText := by
    unfold Date.yearText
    split
    · exact withoutPoint_padded 4 _
    · refine Only.append ?_ (withoutPoint_padded 4 _)
      split <;> decide
  have hhyphen : WithoutPoint "-" := by decide
  have hcolon : WithoutPoint ":" := by decide
  have hspace : WithoutPoint " " := by decide
  have hdate : WithoutPoint m.date.text :=
    (((hyear.append hhyphen).append (hpair _)).append hhyphen).append (hpair _)
  have hclock : WithoutPoint m.clock.text :=
    ((((hpair _).append hcolon).append (hpair _)).append hcolon).append (hpair _)
  exact (hdate.append hspace).append hclock

/-- The text of a moment is date and clock reading, and the digits that are asked for. -/
theorem Moment.textWith_eq (digits : Nat) (m : Moment) :
    m.textWith digits = (m.date.text ++ " " ++ m.clock.text) ++
      (if digits = 0 then "" else "." ++ .ofList (m.clock.fractionDigits.take digits)) := by
  simp only [textWith, Clock.textWith, Clock.fractionText, Clock.fractionDigits,
    String.append_assoc]

/-- **A moment is written to the declared digit, and read back to it.**  The types with
date and clock reading are those that spell one, and then the literal is one string
literal: date and clock reading without a point, and behind a point, if any digits are
declared, as many digits of the fraction as are.  A column reads the text as the moment
without the other digits, so not as a rounded one, and within a leap second if the moment
is.  Only a leap second within a minute is read as the next second, with the same digits.
For a date a column reads the midnight. -/
theorem temporalLiteral_reading (m : Moment) (column sqlType : String) :
    (∀ n, TemporalType.ofSqlType? sqlType = some (.moment n) ↔
      ∃ name ∈ TemporalType.momentNames, Spells name n sqlType) ∧
    (m.clock.fractionDigits.length = 9 ∧ (∀ d ∈ m.clock.fractionDigits, d.isDigit = true) ∧
      digitsValue m.clock.fractionDigits = m.clock.nanosecond % 1000000000) ∧
    (∀ name ∈ TemporalType.momentNames, ∀ n, Spells name n sqlType →
      n ≤ 9 ∧ ∃ whole shown,
        (m.literal sqlType).text = "'" ++ shown ++ "'" ∧
        readToken .text (m.literal sqlType).text = some (shown, "") ∧
        '.' ∉ whole.toList ∧
        shown = whole ++
          (if n = 0 then "" else "." ++ .ofList (m.clock.fractionDigits.take n)) ∧
        ((m.clock.IsLeap → m.clock.second = 59) →
          Scalar.moment.decode column (.text shown) = .ok (.moment (m.truncate n)) ∧
          ((m.truncate n).clock.IsLeap ↔ m.clock.IsLeap)) ∧
        (m.clock.IsLeap → m.clock.second ≠ 59 → ∃ next : Moment,
          next.date = m.date ∧ next.clock.hour = m.clock.hour ∧
          next.clock.minute = m.clock.minute ∧ next.clock.second = m.clock.second + 1 ∧
          next.clock.nanosecond = m.clock.nanosecond % 1000000000 ∧
          Scalar.moment.decode column (.text shown) = .ok (.moment (next.truncate n)))) ∧
    (SpelledWith "date" [] sqlType → ∃ shown,
      (m.literal sqlType).text = "'" ++ shown ++ "'" ∧
      readToken .text (m.literal sqlType).text = some (shown, "") ∧
      Scalar.moment.decode column (.text shown) = .ok (.moment m.startOfDay)) := by
  refine ⟨fun n => TemporalType.ofSqlType?_eq_moment_iff, ⟨m.clock.length_fractionDigits,
    fun _ => Clock.isDigit_of_mem_fractionDigits, digitsValue_padded 9 _⟩, ?_, ?_⟩
  · intro name hname n hspells
    have ⟨precision, hprecision, _⟩ := hspells
    have htype := TemporalType.ofSqlType?_eq_moment_iff.mpr ⟨name, hname, hspells⟩
    have hpoint : '.' ∉ (m.date.text ++ " " ++ m.clock.text).toList := by
      intro hmem
      have h := m.withoutPoint_whole '.' hmem
      simp at h
    have hdecode : Scalar.moment.decode column (.text (m.textWith n)) =
        .ok (.moment (m.asRead.truncate n)) :=
      Scalar.decode_moment (Moment.read?_textWith hprecision.le m)
    rw [Moment.literal_eq htype]
    refine ⟨hprecision.le, _, m.textWith n, rfl, TemporalType.readToken_text (.moment n) m, hpoint,
      m.textWith_eq n, ?_, ?_⟩
    · intro hlast
      have hsame : m.asRead = m := Moment.asRead_eq_iff.mpr hlast
      rw [hsame] at hdecode
      exact ⟨hdecode, m.clock.isLeap_truncate n⟩
    · intro hleap hsecond
      obtain ⟨hhour, hminute, hnext, hnanosecond⟩ := Clock.asRead_within hleap hsecond
      exact ⟨m.asRead, rfl, hhour, hminute, hnext, hnanosecond, hdecode⟩
  · intro hdate
    rw [Moment.literal_eq (TemporalType.ofSqlType?_eq_day_iff.mpr hdate)]
    exact ⟨m.date.text, rfl, TemporalType.readToken_text .day m,
      Scalar.decode_moment (Moment.read?_dateText m.date)⟩

/-- Within a leap second at the end of a year before the common era. -/
def oldLeapSecond : Moment where
  date := ⟨-44, 12, 31, by decide⟩
  clock := ⟨23, 59, 59, 1987654321, by decide⟩

/-- Three digits of a leap second, with one bracket and blanks in the type, and its day. -/
theorem temporalLiteral_reading_leapSecond :
    Spells "timestamp" 3 " TimeStamp ( 3" ∧
    (∃ shown, (oldLeapSecond.literal " TimeStamp ( 3").text = "'" ++ shown ++ "'" ∧
      Scalar.moment.decode "at" (.text shown) =
        .ok (.moment ⟨oldLeapSecond.date, ⟨23, 59, 59, 1987000000, by decide⟩⟩)) ∧
    SpelledWith "date" [] "DATE\t" ∧
    ∃ shown, (oldLeapSecond.literal "DATE\t").text = "'" ++ shown ++ "'" ∧
      Scalar.moment.decode "at" (.text shown) =
        .ok (.moment ⟨oldLeapSecond.date, ⟨0, 0, 0, 0, by decide⟩⟩) := by
  have hblank : Blanks [' '] := by decide
  have hdigit : StandsFor 3 '3' := .inl (by decide)
  have hprecision : Precision 3 " ( 3".toList :=
    .digit hblank hblank (.inr rfl) (.inl rfl) hdigit
  have hspells : Spells "timestamp" 3 " TimeStamp ( 3" :=
    ⟨_, hprecision, [' '], "TimeStamp".toList, [], by decide, by decide, by decide, by decide⟩
  have hdate : SpelledWith "date" [] "DATE\t" :=
    ⟨[], "DATE".toList, ['\t'], by decide, by decide, by decide, by decide⟩
  obtain ⟨_, _, hmoment, _⟩ := temporalLiteral_reading oldLeapSecond "at" " TimeStamp ( 3"
  obtain ⟨_, _, shown, htext, _, _, _, hread, _⟩ := hmoment "timestamp" (by decide) 3 hspells
  obtain ⟨hdecode, _⟩ := hread fun _ => rfl
  obtain ⟨_, _, _, hday⟩ := temporalLiteral_reading oldLeapSecond "at" "DATE\t"
  obtain ⟨shown', htext', _, hdecode'⟩ := hday hdate
  exact ⟨hspells, ⟨shown, htext, hdecode⟩, hdate, shown', htext', hdecode'⟩

/-- Within a leap second behind a second that is not the last one of its minute. -/
def leapWithinMinute : Moment where
  date := ⟨1930, 1, 1, by decide⟩
  clock := ⟨23, 56, 4, 1333333333, by decide⟩

/-- Such a moment is written with all nine digits like a moment of the next second, and so
it is not read back. -/
theorem temporalLiteral_withinMinute :
    (leapWithinMinute.literal "datetime(9)").text = "'1930-01-01 23:56:05.333333333'" ∧
      leapWithinMinute.truncate 9 = leapWithinMinute ∧
      ∃ m, Scalar.moment.decode "at" (.text "1930-01-01 23:56:05.333333333") = .ok (.moment m) ∧
        m ≠ leapWithinMinute := by
  refine ⟨by decide +kernel, by decide +kernel,
    ⟨leapWithinMinute.date, ⟨23, 56, 5, 333333333, by decide⟩⟩, ?_, by decide +kernel⟩
  decide +kernel

end TableMapper
