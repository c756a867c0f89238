import TableMapper.Settings
import TableMapper.Proofs.ByteOffset

/-!
# Statements as they are logged

A statement that is too long for the log is cut off.  The limit is a number of bytes and
may be within a character, so the place of the cut is searched for backwards from it, byte
by byte, up to the first boundary.  That is never far, and what is in front of it is the
longest beginning of the statement that the limit has room for.

* `SearchesBack` — the search, turn by turn;
* `SearchesBack.ends`, `SearchesBack.spec` — it ends, and at the last boundary that is
  not beyond the limit;
* `isLongestBeginning_fitting` — the beginning of a statement that is logged is the longest
  that fits;
* `shown_longest_beginning` — what is logged of a statement.
-/

namespace TableMapper

/-- The search for a boundary backwards from an offset: how many turns it takes, and where
it ends. An offset within a character is left for the one in front of it. -/
inductive SearchesBack (bs : List UInt8) : Nat → Nat → Nat → Prop
  | here {n : Nat} (h : n = 0 ∨ Text.isBoundary bs n = true) : SearchesBack bs n 0 n
  | back {n turns found : Nat} (h : Text.isBoundary bs (n + 1) = false)
      (tail : SearchesBack bs n turns found) : SearchesBack bs (n + 1) (turns + 1) found

namespace SearchesBack

/-- The search ends, whatever the bytes are. -/
theorem ends (bs : List UInt8) (n : Nat) : ∃ turns found, SearchesBack bs n turns found := by
  induction n with
  | zero => exact ⟨0, 0, .here (.inl rfl)⟩
  | succ n ih =>
      cases h : Text.isBoundary bs (n + 1) with
      | true => exact ⟨0, n + 1, .here (.inr h)⟩
      | false =>
          obtain ⟨turns, found, tail⟩ := ih
          exact ⟨turns + 1, found, .back h tail⟩

/-- A turn goes one byte back, the search ends at a boundary or in front of everything, and
it has passed no boundary. -/
theorem spec {bs : List UInt8} {n turns found : Nat} (h : SearchesBack bs n turns found) :
    found + turns = n ∧ (found = 0 ∨ Text.isBoundary bs found = true) ∧
      ∀ m, found < m → m ≤ n → Text.isBoundary bs m = false := by
  induction h with
  | here h => exact ⟨rfl, h, fun m hlt hle => absurd hle (Nat.not_le_of_gt hlt)⟩
  | @back n turns found h _ ih =>
      obtain ⟨hturns, hfound, hpassed⟩ := ih
      refine ⟨by omega, hfound, ?_⟩
      intro m hlt hle
      rcases Nat.lt_or_eq_of_le hle with hle | rfl
      · exact hpassed m hlt (Nat.le_of_lt_succ hle)
      · exact h

end SearchesBack

variable {limit turns found : Nat} {cs front back : List Char}

/-- The longest beginning of a text that has at most so many bytes. -/
structure IsLongestBeginning (limit : Nat) (cs front : List Char) : Prop where
  begins : front <+: cs
  fits : (Text.bytes front).length ≤ limit
  longest : ∀ other, other <+: cs → (Text.bytes other).length ≤ limit → other <+: front

/-- There is one longest beginning. -/
theorem IsLongestBeginning.unique {front' : List Char} (h : IsLongestBeginning limit cs front)
    (h' : IsLongestBeginning limit cs front') : front = front' := by
  have hfront := h'.longest front h.begins h.fits
  have hfront' := h.longest front' h'.begins h'.fits
  exact hfront.eq_of_length (Nat.le_antisymm hfront.length_le hfront'.length_le)

/-- What is kept is a beginning. -/
theorem fitting_isPrefix (limit : Nat) (cs : List Char) : fitting limit cs <+: cs := by
  induction cs generalizing limit with
  | nil => exact List.prefix_refl []
  | cons c cs ih =>
      rw [fitting]
      split_ifs with hfits
      · exact (List.prefix_cons_inj c).mpr (ih _)
      · exact List.nil_prefix

/-- What is kept has no more bytes than fit. -/
theorem length_bytes_fitting_le (limit : Nat) (cs : List Char) :
    (Text.bytes (fitting limit cs)).length ≤ limit := by
  induction cs generalizing limit with
  | nil => exact Nat.zero_le limit
  | cons c cs ih =>
      rw [fitting]
      split_ifs with hfits
      · have htail := ih (limit - c.utf8Size)
        rw [Text.length_bytes_cons]
        omega
      · exact Nat.zero_le limit

/-- Every other beginning that fits is a beginning of what is kept. -/
theorem prefix_fitting (hfront : front <+: cs) (hlimit : (Text.bytes front).length ≤ limit) :
    front <+: fitting limit cs := by
  induction cs generalizing limit front with
  | nil =>
      rw [List.prefix_nil.mp hfront]
      exact List.nil_prefix
  | cons c cs ih =>
      cases front with
      | nil => exact List.nil_prefix
      | cons d front =>
          obtain ⟨rfl, htail⟩ := List.cons_prefix_cons.mp hfront
          rw [Text.length_bytes_cons] at hlimit
          rw [fitting, if_pos (by omega)]
          exact (List.prefix_cons_inj d).mpr (ih htail (by omega))

/-- The beginning of a statement that is logged is the longest that the limit has room
for. -/
theorem isLongestBeginning_fitting (limit : Nat) (cs : List Char) :
    IsLongestBeginning limit cs (fitting limit cs) :=
  ⟨fitting_isPrefix limit cs, length_bytes_fitting_le limit cs, fun _ => prefix_fitting⟩

namespace SearchesBack

/-- The search ends where the text can be cut. -/
theorem exists_cutAt? (h : SearchesBack (Text.bytes cs) limit turns found) :
    ∃ front back, Text.cutAt? found cs = some (front, back) := by
  rcases h.spec.2.1 with rfl | hboundary
  · exact ⟨[], cs, Text.cutAt?_zero cs⟩
  · rw [← Text.isSome_cutAt?] at hboundary
    obtain ⟨⟨front, back⟩, hcut⟩ := Option.isSome_iff_exists.mp hboundary
    exact ⟨front, back, hcut⟩

/-- No beginning ends between the place that is found and the limit. -/
theorem length_le_found (h : SearchesBack (Text.bytes cs) limit turns found)
    (hfront : front <+: cs) (hlimit : (Text.bytes front).length ≤ limit) :
    (Text.bytes front).length ≤ found := by
  obtain ⟨back, rfl⟩ := hfront
  by_contra hbeyond
  have hpassed := h.spec.2.2 _ (Nat.lt_of_not_le hbeyond) hlimit
  rw [Text.isBoundary_iff.mpr ⟨front, back, rfl, rfl⟩] at hpassed
  cases hpassed

/-- What is in front of that place is the longest beginning that the limit has room for. -/
theorem isLongestBeginning (h : SearchesBack (Text.bytes cs) limit turns found)
    (hcut : Text.cutAt? found cs = some (front, back)) : IsLongestBeginning limit cs front := by
  obtain ⟨hcs, hfound⟩ := Text.cutAt?_eq_some_iff.mp hcut
  have hbegins : front <+: cs := ⟨back, hcs.symm⟩
  have hturns := h.spec.1
  refine ⟨hbegins, by omega, ?_⟩
  intro other hother hlimit
  have hle := h.length_le_found hother hlimit
  rcases List.prefix_or_prefix_of_prefix hother hbegins with hshorter | hlonger
  · exact hshorter
  · obtain ⟨rest, hrest⟩ := hother
    rw [← hfound] at hle
    have hlength := Nat.le_antisymm hle (Text.length_bytes_le_of_isPrefix hlonger)
    obtain ⟨rfl, _⟩ := Text.append_inj_of_length_bytes (hrest.trans hcs) hlength
    exact List.prefix_refl other

/-- A limit within the text is within its last character that does not fit, and a character
has four bytes at the most. -/
theorem turns_le (h : SearchesBack (Text.bytes cs) limit turns found)
    (hlimit : limit < (Text.bytes cs).length) : turns ≤ 3 := by
  obtain ⟨front, back, hcut⟩ := h.exists_cutAt?
  obtain ⟨rfl, rfl⟩ := Text.cutAt?_eq_some_iff.mp hcut
  have hturns := h.spec.1
  cases back with
  | nil =>
      rw [List.append_nil] at hlimit
      omega
  | cons c back =>
      -- The character behind the cut begins a text that ends beyond the limit.
      have hbegins : front ++ [c] <+: front ++ c :: back := ⟨back, by simp⟩
      have hnext := h.length_le_found hbegins
      rw [Text.bytes_append, List.length_append, Text.length_bytes_cons] at hnext
      have hsize := c.utf8Size_le_four
      have hpos := c.utf8Size_pos
      simp only [Text.bytes_nil, List.length_nil] at hnext
      omega

end SearchesBack

/-- **A long statement is cut off behind the longest beginning that fits.**  Without a limit,
or if the limit has room for all of its bytes, a statement is logged whole.  Otherwise the
search backwards from the limit ends, after three turns at the most; the statement can be
cut where it ends, in front of that place is the longest beginning that the limit has room
for, and that is logged with three dots behind it. -/
theorem shown_longest_beginning (s : Settings) (sql : String) :
    (s.maxLogged = none → s.shown sql = sql) ∧
    ∀ limit, s.maxLogged = some limit →
      (sql.utf8ByteSize ≤ limit → s.shown sql = sql) ∧
      (limit < sql.utf8ByteSize →
        (∃ turns found, SearchesBack (Text.bytes sql.toList) limit turns found) ∧
        ∀ turns found, SearchesBack (Text.bytes sql.toList) limit turns found →
          turns ≤ 3 ∧ ∃ front back, Text.cutAt? found sql.toList = some (front, back) ∧
            IsLongestBeginning limit sql.toList front ∧
            s.shown sql = .ofList front ++ "...") := by
  refine ⟨?_, ?_⟩
  · intro hnone
    rw [Settings.shown, hnone]
  · intro limit hsome
    refine ⟨?_, ?_⟩
    · intro hle
      rw [Settings.shown, hsome]
      exact if_pos hle
    · intro hlt
      refine ⟨SearchesBack.ends _ limit, ?_⟩
      intro turns found h
      obtain ⟨front, back, hcut⟩ := h.exists_cutAt?
      have hlongest := h.isLongestBeginning hcut
      have hshown : s.shown sql = .ofList (fitting limit sql.toList) ++ "..." := by
        rw [Settings.shown, hsome]
        exact if_neg (Nat.not_le_of_gt hlt)
      rw [← Text.length_bytes_toList] at hlt
      refine ⟨h.turns_le hlt, front, back, hcut, hlongest, ?_⟩
      rw [hshown, (isLongestBeginning_fitting limit sql.toList).unique hlongest]

/-- Of a statement that ends with a euro sign, which has three bytes, that sign is not logged
if the limit is within it. -/
theorem shown_longest_beginning_euro :
    let s : Settings := { maxLogged := some 10 }
    10 < "SELECT '€'".utf8ByteSize ∧
      SearchesBack (Text.bytes "SELECT '€'".toList) 10 2 8 ∧
      ∃ front back, Text.cutAt? 8 "SELECT '€'".toList = some (front, back) ∧
        IsLongestBeginning 10 "SELECT '€'".toList front ∧
        s.shown "SELECT '€'" = .ofList front ++ "..." := by
  intro s
  have hlong : 10 < "SELECT '€'".utf8ByteSize := by decide
  have hsearch : SearchesBack (Text.bytes "SELECT '€'".toList) 10 2 8 :=
    .back (by decide) (.back (by decide) (.here (.inr (by decide))))
  obtain ⟨_, hcut⟩ := (((shown_longest_beginning s "SELECT '€'").2 10 rfl).2 hlong).2 2 8 hsearch
  exact ⟨hlong, hsearch, hcut⟩

end TableMapper
