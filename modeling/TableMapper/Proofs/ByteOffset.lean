import Mathlib.Data.List.Basic
import Mathlib.Tactic.SplitIfs

/-!
# Byte offsets

A text is kept in UTF-8, and a place in it is given by the number of bytes in front of it.
Not every number is such a place: it may be beyond the text, or within one of its
characters.  A look at the byte behind an offset tells which it is, since only the first
byte of a character is one that does not continue another.  For the same reason the bytes
of a text stand among those of another one only where the text itself stands.

* `bytes`, `isBoundary` — a text in UTF-8, and whether an offset is between two characters;
* `cutAt?` — a text cut in two at an offset;
* `isBoundary_iff`, `cutAt?_eq_some_iff` — both are about the beginnings of the text;
* `exists_of_bytes_eq` — where the bytes of a text stand, there the text stands.
-/

namespace TableMapper.Text

/-- The bytes of a text in UTF-8. -/
def bytes (cs : List Char) : List UInt8 :=
  cs.flatMap String.utf8EncodeChar

/-- Whether a byte continues a character that began in front of it. -/
def continues (b : UInt8) : Bool :=
  128 ≤ b.toNat && b.toNat < 192

/-- Whether an offset is between two characters, or at an end of the text: the byte behind
it tells. -/
def isBoundary (bs : List UInt8) (n : Nat) : Bool :=
  match bs[n]? with
  | some b => !continues b
  | none => n == bs.length

/-- A text cut in two at an offset; `none` if the offset is beyond the text or within one of
its characters. -/
def cutAt? : Nat → List Char → Option (List Char × List Char)
  | 0, cs => some ([], cs)
  | _ + 1, [] => none
  | n + 1, c :: cs =>
    if c.utf8Size ≤ n + 1 then
      (cutAt? (n + 1 - c.utf8Size) cs).map fun (front, back) => (c :: front, back)
    else none

variable {cs ds : List Char} {n : Nat}

@[simp] theorem bytes_nil : bytes [] = [] := rfl

@[simp] theorem bytes_cons (c : Char) (cs : List Char) :
    bytes (c :: cs) = String.utf8EncodeChar c ++ bytes cs := rfl

/-- The bytes of a text are those of its parts. -/
@[simp] theorem bytes_append (cs ds : List Char) : bytes (cs ++ ds) = bytes cs ++ bytes ds :=
  List.flatMap_append

/-- A character takes as many bytes as its size says. -/
theorem length_bytes_cons (c : Char) (cs : List Char) :
    (bytes (c :: cs)).length = c.utf8Size + (bytes cs).length := by
  rw [bytes_cons, List.length_append, String.length_utf8EncodeChar]

/-- A text has as many bytes as it says. -/
theorem length_bytes_toList (s : String) : (bytes s.toList).length = s.utf8ByteSize := by
  have hbytes : s.toByteArray = (bytes s.toList).toByteArray := by
    conv_lhs => rw [← String.ofList_toList (s := s), String.toByteArray_ofList]
    rfl
  rw [← String.size_toByteArray, hbytes, List.size_toByteArray]

/-- A beginning has no more bytes than the text. -/
theorem length_bytes_le_of_isPrefix (h : ds <+: cs) : (bytes ds).length ≤ (bytes cs).length := by
  obtain ⟨more, rfl⟩ := h
  rw [bytes_append, List.length_append]
  exact Nat.le_add_right _ _

/-- Characters of the same sizes have as many bytes. -/
theorem length_bytes_map {f : Char → Char} (hf : ∀ c, (f c).utf8Size = c.utf8Size)
    (cs : List Char) : (bytes (cs.map f)).length = (bytes cs).length := by
  induction cs with
  | nil => rfl
  | cons c cs ih => rw [List.map_cons, length_bytes_cons, length_bytes_cons, hf, ih]

/-- A cut in front of everything is possible. -/
theorem cutAt?_zero (cs : List Char) : cutAt? 0 cs = some ([], cs) := by
  rw [cutAt?]

/-- A cut behind the first character is a cut of the rest. -/
theorem cutAt?_cons {c : Char} (hn : c.utf8Size ≤ n) (cs : List Char) :
    cutAt? n (c :: cs) =
      (cutAt? (n - c.utf8Size) cs).map fun (front, back) => (c :: front, back) := by
  obtain ⟨m, rfl⟩ := Nat.exists_eq_succ_of_ne_zero
    (Nat.ne_of_gt (Nat.lt_of_lt_of_le c.utf8Size_pos hn))
  rw [cutAt?, if_pos hn]

/-- There is no cut within a character. -/
theorem cutAt?_within {c : Char} (hpos : 0 < n) (hn : n < c.utf8Size) (cs : List Char) :
    cutAt? n (c :: cs) = none := by
  obtain ⟨m, rfl⟩ := Nat.exists_eq_succ_of_ne_zero (Nat.ne_of_gt hpos)
  rw [cutAt?, if_neg (Nat.not_le_of_gt hn)]

/-- A text is cut behind any of its beginnings. -/
theorem cutAt?_append (front back : List Char) :
    cutAt? (bytes front).length (front ++ back) = some (front, back) := by
  induction front with
  | nil => exact cutAt?_zero back
  | cons c front ih =>
      rw [length_bytes_cons, List.cons_append, cutAt?_cons (Nat.le_add_right _ _),
        Nat.add_sub_cancel_left, ih]
      rfl

/-- A text is cut at an offset into a beginning of that many bytes and the rest. -/
theorem cutAt?_eq_some_iff {front back : List Char} :
    cutAt? n cs = some (front, back) ↔ cs = front ++ back ∧ (bytes front).length = n := by
  constructor
  · intro h
    induction cs generalizing n front with
    | nil =>
        cases n with
        | zero =>
            cases h
            exact ⟨rfl, rfl⟩
        | succ n => cases h
    | cons c cs ih =>
        cases n with
        | zero =>
            rw [cutAt?_zero] at h
            cases h
            exact ⟨rfl, rfl⟩
        | succ n =>
            rw [cutAt?] at h
            split_ifs at h with hfits
            obtain ⟨⟨front', back'⟩, htail, heq⟩ := Option.map_eq_some_iff.mp h
            cases heq
            obtain ⟨rfl, hlength⟩ := ih htail
            refine ⟨rfl, ?_⟩
            rw [length_bytes_cons, hlength]
            omega
  · rintro ⟨rfl, rfl⟩
    exact cutAt?_append front back

/-- Two beginnings with as many bytes are one. -/
theorem append_inj_of_length_bytes {front back front' back' : List Char}
    (h : front ++ back = front' ++ back')
    (hlength : (bytes front).length = (bytes front').length) : front = front' ∧ back = back' := by
  have hcut := cutAt?_append front back
  rw [h, hlength, cutAt?_append front' back'] at hcut
  cases hcut
  exact ⟨rfl, rfl⟩

/-- Of the bytes of a character all but the first continue it. -/
theorem exists_utf8EncodeChar (c : Char) :
    ∃ b bs, String.utf8EncodeChar c = b :: bs ∧ continues b = false ∧
      ∀ d ∈ bs, continues d = true := by
  have hmore (v : Nat) : continues (UInt8.ofNat (v % 64 + 128)) = true := by
    simp [continues]
    omega
  have hfirst {v : Nat} (hv : v < 128 ∨ 192 ≤ v) (hlt : v < 256) :
      continues (UInt8.ofNat v) = false := by
    simp [continues]
    omega
  unfold String.utf8EncodeChar
  generalize c.val.toNat = v
  dsimp only
  split_ifs with h1 h2 h3
  · exact ⟨_, _, rfl, hfirst (by omega) (by omega), by simp⟩
  · exact ⟨_, _, rfl, hfirst (by omega) (by omega),
      List.forall_mem_singleton.mpr (hmore v)⟩
  · exact ⟨_, _, rfl, hfirst (by omega) (by omega),
      List.forall_mem_cons.mpr ⟨hmore _, List.forall_mem_singleton.mpr (hmore v)⟩⟩
  · exact ⟨_, _, rfl, hfirst (by omega) (by omega), List.forall_mem_cons.mpr
      ⟨hmore _, List.forall_mem_cons.mpr ⟨hmore _, List.forall_mem_singleton.mpr (hmore v)⟩⟩⟩

/-- The beginning is a boundary. -/
theorem isBoundary_zero (cs : List Char) : isBoundary (bytes cs) 0 = true := by
  cases cs with
  | nil => rfl
  | cons c cs =>
      obtain ⟨b, more, hencode, hb, _⟩ := exists_utf8EncodeChar c
      rw [bytes_cons, hencode]
      simp [isBoundary, hb]

/-- An offset within a character is no boundary. -/
theorem isBoundary_within {c : Char} (hpos : 0 < n) (hn : n < c.utf8Size) (bs : List UInt8) :
    isBoundary (String.utf8EncodeChar c ++ bs) n = false := by
  obtain ⟨b, more, hencode, _, hmore⟩ := exists_utf8EncodeChar c
  have hlength := String.length_utf8EncodeChar c
  rw [hencode, List.length_cons] at hlength
  obtain ⟨m, rfl⟩ := Nat.exists_eq_succ_of_ne_zero (Nat.ne_of_gt hpos)
  have hm : m < more.length := by omega
  rw [isBoundary, hencode, List.cons_append, List.getElem?_cons_succ,
    List.getElem?_append_left hm, List.getElem?_eq_getElem hm]
  simp [hmore _ (List.getElem_mem hm)]

/-- Behind a character the boundaries are those of what follows it. -/
theorem isBoundary_behind (c : Char) (n : Nat) (bs : List UInt8) :
    isBoundary (String.utf8EncodeChar c ++ bs) (c.utf8Size + n) = isBoundary bs n := by
  rw [isBoundary, isBoundary, ← String.length_utf8EncodeChar,
    List.getElem?_append_right (Nat.le_add_right _ _), Nat.add_sub_cancel_left,
    List.length_append]
  cases bs[n]? with
  | some b => rfl
  | none => simp

/-- A text can be cut at its boundaries and nowhere else. -/
theorem isSome_cutAt? (n : Nat) (cs : List Char) :
    (cutAt? n cs).isSome = isBoundary (bytes cs) n := by
  induction cs generalizing n with
  | nil => cases n <;> rfl
  | cons c cs ih =>
      rcases Nat.eq_zero_or_pos n with rfl | hpos
      · rw [isBoundary_zero, cutAt?_zero]
        rfl
      · by_cases hn : c.utf8Size ≤ n
        · obtain ⟨m, rfl⟩ := Nat.exists_eq_add_of_le hn
          rw [bytes_cons, isBoundary_behind, cutAt?_cons hn, Option.isSome_map,
            Nat.add_sub_cancel_left, ih]
        · have hlt := Nat.lt_of_not_le hn
          rw [bytes_cons, isBoundary_within hpos hlt, cutAt?_within hpos hlt]
          rfl

/-- The boundaries of a text are the sizes of its beginnings. -/
theorem isBoundary_iff :
    isBoundary (bytes cs) n = true ↔
      ∃ front back, cs = front ++ back ∧ (bytes front).length = n := by
  rw [← isSome_cutAt?, Option.isSome_iff_exists]
  simp only [Prod.exists, cutAt?_eq_some_iff]

/-- The first character of a text is the one that its bytes begin with. -/
theorem eq_of_utf8EncodeChar_append {c d : Char} {bs bs' : List UInt8}
    (h : String.utf8EncodeChar c ++ bs = String.utf8EncodeChar d ++ bs') : c = d := by
  have hdecode (c : Char) (bs : List UInt8) :
      (String.utf8EncodeChar c ++ bs).toByteArray.utf8DecodeChar? 0 = some c := by
    rw [List.toByteArray_append]
    exact ByteArray.utf8DecodeChar?_utf8EncodeChar_append
  exact Option.some.inj ((hdecode c bs).symm.trans (h ▸ hdecode d bs'))

/-- A text whose bytes begin with those of another one begins with it. -/
theorem exists_of_bytes_eq_append {word : List Char} {bs : List UInt8}
    (h : bytes cs = bytes word ++ bs) : ∃ back, cs = word ++ back ∧ bytes back = bs := by
  induction word generalizing cs with
  | nil => exact ⟨cs, rfl, h⟩
  | cons d word ih =>
      cases cs with
      | nil =>
          have hne := String.utf8EncodeChar_ne_nil (c := d)
          simp_all
      | cons c cs =>
          rw [bytes_cons, bytes_cons, List.append_assoc] at h
          obtain rfl := eq_of_utf8EncodeChar_append h
          obtain ⟨back, rfl, hback⟩ := ih (List.append_cancel_left h)
          exact ⟨back, rfl, hback⟩

/-- **Where the bytes of a text stand, there the text stands.**  They begin with a byte that
continues nothing, so that what is in front of them is not broken off within a character. -/
theorem exists_of_bytes_eq {word : List Char} {before behind : List UInt8} (hne : word ≠ [])
    (h : bytes cs = before ++ (bytes word ++ behind)) :
    ∃ front back, cs = front ++ (word ++ back) ∧ bytes front = before ∧ bytes back = behind := by
  obtain ⟨c, rest, rfl⟩ := List.exists_cons_of_ne_nil hne
  obtain ⟨b, more, hencode, hb, _⟩ := exists_utf8EncodeChar c
  have hboundary : isBoundary (bytes cs) before.length = true := by
    rw [h, bytes_cons, hencode, isBoundary, List.getElem?_append_right (Nat.le_refl _)]
    simp [hb]
  obtain ⟨front, back, rfl, hlength⟩ := isBoundary_iff.mp hboundary
  rw [bytes_append] at h
  obtain ⟨hfront, hback⟩ := List.append_inj h hlength
  obtain ⟨back', rfl, hback'⟩ := exists_of_bytes_eq_append hback
  exact ⟨front, back', rfl, hfront, hback'⟩

end TableMapper.Text
