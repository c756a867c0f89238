import Mathlib.Data.List.Basic
import Mathlib.Data.List.TakeWhile
import Mathlib.Tactic.SplitIfs
import TableMapper.Text.Blank

/-!
# Blanks and case

What is left of a text where its outer blanks, the width of its inner blanks and the
case of its letters do not count.

* `stripBoth_of_outer`, `exists_stripBoth` — what is left of a text without its outer
  characters of a class;
* `Blanks`, `Compact` — a run of blanks, and a text without outer ones;
* `trimChars_eq_iff` — a text is trimmed to its compact middle;
* `cut_append`, `cut_of_not_mem` — a text is cut at the places of a character;
* `Spaced`, `spaced_words` — the words of a text are the blank-free runs that it is
  spaced out of;
* `upper_collapse_eq_iff` — a text in capitals and with single spaces has the words of
  the text it came from.
-/

namespace TableMapper.Text

/-- Small letters are found thirty-two codes behind the capitals. -/
theorem toNat_toLower (c : Char) :
    c.toLower.toNat = if 65 ≤ c.toNat ∧ c.toNat ≤ 90 then c.toNat + 32 else c.toNat := by
  have hcapital : (c.val ≥ 'A'.val ∧ c.val ≤ 'Z'.val) ↔ 65 ≤ c.toNat ∧ c.toNat ≤ 90 := Iff.rfl
  unfold Char.toLower
  split_ifs with h h' h'
  · change (c.val + 32).toNat = c.toNat + 32
    rw [UInt32.toNat_add]
    change (c.toNat + 32) % _ = c.toNat + 32
    omega
  · exact absurd (hcapital.mp h) h'
  · exact absurd (hcapital.mpr h') h
  · rfl

/-- Capitals are found thirty-two codes in front of the small letters. -/
theorem toNat_toUpper (c : Char) :
    c.toUpper.toNat = if 97 ≤ c.toNat ∧ c.toNat ≤ 122 then c.toNat - 32 else c.toNat := by
  have hsmall : ('a'.val ≤ c.val ∧ c.val ≤ 'z'.val) ↔ 97 ≤ c.toNat ∧ c.toNat ≤ 122 := Iff.rfl
  unfold Char.toUpper
  split_ifs with h h' h'
  · change (c.val + ('A'.val - 'a'.val)).toNat = c.toNat - 32
    rw [UInt32.toNat_add]
    change (c.toNat + 4294967264) % _ = c.toNat - 32
    omega
  · exact absurd (hsmall.mp h) h'
  · exact absurd (hsmall.mpr h') h
  · rfl

/-- A character that is made small is a small letter or what it was. -/
theorem toLower_eq_or (c : Char) :
    c.toLower = c ∨ (97 ≤ c.toLower.toNat ∧ c.toLower.toNat ≤ 122) := by
  have h := toNat_toLower c
  split_ifs at h with hcapital
  · exact .inr (by omega)
  · exact .inl (Char.ext (UInt32.toNat_inj.mp h))

/-- The blanks by their codes. -/
theorem isBlank_iff {c : Char} : isBlank c = true ↔
    (9 ≤ c.toNat ∧ c.toNat ≤ 13) ∨ c.toNat = 0x20 ∨ c.toNat = 0x85 ∨ c.toNat = 0xA0 ∨
      c.toNat = 0x1680 ∨ (0x2000 ≤ c.toNat ∧ c.toNat ≤ 0x200A) ∨ c.toNat = 0x2028 ∨
      c.toNat = 0x2029 ∨ c.toNat = 0x202F ∨ c.toNat = 0x205F ∨ c.toNat = 0x3000 := by
  simp [isBlank, or_assoc]

/-- No letter is a blank. -/
theorem isBlank_toLower (c : Char) : isBlank c.toLower = isBlank c := by
  rw [Bool.eq_iff_iff, isBlank_iff, isBlank_iff, toNat_toLower]
  split_ifs with hcapital
  · omega
  · rfl

/-- Capital letters do not make a blank, and no blank has a capital. -/
theorem isBlank_toUpper (c : Char) : isBlank c.toUpper = isBlank c := by
  rw [Bool.eq_iff_iff, isBlank_iff, isBlank_iff, toNat_toUpper]
  split_ifs with hsmall
  · omega
  · rfl

section Stripping

variable {p : Char → Bool} {cs : List Char}

/-- The rest behind the leading characters of a class begins with none of them. -/
theorem eq_false_of_mem_head?_dropWhile {c : Char} (hc : c ∈ (cs.dropWhile p).head?) :
    p c = false := by
  have h := List.head?_dropWhile_not p cs
  rw [Option.mem_def.mp hc] at h
  exact h

/-- Nothing is left out in front of a character that stays. -/
theorem dropWhile_of_head? (h : ∀ c ∈ cs.head?, p c = false) : cs.dropWhile p = cs := by
  cases cs with
  | nil => rfl
  | cons c cs =>
      have hc : p c = false := h c rfl
      rw [List.dropWhile_cons_of_neg (by simp [hc])]

/-- What stands between characters of a class, and neither begins nor ends with one of
them, is what is left without the outer ones. -/
theorem stripBoth_of_outer {b body b' : List Char} (hb : ∀ c ∈ b, p c = true)
    (hhead : ∀ c ∈ body.head?, p c = false) (hlast : ∀ c ∈ body.getLast?, p c = false)
    (hb' : ∀ c ∈ b', p c = true) : stripBoth p (b ++ (body ++ b')) = body := by
  have hfront : (b ++ (body ++ b')).dropWhile p = body ++ b' ∨
      body = [] ∧ (b ++ (body ++ b')).dropWhile p = [] := by
    rw [List.dropWhile_append_of_pos hb]
    cases body with
    | nil =>
        refine .inr ⟨rfl, ?_⟩
        rw [List.nil_append, ← List.append_nil b', List.dropWhile_append_of_pos hb',
          List.dropWhile_nil]
    | cons c cs => exact .inl (dropWhile_of_head? hhead)
  rw [stripBoth]
  rcases hfront with hfront | ⟨rfl, hfront⟩
  · have hback : ∀ c ∈ b'.reverse, p c = true := fun c hc => hb' c (List.mem_reverse.mp hc)
    have hend : ∀ c ∈ body.reverse.head?, p c = false := by rwa [List.head?_reverse]
    rw [hfront, List.reverse_append, List.dropWhile_append_of_pos hback, dropWhile_of_head? hend,
      List.reverse_reverse]
  · rw [hfront]
    rfl

/-- A text is what is left without its outer characters of a class, between such ones. -/
theorem exists_stripBoth (p : Char → Bool) (cs : List Char) :
    (∀ c ∈ (stripBoth p cs).head?, p c = false) ∧
      (∀ c ∈ (stripBoth p cs).getLast?, p c = false) ∧
      ∃ b b', (∀ c ∈ b, p c = true) ∧ (∀ c ∈ b', p c = true) ∧
        cs = b ++ (stripBoth p cs ++ b') := by
  have hsplit : cs.dropWhile p =
      stripBoth p cs ++ ((cs.dropWhile p).reverse.takeWhile p).reverse := by
    rw [stripBoth, ← List.reverse_append, List.takeWhile_append_dropWhile, List.reverse_reverse]
  refine ⟨?_, ?_, cs.takeWhile p, _, fun _ hc => List.mem_takeWhile_imp hc, ?_,
    List.takeWhile_append_dropWhile.symm.trans (congrArg _ hsplit)⟩
  · intro c hc
    -- the first character of the middle is the first one behind the leading ones
    have hhead : c ∈ (cs.dropWhile p).head? := by
      rw [hsplit]
      exact List.mem_head?_append_of_mem_head? hc
    exact eq_false_of_mem_head?_dropWhile hhead
  · intro c hc
    rw [stripBoth, List.getLast?_reverse] at hc
    exact eq_false_of_mem_head?_dropWhile hc
  · intro c hc
    exact List.mem_takeWhile_imp (List.mem_reverse.mp hc)

end Stripping

/-- A run of blanks. -/
def Blanks (cs : List Char) : Prop :=
  ∀ c ∈ cs, isBlank c = true

/-- A text without any blank. -/
def Solid (cs : List Char) : Prop :=
  ∀ c ∈ cs, isBlank c = false

/-- A text that neither begins nor ends with a blank. -/
def Compact (cs : List Char) : Prop :=
  (∀ c ∈ cs.head?, isBlank c = false) ∧ ∀ c ∈ cs.getLast?, isBlank c = false

instance (cs : List Char) : Decidable (Blanks cs) :=
  List.decidableBAll (fun c => isBlank c = true) cs

instance (cs : List Char) : Decidable (Solid cs) :=
  List.decidableBAll (fun c => isBlank c = false) cs

theorem Blanks.nil : Blanks [] := by
  intro c hc
  cases hc

theorem Blanks.cons {c : Char} {cs : List Char} (hc : isBlank c = true) (hcs : Blanks cs) :
    Blanks (c :: cs) :=
  List.forall_mem_cons.mpr ⟨hc, hcs⟩

/-- Blanks in front are left out together. -/
theorem Blanks.dropWhile_append {b : List Char} (hb : Blanks b) (cs : List Char) :
    (b ++ cs).dropWhile isBlank = cs.dropWhile isBlank :=
  List.dropWhile_append_of_pos hb

/-- What is taken as blanks is a run of blanks. -/
theorem blanks_takeWhile (cs : List Char) : Blanks (cs.takeWhile isBlank) :=
  fun _ hc => List.mem_takeWhile_imp hc

/-- A text that begins and ends with something solid is compact. -/
theorem Compact.of_solid {first last : List Char} (hfirst : Solid first) (hne : first ≠ [])
    (hlast : Solid last) (hne' : last ≠ []) (middle : List Char) :
    Compact (first ++ (middle ++ last)) := by
  refine ⟨?_, ?_⟩
  · intro c hc
    rw [List.head?_append_of_ne_nil _ hne] at hc
    exact hfirst c (List.mem_of_mem_head? hc)
  · intro c hc
    have hmiddle : middle ++ last ≠ [] := List.append_ne_nil_of_right_ne_nil _ hne'
    rw [List.getLast?_append_of_ne_nil _ hmiddle, List.getLast?_append_of_ne_nil _ hne'] at hc
    exact hlast c (List.mem_of_mem_getLast? hc)

theorem Solid.cons {c : Char} {cs : List Char} (hc : isBlank c = false) (hcs : Solid cs) :
    Solid (c :: cs) :=
  List.forall_mem_cons.mpr ⟨hc, hcs⟩

theorem Solid.append {cs ds : List Char} (hcs : Solid cs) (hds : Solid ds) : Solid (cs ++ ds) :=
  List.forall_mem_append.mpr ⟨hcs, hds⟩

/-- A text without blanks has no outer ones. -/
theorem Solid.compact {cs : List Char} (h : Solid cs) : Compact cs :=
  ⟨fun c hc => h c (List.mem_of_mem_head? hc), fun c hc => h c (List.mem_of_mem_getLast? hc)⟩

/-- Trimming leaves the compact middle of a text. -/
theorem trimChars_of_compact {b body b' : List Char} (hb : Blanks b) (hbody : Compact body)
    (hb' : Blanks b') : trimChars (b ++ (body ++ b')) = body :=
  stripBoth_of_outer hb hbody.1 hbody.2 hb'

/-- A text is its trimmed middle between blanks. -/
theorem exists_trimChars (cs : List Char) :
    Compact (trimChars cs) ∧
      ∃ b b', Blanks b ∧ Blanks b' ∧ cs = b ++ (trimChars cs ++ b') := by
  obtain ⟨hhead, hlast, hsplit⟩ := exists_stripBoth isBlank cs
  exact ⟨⟨hhead, hlast⟩, hsplit⟩

/-- A text is trimmed to a compact text exactly if there are only blanks around it. -/
theorem trimChars_eq_iff {cs body : List Char} :
    trimChars cs = body ↔
      Compact body ∧ ∃ b b', Blanks b ∧ Blanks b' ∧ cs = b ++ (body ++ b') := by
  constructor
  · rintro rfl
    exact exists_trimChars cs
  · rintro ⟨hbody, b, b', hb, hb', rfl⟩
    exact trimChars_of_compact hb hbody hb'

/-- Nothing is left of a text exactly if it is all blanks. -/
theorem trimChars_eq_nil_iff {cs : List Char} : trimChars cs = [] ↔ Blanks cs := by
  rw [trimChars_eq_iff]
  constructor
  · rintro ⟨_, b, b', hb, hb', rfl⟩ c hc
    rcases List.mem_append.mp hc with hc | hc
    · exact hb c hc
    · exact hb' c hc
  · intro hcs
    exact ⟨⟨by simp, by simp⟩, cs, [], hcs, Blanks.nil, by simp⟩

/-- A compact text has nothing to be trimmed. -/
theorem Compact.trimChars_eq {cs : List Char} (h : Compact cs) : trimChars cs = cs :=
  trimChars_eq_iff.mpr ⟨h, [], [], Blanks.nil, Blanks.nil, by simp⟩

/-- A text is cut in front of its first character if that is the one. -/
theorem cut_self (c : Char) (cs : List Char) : cut c (c :: cs) = [] :: cut c cs := by
  rw [cut, if_pos rfl]

/-- A piece is cut off at the character behind it. -/
theorem cut_append {c : Char} {piece : List Char} (h : c ∉ piece) (rest : List Char) :
    cut c (piece ++ c :: rest) = piece :: cut c rest := by
  induction piece with
  | nil => exact cut_self c rest
  | cons d piece ih =>
      have hd : d ≠ c := fun heq => h (heq ▸ List.mem_cons_self)
      rw [List.cons_append, cut, if_neg hd, ih fun hc => h (List.mem_cons_of_mem d hc)]

/-- A text without the character is one piece. -/
theorem cut_of_not_mem {c : Char} {piece : List Char} (h : c ∉ piece) : cut c piece = [piece] := by
  induction piece with
  | nil => rfl
  | cons d piece ih =>
      have hd : d ≠ c := fun heq => h (heq ▸ List.mem_cons_self)
      rw [cut, if_neg hd, ih fun hc => h (List.mem_cons_of_mem d hc)]

/-- No piece has the character that the text is cut at. -/
theorem not_mem_of_mem_cut {c : Char} {cs piece : List Char} (h : piece ∈ cut c cs) :
    c ∉ piece := by
  induction cs generalizing piece with
  | nil =>
      obtain rfl := List.mem_singleton.mp h
      exact List.not_mem_nil
  | cons d cs ih =>
      by_cases hd : d = c
      · subst hd
        rw [cut_self] at h
        rcases List.mem_cons.mp h with rfl | h
        · exact List.not_mem_nil
        · exact ih h
      · rw [cut, if_neg hd] at h
        cases hcut : cut c cs with
        | nil =>
            rw [hcut] at h
            obtain rfl := List.mem_singleton.mp h
            exact fun hc => hd (List.mem_singleton.mp hc).symm
        | cons p ps =>
            rw [hcut] at h ih
            rcases List.mem_cons.mp h with rfl | h
            · exact List.not_mem_cons_of_ne_of_not_mem (Ne.symm hd) (ih List.mem_cons_self)
            · exact ih (List.mem_cons_of_mem p h)

/-- A text of these words, each a run without blanks, with blanks between each two of
them and perhaps around them. -/
inductive Spaced : List (List Char) → List Char → Prop
  | none {b : List Char} (hb : Blanks b) : Spaced [] b
  | word {b w rest : List Char} {ws : List (List Char)} (hb : Blanks b) (hne : w ≠ [])
      (hw : Solid w) (hrest : ∀ c ∈ rest.head?, isBlank c = true) (tail : Spaced ws rest) :
      Spaced (w :: ws) (b ++ (w ++ rest))

/-- A blank in front changes no word. -/
theorem words_cons_of_isBlank {c : Char} (hc : isBlank c = true) (cs : List Char) :
    words (c :: cs) = words cs := by
  rw [words, if_pos hc]

/-- Blanks in front change no word. -/
theorem words_append_of_blanks {b : List Char} (hb : Blanks b) (cs : List Char) :
    words (b ++ cs) = words cs := by
  induction b with
  | nil => rfl
  | cons c b ih =>
      rw [List.cons_append, words_cons_of_isBlank (hb c List.mem_cons_self),
        ih fun d hd => hb d (List.mem_cons_of_mem c hd)]

/-- A word is read up to the blank behind it. -/
theorem words_append_of_solid {w rest : List Char} (hne : w ≠ []) (hw : Solid w)
    (hrest : ∀ c ∈ rest.head?, isBlank c = true) : words (w ++ rest) = w :: words rest := by
  induction w with
  | nil => exact absurd rfl hne
  | cons c w ih =>
      have hc : ¬isBlank c = true := by simp [hw c List.mem_cons_self]
      rw [List.cons_append, words, if_neg hc]
      cases w with
      | nil =>
          have hend : rest.head?.all isBlank = true := (Option.all_eq_true _ _).mpr hrest
          rw [List.nil_append, if_pos hend]
      | cons d w =>
          have hd : isBlank d = false := hw d (by simp)
          have hmore : ¬(d :: w ++ rest).head?.all isBlank = true := by simp [hd]
          rw [if_neg hmore, ih (by simp) fun e he => hw e (List.mem_cons_of_mem c he)]

/-- The runs that a text is spaced out of are its words. -/
theorem Spaced.words_eq {ws : List (List Char)} {cs : List Char} (h : Spaced ws cs) :
    words cs = ws := by
  induction h with
  | @none b hb => rw [← List.append_nil b, words_append_of_blanks hb, words]
  | word hb hne hw hrest _ ih =>
      rw [words_append_of_blanks hb, words_append_of_solid hne hw hrest, ih]

/-- A text is spaced out of the same runs with a blank in front. -/
theorem Spaced.cons_blank {c : Char} {ws : List (List Char)} {cs : List Char}
    (hc : isBlank c = true) (h : Spaced ws cs) : Spaced ws (c :: cs) := by
  cases h with
  | none hb => exact .none (hb.cons hc)
  | word hb hne hw hrest tail => exact .word (hb.cons hc) hne hw hrest tail

/-- A character in front of a text that begins with no blank lengthens its first word. -/
theorem Spaced.cons_solid {c d : Char} {cs : List Char} {ws : List (List Char)}
    (hc : isBlank c = false) (hd : isBlank d = false) (h : Spaced ws (d :: cs)) :
    ∃ w ws', ws = w :: ws' ∧ Spaced ((c :: w) :: ws') (c :: d :: cs) := by
  generalize htext : d :: cs = text at h
  cases h with
  | none hb =>
      have hblank := hb d (htext ▸ List.mem_cons_self)
      rw [hd] at hblank
      cases hblank
  | @word b w rest ws' hb hne hw hrest tail =>
      cases b with
      | cons e b =>
          have hed : d = e := (List.cons.inj htext).1
          have hblank := hb e List.mem_cons_self
          rw [← hed, hd] at hblank
          cases hblank
      | nil =>
          refine ⟨w, ws', rfl, ?_⟩
          rw [List.nil_append] at htext ⊢
          rw [← List.cons_append]
          refine .word (b := []) ?_ (List.cons_ne_nil c w) ?_ hrest tail
          · exact Blanks.nil
          · exact List.forall_mem_cons.mpr ⟨hc, hw⟩

/-- Every text is spaced out of its words. -/
theorem spaced_words (cs : List Char) : Spaced (words cs) cs := by
  induction cs with
  | nil => exact .none Blanks.nil
  | cons c cs ih =>
      by_cases hc : isBlank c = true
      · rw [words_cons_of_isBlank hc]
        exact ih.cons_blank hc
      · have hc : isBlank c = false := Bool.eq_false_iff.mpr hc
        have hone : Solid [c] := List.forall_mem_singleton.mpr hc
        cases cs with
        | nil =>
            have hspaced : Spaced [[c]] [c] :=
              .word Blanks.nil (List.cons_ne_nil c []) hone (by simp) (.none Blanks.nil)
            rwa [hspaced.words_eq]
        | cons d cs =>
            by_cases hd : isBlank d = true
            · have hrest : ∀ e ∈ (d :: cs).head?, isBlank e = true := by simp [hd]
              rw [← List.singleton_append, words_append_of_solid (by simp) hone hrest]
              exact .word Blanks.nil (by simp) hone hrest ih
            · obtain ⟨w, ws, hws, hspaced⟩ := ih.cons_solid hc (Bool.eq_false_iff.mpr hd)
              rw [hspaced.words_eq]
              exact hspaced

/-- Capitals keep the runs apart. -/
theorem Spaced.map_toUpper {ws : List (List Char)} {cs : List Char} (h : Spaced ws cs) :
    Spaced (ws.map (·.map Char.toUpper)) (cs.map Char.toUpper) := by
  have hkeeps {p : Bool} {l : List Char} (hl : ∀ c ∈ l, isBlank c = p) :
      ∀ c ∈ l.map Char.toUpper, isBlank c = p := by
    intro c hc
    obtain ⟨d, hd, rfl⟩ := List.mem_map.mp hc
    rw [isBlank_toUpper, hl d hd]
  induction h with
  | none hb => exact .none (hkeeps hb)
  | @word b w rest ws hb hne hw hrest _ ih =>
      rw [List.map_append, List.map_append, List.map_cons]
      refine .word (hkeeps hb) (by simpa using hne) (hkeeps hw) ?_ ih
      intro c hc
      rw [List.head?_map, Option.mem_def, Option.map_eq_some_iff] at hc
      obtain ⟨d, hd, rfl⟩ := hc
      rw [isBlank_toUpper, hrest d hd]

/-- The words in capitals are those of the text in capitals. -/
theorem words_map_toUpper (cs : List Char) :
    words (cs.map Char.toUpper) = (words cs).map (·.map Char.toUpper) :=
  (spaced_words cs).map_toUpper.words_eq

/-- Single spaces are enough. -/
theorem Spaced.joined {ws : List (List Char)} {cs : List Char} (h : Spaced ws cs) :
    Spaced ws ([' '].intercalate ws) := by
  induction h with
  | none _ => exact .none Blanks.nil
  | @word b w rest ws _ hne hw _ tail ih =>
      cases ws with
      | nil =>
          have hone : Spaced [w] ([] ++ (w ++ [])) :=
            .word Blanks.nil hne hw (by simp) (.none Blanks.nil)
          simpa using hone
      | cons w' ws =>
          have hspace : isBlank ' ' = true := by decide
          have hmore : Spaced (w :: w' :: ws)
              ([] ++ (w ++ ' ' :: [' '].intercalate (w' :: ws))) :=
            .word Blanks.nil hne hw (by simp [hspace]) (ih.cons_blank hspace)
          rw [List.intercalate_cons_cons, List.append_assoc]
          exact hmore

/-- A collapsed text is its words with single spaces between them. -/
theorem toList_collapse (s : String) :
    (collapse s).toList = [' '].intercalate (words s.toList) := by
  rw [collapse, String.toList_intercalate, List.map_map]
  have hid : (String.toList ∘ String.ofList) = id := by
    funext cs
    exact String.toList_ofList
  rw [hid, List.map_id]
  rfl

/-- A collapsed text has the words that it had. -/
theorem words_collapse (s : String) : words (collapse s).toList = words s.toList := by
  rw [toList_collapse]
  exact (spaced_words s.toList).joined.words_eq

/-- Changing characters changes words and separators alike. -/
theorem map_intercalate (f : Char → Char) (ws : List (List Char)) :
    ([' '].intercalate ws).map f = [f ' '].intercalate (ws.map (·.map f)) := by
  induction ws with
  | nil => rfl
  | cons w ws ih =>
      cases ws with
      | nil => simp
      | cons w' ws =>
          rw [List.intercalate_cons_cons, List.map_append, List.map_append, ih]
          simp only [List.map_cons, List.map_nil, List.intercalate_cons_cons]

/-- A text in capitals and with single spaces is the given one exactly if it has the same
words. -/
theorem upper_collapse_eq_iff {s t : String} (ht : collapse t = t) :
    upper (collapse s) = t ↔ (words s.toList).map (·.map Char.toUpper) = words t.toList := by
  have hupper : (upper (collapse s)).toList = (collapse s).toList.map Char.toUpper :=
    String.toList_map
  constructor
  · intro h
    rw [← h, hupper, words_map_toUpper, words_collapse]
  · intro h
    apply String.toList_injective
    have hspace : ' '.toUpper = ' ' := by decide
    calc (upper (collapse s)).toList
        = ([' '].intercalate (words s.toList)).map Char.toUpper := by
          rw [hupper, toList_collapse]
      _ = [' '].intercalate (words t.toList) := by rw [map_intercalate, h, hspace]
      _ = t.toList := by rw [← toList_collapse, ht]

end TableMapper.Text
