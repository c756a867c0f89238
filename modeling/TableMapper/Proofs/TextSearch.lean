import TableMapper.Proofs.BlankText
import TableMapper.Proofs.ByteOffset

/-!
# Searching a text

A word is searched for in a text whose characters are folded, say to small letters, and
what counts is the first place where it stands.  The text behind that place is not folded.
It can be got at by the characters, or by an offset: the bytes of the folded text are
searched for those of the word, and the text itself is cut at the same offset.  The second
way never fails to cut, since folding keeps the size of every character.

* `Stands`, `StandsFirst` — a word stands in a text, and does not stand further to the front;
* `after?_eq_some_iff` — what a search by characters gives;
* `afterOffset?`, `afterOffset?_eq` — a search by offsets gives the same and never fails.
-/

namespace TableMapper.Text

/-- A word stands in a text behind `before` once the text is folded. -/
def Stands (fold : Char → Char) (word cs before behind : List Char) : Prop :=
  ∃ found, found.map fold = word ∧ cs = before ++ (found ++ behind)

/-- The first place where a word stands in a folded text. -/
structure StandsFirst (fold : Char → Char) (word cs before behind : List Char) : Prop where
  stands : Stands fold word cs before behind
  first : ∀ before' behind', Stands fold word cs before' behind' → before.length ≤ before'.length

/-- The text behind the first place where a word stands, found by offsets: the bytes of the
folded text are searched, and the text itself is cut there. `none` if it cannot be cut. -/
def afterOffset? (fold : Char → Char) (word cs : List Char) : Option (Option (List Char)) :=
  match (bytes (cs.map fold)).dropInfix? (bytes word) with
  | none => some none
  | some (front, _) =>
    (cutAt? (front.length + (bytes word).length) cs).map fun (_, behind) => some behind

variable {fold : Char → Char} {word cs before behind : List Char}

/-- A word stands in the folded text where it stands in the text. -/
theorem stands_iff {folded folded' : List Char} :
    cs.map fold = folded ++ (word ++ folded') ↔
      ∃ before behind, before.map fold = folded ∧ behind.map fold = folded' ∧
        Stands fold word cs before behind := by
  constructor
  · intro h
    obtain ⟨before, tail, rfl, hbefore, htail⟩ := List.map_eq_append_iff.mp h
    obtain ⟨found, behind, rfl, hfound, hbehind⟩ := List.map_eq_append_iff.mp htail
    exact ⟨before, behind, hbefore, hbehind, found, hfound, rfl⟩
  · rintro ⟨before, behind, rfl, rfl, found, rfl, rfl⟩
    rw [List.map_append, List.map_append]

/-- There is one first place. -/
theorem StandsFirst.unique {before' behind' : List Char}
    (h : StandsFirst fold word cs before behind) (h' : StandsFirst fold word cs before' behind') :
    before = before' ∧ behind = behind' := by
  have hlength : before.length = before'.length :=
    Nat.le_antisymm (h.first _ _ h'.stands) (h'.first _ _ h.stands)
  obtain ⟨found, hfound, hsplit⟩ := h.stands
  obtain ⟨found', hfound', hsplit'⟩ := h'.stands
  obtain ⟨hbefore, htail⟩ := List.append_inj (hsplit.symm.trans hsplit') hlength
  have hword : found.length = found'.length := by
    rw [← List.length_map fold, hfound, ← hfound', List.length_map]
  exact ⟨hbefore, (List.append_inj htail hword).2⟩

/-- A word stands at the front of a text or else in the rest of it. -/
theorem stands_cons_iff {c : Char} :
    Stands fold word (c :: cs) before behind ↔
      (before = [] ∧ Stands fold word (c :: cs) [] behind) ∨
        ∃ before', before = c :: before' ∧ Stands fold word cs before' behind := by
  constructor
  · intro h
    cases before with
    | nil => exact .inl ⟨rfl, h⟩
    | cons d before =>
        obtain ⟨found, hfound, hsplit⟩ := h
        obtain ⟨rfl, htail⟩ := List.cons.inj hsplit
        exact .inr ⟨before, rfl, found, hfound, htail⟩
  · rintro (⟨rfl, h⟩ | ⟨before', rfl, found, hfound, rfl⟩)
    · exact h
    · exact ⟨found, hfound, rfl⟩

/-- A text begins with a word if the word stands at its front. -/
theorem isPrefixOf_map_iff :
    word.isPrefixOf (cs.map fold) = true ↔ ∃ behind, Stands fold word cs [] behind := by
  rw [List.isPrefixOf_iff_prefix]
  constructor
  · rintro ⟨folded, h⟩
    obtain ⟨found, behind, rfl, hfound, _⟩ := List.map_eq_append_iff.mp h.symm
    exact ⟨behind, found, hfound, rfl⟩
  · rintro ⟨behind, found, rfl, rfl⟩
    rw [List.nil_append, List.map_append]
    exact List.prefix_append _ _

/-- Behind a word at the front is the text without so many characters. -/
theorem Stands.drop_eq (h : Stands fold word cs [] behind) : cs.drop word.length = behind := by
  obtain ⟨found, rfl, rfl⟩ := h
  rw [List.length_map, List.nil_append, List.drop_left]

/-- What a search by characters gives is behind the first place where the word stands. -/
theorem standsFirst_of_after? (h : after? fold word cs = some behind) :
    ∃ before, StandsFirst fold word cs before behind := by
  induction cs with
  | nil =>
      rw [after?] at h
      split_ifs at h with hempty
      cases h
      obtain rfl := List.isEmpty_iff.mp hempty
      exact ⟨[], ⟨[], rfl, rfl⟩, fun _ _ _ => Nat.zero_le _⟩
  | cons c cs ih =>
      rw [after?] at h
      split_ifs at h with hhere
      · obtain ⟨behind', hstands⟩ := isPrefixOf_map_iff.mp hhere
        rw [hstands.drop_eq] at h
        cases h
        exact ⟨[], hstands, fun _ _ _ => Nat.zero_le _⟩
      · obtain ⟨before, hstands, hfirst⟩ := ih h
        refine ⟨c :: before, stands_cons_iff.mpr (.inr ⟨before, rfl, hstands⟩), ?_⟩
        intro before' behind' hother
        rcases stands_cons_iff.mp hother with ⟨_, hfront⟩ | ⟨before'', rfl, hrest⟩
        · exact absurd (isPrefixOf_map_iff.mpr ⟨behind', hfront⟩) hhere
        · exact Nat.succ_le_succ (hfirst before'' behind' hrest)

/-- It gives something where the word stands anywhere. -/
theorem Stands.after?_ne_none (h : Stands fold word cs before behind) :
    after? fold word cs ≠ none := by
  induction cs generalizing before with
  | nil =>
      obtain ⟨found, rfl, hsplit⟩ := h
      obtain ⟨rfl, rfl, rfl⟩ : before = [] ∧ found = [] ∧ behind = [] := by simpa using hsplit.symm
      simp [after?]
  | cons c cs ih =>
      rw [after?]
      split_ifs with hhere
      · exact Option.some_ne_none _
      · rcases stands_cons_iff.mp h with ⟨_, hfront⟩ | ⟨before', _, hrest⟩
        · exact absurd (isPrefixOf_map_iff.mpr ⟨behind, hfront⟩) hhere
        · exact ih hrest

/-- A search by characters gives what is behind the first place where the word stands. -/
theorem after?_eq_some_iff :
    after? fold word cs = some behind ↔ ∃ before, StandsFirst fold word cs before behind := by
  constructor
  · exact standsFirst_of_after?
  · rintro ⟨before, h⟩
    obtain ⟨behind', hafter⟩ := Option.ne_none_iff_exists'.mp h.stands.after?_ne_none
    obtain ⟨before', h'⟩ := standsFirst_of_after? hafter
    rw [hafter, (h.unique h').2]

/-- A word is found exactly if it stands somewhere. -/
theorem isSome_after?_iff :
    (after? fold word cs).isSome = true ↔ ∃ before behind, Stands fold word cs before behind := by
  constructor
  · intro h
    obtain ⟨behind, hafter⟩ := Option.isSome_iff_exists.mp h
    obtain ⟨before, hfirst⟩ := standsFirst_of_after? hafter
    exact ⟨before, behind, hfirst.stands⟩
  · rintro ⟨before, behind, h⟩
    exact Option.isSome_iff_ne_none.mpr h.after?_ne_none

/-- A word occurs in a text that it is part of. -/
theorem occurs_iff {w s : String} : occurs w s = true ↔ w.toList <:+: s.toList := by
  rw [occurs, isSome_after?_iff]
  constructor
  · rintro ⟨before, behind, found, hfound, hsplit⟩
    rw [List.map_id] at hfound
    exact ⟨before, behind, by rw [hsplit, hfound, List.append_assoc]⟩
  · rintro ⟨before, behind, hsplit⟩
    exact ⟨before, behind, w.toList, List.map_id _, by rw [← hsplit, List.append_assoc]⟩

/-- It occurs in the text with small letters where it stands in any letters. -/
theorem occurs_lower_iff {w s : String} :
    occurs w (lower s) = true ↔
      ∃ before behind, Stands Char.toLower w.toList s.toList before behind := by
  rw [occurs_iff, lower, String.toList_map]
  constructor
  · rintro ⟨folded, folded', hsplit⟩
    rw [List.append_assoc] at hsplit
    obtain ⟨before, behind, _, _, h⟩ := stands_iff.mp hsplit.symm
    exact ⟨before, behind, h⟩
  · rintro ⟨before, behind, h⟩
    refine ⟨before.map Char.toLower, behind.map Char.toLower, ?_⟩
    rw [List.append_assoc, stands_iff.mpr ⟨before, behind, rfl, rfl, h⟩]

/-- A small letter has as many bytes as its capital. -/
theorem utf8Size_toLower (c : Char) : c.toLower.utf8Size = c.utf8Size := by
  rcases toLower_eq_or c with heq | ⟨_, hsmall⟩
  · rw [heq]
  · have hone {d : Char} (hd : d.toNat ≤ 127) : d.utf8Size = 1 :=
      Char.utf8Size_eq_one_iff.mpr hd
    have hletter : c.toNat ≤ 127 := by
      have hnat := toNat_toLower c
      split_ifs at hnat with hcapital <;> omega
    rw [hone hletter, hone (Nat.le_trans hsmall (by decide))]

/-- The first place among the bytes is the first place among the characters. -/
theorem StandsFirst.dropInfix? (h : StandsFirst fold word cs before behind) (hne : word ≠ []) :
    (bytes (cs.map fold)).dropInfix? (bytes word) =
      some (bytes (before.map fold), bytes (behind.map fold)) := by
  rw [List.dropInfix?_eq_some_iff]
  refine ⟨⟨bytes word, ?_, beq_self_eq_true _⟩, ?_⟩
  · rw [stands_iff.mpr ⟨before, behind, rfl, rfl, h.stands⟩]
    simp
  · intro front found back hsplit hfound
    -- Any other place among the bytes is one among the characters, and so not further in front.
    obtain rfl := eq_of_beq hfound
    rw [List.append_assoc] at hsplit
    obtain ⟨folded, folded', hfolded, rfl, rfl⟩ := exists_of_bytes_eq hne hsplit
    obtain ⟨before', behind', rfl, rfl, hstands⟩ := stands_iff.mp hfolded
    have hlength := h.first _ _ hstands
    obtain ⟨_, _, hcs⟩ := h.stands
    obtain ⟨_, _, hcs'⟩ := hstands
    have hbegins : before <+: before' :=
      List.prefix_of_prefix_length_le ⟨_, hcs.symm⟩ ⟨_, hcs'.symm⟩ hlength
    exact length_bytes_le_of_isPrefix (hbegins.map fold)

/-- Where the word does not stand, its bytes do not either. -/
theorem dropInfix?_eq_none (h : after? fold word cs = none) (hne : word ≠ []) :
    (bytes (cs.map fold)).dropInfix? (bytes word) = none := by
  by_contra hfound
  obtain ⟨⟨front, back⟩, hsome⟩ := Option.ne_none_iff_exists'.mp hfound
  obtain ⟨⟨found, hsplit, hword⟩, _⟩ := List.dropInfix?_eq_some_iff.mp hsome
  obtain rfl := eq_of_beq hword
  rw [List.append_assoc] at hsplit
  obtain ⟨folded, folded', hfolded, _, _⟩ := exists_of_bytes_eq hne hsplit
  obtain ⟨before, behind, _, _, hstands⟩ := stands_iff.mp hfolded
  exact hstands.after?_ne_none h

/-- **A search by offsets gives what a search by characters gives.**  Folding keeps the size
of every character, so an offset in the folded text is one in the text itself: it is neither
beyond the text nor within one of its characters. -/
theorem afterOffset?_eq (hfold : ∀ c, (fold c).utf8Size = c.utf8Size) (hne : word ≠ [])
    (cs : List Char) : afterOffset? fold word cs = some (after? fold word cs) := by
  cases hafter : after? fold word cs with
  | none => rw [afterOffset?, dropInfix?_eq_none hafter hne]
  | some behind =>
      obtain ⟨before, hfirst⟩ := standsFirst_of_after? hafter
      obtain ⟨found, rfl, rfl⟩ := hfirst.stands
      have hoffset : (bytes (before.map fold)).length + (bytes (found.map fold)).length =
          (bytes (before ++ found)).length := by
        rw [length_bytes_map hfold, length_bytes_map hfold, bytes_append, List.length_append]
      rw [afterOffset?, hfirst.dropInfix? hne]
      dsimp only
      rw [hoffset, ← List.append_assoc, cutAt?_append]
      rfl

end TableMapper.Text
