import TableMapper.Derive.Lexeme

/-!
# Identifiers of a text

An identifier is a word, perhaps with the raw marker in front, which belongs to no word.
The lexemes of a text hold no other identifiers, and matching the brackets makes no new
ones.

* `IsWord`, `IsIdentifier` — words, and the words that identifiers name;
* `WellNamed` — tokens of which every identifier names a word;
* `wellNamed_readAll?` — the tokens of a text are such.
-/

namespace TableMapper.Derive

/-- A word: a character with which an identifier may begin, and others with which it may
go on. -/
def IsWord (w : String) : Prop :=
  ∃ c cs, w.toList = c :: cs ∧ isIdentStart c = true ∧ cs.all isIdentContinue = true

/-- An identifier and the word that it names: the word itself or, for a word that has a raw
form, this form. -/
def IsIdentifier (name word : String) : Prop :=
  IsWord word ∧ (name = word ∨ name = "r#" ++ word ∧ word ∉ neverRaw)

/-- A word is an identifier that names itself. -/
theorem IsWord.isIdentifier {w : String} (h : IsWord w) : IsIdentifier w w :=
  ⟨h, .inl rfl⟩

/-- No character of a word is the second one of the raw marker. -/
theorem IsWord.marker_not_mem {w : String} (h : IsWord w) : '#' ∉ w.toList := by
  obtain ⟨c, cs, hw, hc, hcs⟩ := h
  have hstart : isIdentStart '#' = false := by decide
  have hcontinue : isIdentContinue '#' = false := by decide
  rw [hw]
  intro hmem
  rcases List.mem_cons.mp hmem with rfl | hmem
  · rw [hstart] at hc
    cases hc
  · have hbad := List.all_eq_true.mp hcs _ hmem
    rw [hcontinue] at hbad
    cases hbad

/-- A raw form has the second character of the marker. -/
theorem marker_mem_raw (w : String) : '#' ∈ ("r#" ++ w).toList := by
  rw [String.toList_append]
  exact List.mem_append_left _ (by decide)

namespace IsIdentifier

variable {name word word' : String}

/-- An identifier has the raw marker exactly if it is not the word that it names. -/
theorem raw_iff (h : IsIdentifier name word) : name = "r#" ++ word ↔ name ≠ word := by
  constructor
  · rintro rfl heq
    exact h.1.marker_not_mem (heq ▸ marker_mem_raw word)
  · intro hne
    exact (h.2.resolve_left hne).1

/-- An identifier names one word. -/
theorem word_unique (h : IsIdentifier name word) (h' : IsIdentifier name word') : word = word' := by
  rcases h with ⟨hword, rfl | ⟨rfl, _⟩⟩ <;> rcases h' with ⟨hword', heq | ⟨heq, _⟩⟩
  · exact heq
  · exact absurd (heq ▸ marker_mem_raw word') hword.marker_not_mem
  · exact absurd (heq ▸ marker_mem_raw word) hword'.marker_not_mem
  · have hlists := congrArg String.toList heq
    rw [String.toList_append, String.toList_append, List.append_right_inj] at hlists
    exact String.toList_injective hlists

end IsIdentifier

/-- What is read as a word is one. -/
theorem isWord_of_word? {cs rest : List Char} {w : String} (h : word? cs = some (w, rest)) :
    IsWord w := by
  cases cs with
  | nil => cases h
  | cons c cs =>
      rw [word?] at h
      by_cases hstart : isIdentStart c = true
      · rw [if_pos hstart] at h
        cases h
        exact ⟨c, _, String.toList_ofList, hstart, List.all_takeWhile⟩
      · rw [if_neg hstart] at h
        cases h

/-- What is read as an identifier names a word. -/
theorem isIdentifier_of_ident? {cs rest : List Char} {name : String}
    (h : ident? cs = some (name, rest)) : ∃ word, IsIdentifier name word := by
  unfold ident? at h
  split at h
  · obtain ⟨⟨w, r⟩, hword, h⟩ := Option.bind_eq_some_iff.mp h
    dsimp only at h
    split at h
    · cases h
    · next hraw =>
      cases h
      refine ⟨w, isWord_of_word? hword, .inr ⟨rfl, ?_⟩⟩
      simpa using hraw
  · exact ⟨name, (isWord_of_word? h).isIdentifier⟩

/-- The token `t` is among `ts`, or inside of brackets among them. -/
inductive Token.Within (t : Token) : List Token → Prop
  | here {ts : List Token} (h : t ∈ ts) : Within t ts
  | inside {ts inner : List Token} {b : Bracket} (h : .group b inner ∈ ts)
      (hinner : Within t inner) : Within t ts

/-- Tokens of which every identifier, in brackets too, names a word. -/
def WellNamed (ts : List Token) : Prop :=
  ∀ name, Token.Within (.ident name) ts → ∃ word, IsIdentifier name word

namespace WellNamed

variable {t : Token} {ts us : List Token}

/-- Fewer tokens are well named if more are. -/
theorem of_subset (h : WellNamed us) (hsub : ts ⊆ us) : WellNamed ts := by
  rintro name (hmem | ⟨hmem, hinner⟩)
  · exact h name (.here (hsub hmem))
  · exact h name (.inside (hsub hmem) hinner)

/-- The order of tokens does not matter. -/
theorem reverse (h : WellNamed ts) : WellNamed ts.reverse :=
  h.of_subset fun _ ht => List.mem_reverse.mp ht

/-- A token in front of others. -/
theorem cons (ht : WellNamed [t]) (hts : WellNamed ts) : WellNamed (t :: ts) := by
  rintro name (hmem | ⟨hmem, hinner⟩)
  · rcases List.mem_cons.mp hmem with rfl | hmem
    · exact ht name (.here List.mem_cons_self)
    · exact hts name (.here hmem)
  · rcases List.mem_cons.mp hmem with rfl | hmem
    · exact ht name (.inside List.mem_cons_self hinner)
    · exact hts name (.inside hmem hinner)

/-- No tokens are well named. -/
theorem nil : WellNamed [] := by
  rintro name (hmem | ⟨hmem, _⟩) <;> cases hmem

/-- An identifier that names a word is well named. -/
theorem ident {name word : String} (h : IsIdentifier name word) : WellNamed [.ident name] := by
  rintro name' (hmem | ⟨hmem, _⟩)
  · cases List.mem_singleton.mp hmem
    exact ⟨word, h⟩
  · cases List.mem_singleton.mp hmem

/-- Brackets are well named if what is inside of them is. -/
theorem group {b : Bracket} {inner : List Token} (h : WellNamed inner) :
    WellNamed [.group b inner] := by
  rintro name (hmem | ⟨hmem, hinner⟩)
  · cases List.mem_singleton.mp hmem
  · cases List.mem_singleton.mp hmem
    exact h name hinner

/-- A token that is neither an identifier nor brackets has no name. -/
theorem other (hident : ∀ name, t ≠ .ident name) (hgroup : ∀ b inner, t ≠ .group b inner) :
    WellNamed [t] := by
  rintro name (hmem | ⟨hmem, _⟩)
  · exact absurd (List.mem_singleton.mp hmem).symm (hident name)
  · exact absurd (List.mem_singleton.mp hmem).symm (hgroup _ _)

/-- Marks hold no names. -/
theorem mark (c : Char) (joint : Bool) : WellNamed [.mark c joint] :=
  .other (fun _ => Token.noConfusion) fun _ _ => Token.noConfusion

/-- Lifetimes hold no names. -/
theorem lifetime (name : String) : WellNamed [.lifetime name] :=
  .other (fun _ => Token.noConfusion) fun _ _ => Token.noConfusion

/-- Strings hold no names. -/
theorem string (value shown : String) : WellNamed [.string value shown] :=
  .other (fun _ => Token.noConfusion) fun _ _ => Token.noConfusion

/-- Other literals hold no names. -/
theorem literal (shown : String) : WellNamed [.literal shown] :=
  .other (fun _ => Token.noConfusion) fun _ _ => Token.noConfusion

end WellNamed

/-- What is read as a string holds no names. -/
theorem wellNamed_string? {cs rest : List Char} {t : Token} (h : string? cs = some (t, rest)) :
    WellNamed [t] := by
  unfold string? at h
  dsimp only at h
  split at h <;> obtain ⟨⟨value, r⟩, _, h⟩ := Option.bind_eq_some_iff.mp h <;> cases h <;>
    exact .string _ _

/-- What is read as a literal holds no names. -/
theorem wellNamed_literal? {cs rest : List Char} {t : Token} (h : literal? cs = some (t, rest)) :
    WellNamed [t] := by
  obtain ⟨r, _, h⟩ := Option.map_eq_some_iff.mp h
  cases h
  exact .literal _

/-- What is read as a mark holds no names. -/
theorem wellNamed_mark? {cs rest : List Char} {t : Token} (h : mark? cs = some (t, rest)) :
    WellNamed [t] := by
  obtain ⟨⟨c, r⟩, _, h⟩ := Option.bind_eq_some_iff.mp h
  dsimp only at h
  split at h
  · obtain ⟨⟨name, r'⟩, _, h⟩ := Option.bind_eq_some_iff.mp h
    dsimp only at h
    split at h
    · cases h
    · split at h
      · cases h
        exact .lifetime _
      · cases h
    · cases h
      exact .lifetime _
  · cases h
    exact .mark _ _

/-- A lexeme that is no bracket is well named. -/
theorem wellNamed_leaf? {cs rest : List Char} {t : Token} (h : leaf? cs = some (t, rest)) :
    WellNamed [t] := by
  rw [leaf?, Option.or_eq_some_iff, Option.or_eq_some_iff, Option.or_eq_some_iff] at h
  rcases h with h | ⟨_, h | ⟨_, h | ⟨_, h⟩⟩⟩
  · exact wellNamed_string? h
  · exact wellNamed_literal? h
  · exact wellNamed_mark? h
  · split at h
    · cases h
    · obtain ⟨⟨name, r⟩, hname, h⟩ := Option.map_eq_some_iff.mp h
      cases h
      obtain ⟨word, hword⟩ := isIdentifier_of_ident? hname
      exact .ident hword

/-- The attribute that a comment stands for has one identifier. -/
theorem wellNamed_docLexemes {inner : Bool} {text : String} {t : Token}
    (h : .leaf t ∈ docLexemes inner text) : WellNamed [t] := by
  have hdoc : IsWord "doc" := ⟨'d', ['o', 'c'], by decide, by decide, by decide⟩
  cases inner with
  | false =>
      simp only [docLexemes, Bool.false_eq_true, if_false, List.append_nil, List.cons_append,
        List.nil_append, List.mem_cons, Lexeme.leaf.injEq, reduceCtorEq, List.not_mem_nil, false_or,
        or_false] at h
      rcases h with rfl | rfl | rfl | rfl
      · exact .mark _ _
      · exact .ident hdoc.isIdentifier
      · exact .mark _ _
      · exact .string _ _
  | true =>
      simp only [docLexemes, if_true, List.cons_append, List.nil_append, List.mem_cons,
        Lexeme.leaf.injEq, reduceCtorEq, List.not_mem_nil, false_or, or_false] at h
      rcases h with rfl | rfl | rfl | rfl | rfl
      · exact .mark _ _
      · exact .mark _ _
      · exact .ident hdoc.isIdentifier
      · exact .mark _ _
      · exact .string _ _

/-- A bracket is no leaf. -/
theorem bracket?_ne_leaf (c : Char) (t : Token) : bracket? c ≠ some (.leaf t) := by
  unfold bracket?
  split <;> simp

/-- The lexemes of a text hold no identifiers that name no words. -/
theorem wellNamed_readFrom? {n : Nat} {cs : List Char} {ls : List Lexeme}
    (h : Lexeme.readFrom? n cs = some ls) {t : Token} (ht : .leaf t ∈ ls) : WellNamed [t] := by
  induction n generalizing cs ls with
  | zero => cases h
  | succ n ih =>
      cases cs with
      | nil =>
          cases h
          cases ht
      | cons c r =>
          rw [Lexeme.readFrom?] at h
          split at h
          · exact ih h ht
          · split at h
            · next rest doc _ =>
              obtain ⟨ls', hrest, rfl⟩ := Option.map_eq_some_iff.mp h
              rcases List.mem_append.mp ht with ht | ht
              · cases doc with
                | none => cases ht
                | some doc => exact wellNamed_docLexemes ht
              · exact ih hrest ht
            · split at h
              · next b hb =>
                obtain ⟨ls', hrest, rfl⟩ := Option.map_eq_some_iff.mp h
                rcases List.mem_cons.mp ht with rfl | ht
                · exact absurd hb (bracket?_ne_leaf c t)
                · exact ih hrest ht
              · obtain ⟨⟨t', rest⟩, hleaf, h⟩ := Option.bind_eq_some_iff.mp h
                obtain ⟨ls', hrest, h⟩ := Option.bind_eq_some_iff.mp h
                cases h
                rcases List.mem_cons.mp ht with ht | ht
                · cases ht
                  exact wellNamed_leaf? hleaf
                · exact ih hrest ht

/-- Matching the brackets of lexemes makes no new identifiers. -/
theorem wellNamed_nest? {open' : List (Bracket × List Token)} {now ts : List Token}
    {ls : List Lexeme} (h : Token.nest? open' now ls = some ts)
    (hls : ∀ t, .leaf t ∈ ls → WellNamed [t]) (hnow : WellNamed now)
    (hopen : ∀ front ∈ open', WellNamed front.2) : WellNamed ts := by
  induction ls generalizing open' now with
  | nil =>
      rw [Token.nest?] at h
      split at h
      · cases h
        exact hnow.reverse
      · cases h
  | cons l ls ih =>
      have hls' : ∀ t, .leaf t ∈ ls → WellNamed [t] := fun t ht => hls t (List.mem_cons_of_mem l ht)
      cases l with
      | leaf t => exact ih h hls' (.cons (hls t List.mem_cons_self) hnow) hopen
      | opening b => exact ih h hls' .nil (List.forall_mem_cons.mpr ⟨hnow, hopen⟩)
      | closing b =>
          cases open' with
          | nil => cases h
          | cons front open' =>
              obtain ⟨hbefore, hopen⟩ := List.forall_mem_cons.mp hopen
              rw [Token.nest?] at h
              split at h
              · exact ih h hls' (.cons (.group hnow.reverse) hbefore) hopen
              · cases h

/-- Every identifier among the tokens of a text names a word. -/
theorem wellNamed_readAll? {s : String} {ts : List Token} (h : Token.readAll? s = some ts) :
    WellNamed ts := by
  obtain ⟨ls, hls, h⟩ := Option.bind_eq_some_iff.mp h
  exact wellNamed_nest? h (fun t ht => wellNamed_readFrom? hls ht) .nil
    fun _ hfront => absurd hfront List.not_mem_nil

end TableMapper.Derive
