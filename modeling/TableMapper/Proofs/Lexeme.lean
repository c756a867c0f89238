import TableMapper.Proofs.LiteralToken

/-!
# Lexemes of a condition

The tokens of a statement joined to the units its grammar is about: brackets,
commas, words between them, and quoted tokens, which stay opaque.  A word ends
at a blank, at a bracket or comma, and at a quoted token.

* `lexemes` — the lexemes of a text;
* `WordBreak` — a text that ends the word in front of it and goes into no word
  behind it, so that the lexemes on its two sides do not depend on each other;
* `lexemes_glue`, `lexemes_intercalate` — the lexemes of a text that is put
  together with such breaks.
-/

namespace TableMapper

/-- A unit of the grammar of conditions. -/
inductive Lexeme
  | opening
  | closing
  | comma
  | word (w : String)
  | quoted (kind : QuoteKind) (content : List Char)
  | unclosed (kind : QuoteKind) (content : List Char)
  deriving DecidableEq, Repr

/-- The lexeme that a character is on its own. -/
def Lexeme.ofChar? (c : Char) : Option Lexeme :=
  if c = '(' then some .opening
  else if c = ')' then some .closing
  else if c = ',' then some .comma
  else none

/-- The word that a run of characters is, if it is one. -/
def wordOf : List Char → List Lexeme
  | [] => []
  | cs => [.word (.ofList cs)]

/-- The lexemes of the rest of a text; `run` is the word that has been begun. -/
def lexemesFrom (run : List Char) : List Token → List Lexeme
  | [] => wordOf run
  | .plain c :: ts =>
    if Text.isBlank c then wordOf run ++ lexemesFrom [] ts
    else match Lexeme.ofChar? c with
      | some l => wordOf run ++ l :: lexemesFrom [] ts
      | none => lexemesFrom (run ++ [c]) ts
  | .quoted kind content :: ts => wordOf run ++ .quoted kind content :: lexemesFrom [] ts
  | .unclosed kind content :: ts => wordOf run ++ .unclosed kind content :: lexemesFrom [] ts

/-- The lexemes of a text. -/
def lexemes (s : String) : List Lexeme :=
  lexemesFrom [] (tokens s)

/-- A character that belongs to no word. -/
def isBreak (c : Char) : Bool :=
  Text.isBlank c || (Lexeme.ofChar? c).isSome

/-- A token that belongs to no word. -/
def Token.isBreak : Token → Bool
  | plain c => TableMapper.isBreak c
  | _ => true

/-- A blank ends the word in front of it. -/
theorem lexemesFrom_blank {c : Char} (hc : Text.isBlank c = true) (run : List Char)
    (ts : List Token) :
    lexemesFrom run (.plain c :: ts) = wordOf run ++ lexemesFrom [] ts := by
  rw [lexemesFrom, if_pos hc]

/-- A mark ends the word in front of it and is a lexeme. -/
theorem lexemesFrom_mark {c : Char} {l : Lexeme} (hblank : Text.isBlank c = false)
    (hc : Lexeme.ofChar? c = some l) (run : List Char) (ts : List Token) :
    lexemesFrom run (.plain c :: ts) = wordOf run ++ l :: lexemesFrom [] ts := by
  rw [lexemesFrom, if_neg (Bool.eq_false_iff.mp hblank), hc]

/-- Any other character goes on with the word. -/
theorem lexemesFrom_char {c : Char} (hc : isBreak c = false) (run : List Char)
    (ts : List Token) :
    lexemesFrom run (.plain c :: ts) = lexemesFrom (run ++ [c]) ts := by
  obtain ⟨hblank, hmark⟩ := Bool.or_eq_false_iff.mp hc
  rw [lexemesFrom, if_neg (Bool.eq_false_iff.mp hblank),
    Option.isNone_iff_eq_none.mp (Option.isSome_eq_false_iff.mp hmark)]

/-- What a token is to the words around it: a character of a word, or something
that ends the word in front of it and gives its own lexemes. -/
theorem Token.char_or_break (t : Token) :
    (∃ c, t = .plain c ∧ TableMapper.isBreak c = false) ∨
      ∃ ls, ∀ run ts, lexemesFrom run (t :: ts) = wordOf run ++ (ls ++ lexemesFrom [] ts) := by
  cases t with
  | plain c =>
      cases hblank : Text.isBlank c with
      | true => exact .inr ⟨[], fun run ts => lexemesFrom_blank hblank run ts⟩
      | false =>
          cases hmark : Lexeme.ofChar? c with
          | some l => exact .inr ⟨[l], fun run ts => lexemesFrom_mark hblank hmark run ts⟩
          | none => exact .inl ⟨c, rfl, by simp [TableMapper.isBreak, hblank, hmark]⟩
  | quoted kind content => exact .inr ⟨[.quoted kind content], fun _ _ => rfl⟩
  | unclosed kind content => exact .inr ⟨[.unclosed kind content], fun _ _ => rfl⟩

/-- The lexemes of a token that belongs to no word, whatever is around it. -/
theorem Token.exists_lexemes {t : Token} (ht : t.isBreak = true) :
    ∃ ls, ∀ run ts, lexemesFrom run (t :: ts) = wordOf run ++ (ls ++ lexemesFrom [] ts) := by
  rcases t.char_or_break with ⟨c, rfl, hc⟩ | hls
  · rw [Token.isBreak, hc] at ht
    cases ht
  · exact hls

/-- Lexemes in front of a break do not depend on what is behind it. -/
theorem lexemesFrom_append_break {t : Token} (ht : t.isBreak = true) (run : List Char)
    (ts us : List Token) :
    lexemesFrom run (ts ++ t :: us) = lexemesFrom run ts ++ lexemesFrom [] (t :: us) := by
  induction ts generalizing run with
  | nil =>
      obtain ⟨ls, hls⟩ := Token.exists_lexemes ht
      rw [List.nil_append, hls, hls]
      rfl
  | cons u ts ih =>
      rw [List.cons_append]
      rcases u.char_or_break with ⟨c, rfl, hc⟩ | ⟨ls, hls⟩
      · rw [lexemesFrom_char hc, lexemesFrom_char hc, ih]
      · rw [hls, hls, ih]
        simp only [List.append_assoc]

/-- Lexemes behind a break do not depend on what is in front of it. -/
theorem lexemesFrom_break_append {t : Token} (ht : t.isBreak = true) (run : List Char)
    (us : List Token) :
    lexemesFrom run (t :: us) = lexemesFrom run [t] ++ lexemesFrom [] us := by
  obtain ⟨ls, hls⟩ := Token.exists_lexemes ht
  rw [hls, hls, List.append_assoc, List.append_assoc]
  rfl

/-- A text without marks whose first and last characters belong to no word. -/
def WordBreak (p : String) : Prop :=
  Unmarked p ∧ p.toList.head?.any isBreak = true ∧ p.toList.getLast?.any isBreak = true

instance (p : String) : Decidable (WordBreak p) :=
  inferInstanceAs (Decidable (_ ∧ _ ∧ _))

namespace WordBreak

variable {p : String}

theorem ne_empty (hp : WordBreak p) : p ≠ "" := by
  rintro rfl
  have hhead := hp.2.1
  revert hhead
  decide

theorem separator (hp : WordBreak p) : Separator p :=
  ⟨hp.ne_empty, hp.1⟩

/-- The tokens of a break begin with one that belongs to no word. -/
theorem exists_first (hp : WordBreak p) : ∃ t ts, tokens p = t :: ts ∧ t.isBreak = true := by
  obtain ⟨c, hhead, hc⟩ := (Option.any_eq_true _ _).mp hp.2.1
  obtain ⟨cs, hcs⟩ := List.head?_eq_some_iff.mp hhead
  exact ⟨.plain c, cs.map .plain, by rw [hp.1.tokens_eq, hcs]; rfl, hc⟩

/-- The tokens of a break end with one that belongs to no word. -/
theorem exists_last (hp : WordBreak p) : ∃ t ts, tokens p = ts ++ [t] ∧ t.isBreak = true := by
  obtain ⟨c, hlast, hc⟩ := (Option.any_eq_true _ _).mp hp.2.2
  obtain ⟨cs, hcs⟩ := List.getLast?_eq_some_iff.mp hlast
  exact ⟨.plain c, cs.map .plain, by rw [hp.1.tokens_eq, hcs, List.map_append]; rfl, hc⟩

end WordBreak

/-- The lexemes on the two sides of a break do not depend on each other. -/
theorem lexemes_glue {s p : String} (hs : Closed s) (hp : WordBreak p) (t : String) :
    lexemes (s ++ p ++ t) = lexemes s ++ (lexemes p ++ lexemes t) := by
  obtain ⟨first, behind, hfirst, hfirstBreak⟩ := hp.exists_first
  obtain ⟨last, before, hlast, hlastBreak⟩ := hp.exists_last
  have hfront : lexemesFrom [] (tokens s ++ (tokens p ++ tokens t)) =
      lexemes s ++ lexemesFrom [] (tokens p ++ tokens t) := by
    rw [hfirst, List.cons_append, lexemesFrom_append_break hfirstBreak]
    rfl
  have hback : lexemesFrom [] (tokens p ++ tokens t) = lexemes p ++ lexemes t := by
    rw [hlast, List.append_assoc, List.singleton_append, lexemesFrom_append_break hlastBreak,
      lexemesFrom_break_append hlastBreak, ← List.append_assoc,
      ← lexemesFrom_append_break hlastBreak, ← hlast]
    rfl
  rw [lexemes, hs.tokens_glue hp.separator, hfront, hback]

/-- A break in front keeps its lexemes. -/
theorem lexemes_behind {p : String} (hp : WordBreak p) (t : String) :
    lexemes (p ++ t) = lexemes p ++ lexemes t := by
  have hempty : Closed "" := Unmarked.closed (by decide)
  have hglue := lexemes_glue hempty hp t
  rwa [String.empty_append] at hglue

/-- A break behind keeps its lexemes. -/
theorem lexemes_before {s p : String} (hs : Closed s) (hp : WordBreak p) :
    lexemes (s ++ p) = lexemes s ++ lexemes p := by
  have hglue := lexemes_glue hs hp ""
  rw [String.append_empty] at hglue
  rw [hglue]
  exact congrArg (lexemes s ++ ·) (List.append_nil _)

/-- A closed text in brackets. -/
theorem lexemes_brackets {s : String} (hs : Closed s) :
    lexemes ("(" ++ s ++ ")") = .opening :: (lexemes s ++ [.closing]) := by
  have hopening : WordBreak "(" := by decide
  have hclosing : WordBreak ")" := by decide
  rw [lexemes_before (hs.behind hopening.1) hclosing, lexemes_behind hopening]
  rfl

/-- Closed texts with a break between them. -/
theorem lexemes_intercalate {p : String} (hp : WordBreak p) {ss : List String}
    (hss : ∀ s ∈ ss, Closed s) :
    lexemes (p.intercalate ss) = (lexemes p).intercalate (ss.map lexemes) := by
  induction ss with
  | nil => rfl
  | cons s ss ih =>
      have hs := hss s List.mem_cons_self
      cases ss with
      | nil => simp
      | cons t ss =>
          have htail := ih fun u hu => hss u (List.mem_cons_of_mem _ hu)
          rw [String.intercalate_cons_cons, lexemes_glue hs hp, htail]
          simp

/-- A character of a word. -/
def isWordChar (c : Char) : Bool :=
  isPlain c && !isBreak c

/-- Characters of words go on with the word that has been begun. -/
theorem lexemesFrom_word {cs : List Char} (hcs : ∀ c ∈ cs, isBreak c = false)
    (run : List Char) : lexemesFrom run (cs.map .plain) = wordOf (run ++ cs) := by
  induction cs generalizing run with
  | nil => simp [lexemesFrom]
  | cons c cs ih =>
      have htail := ih (fun d hd => hcs d (List.mem_cons_of_mem _ hd)) (run ++ [c])
      rw [List.map_cons, lexemesFrom_char (hcs c List.mem_cons_self), htail, List.append_assoc,
        List.singleton_append]

/-- A text of characters of words is one word. -/
theorem lexemes_word {s : String} (hne : s ≠ "") (hs : Only isWordChar s) :
    lexemes s = [.word s] := by
  have hplain : Unmarked s := hs.mono fun c hc => (Bool.and_eq_true_iff.mp hc).1
  have hbreak : ∀ c ∈ s.toList, isBreak c = false := by
    intro c hc
    simpa using (Bool.and_eq_true_iff.mp (hs c hc)).2
  rw [lexemes, hplain.tokens_eq, lexemesFrom_word hbreak, List.nil_append]
  cases hlist : s.toList with
  | nil => exact absurd (String.toList_eq_nil_iff.mp hlist) hne
  | cons c cs => rw [wordOf, ← hlist, String.ofList_toList]; simp

/-- A quoted text is one lexeme. -/
theorem IsQuoted.lexemes_eq {kind : QuoteKind} {s : String} (hs : IsQuoted kind s) :
    ∃ b, lexemes s = [.quoted kind b] := by
  obtain ⟨b, hb⟩ := hs.tokens_eq
  refine ⟨b, ?_⟩
  rw [lexemes, hb]
  rfl

end TableMapper
