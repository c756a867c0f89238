import Mathlib.Data.List.Basic
import TableMapper.Text.Quoted

/-!
# Tokens of a statement

How the database splits the text of a statement, as far as quoting goes.  A name
stands between backticks and ends at the first backtick that no other one
follows.  A text stands between single quotes, ends at the first quote that no
other one follows, and in it a backslash takes the next character with it.
Every other character stands for itself.

* `tokens` splits a text;
* `Closed` is the property that makes texts composable: whatever follows such
  a text does not change its tokens, unless it begins with a mark of its own
  and so might continue the last token;
* `isQuoted_quote`, `isQuoted_quotePattern`, `isQuoted_quoteName` show that each
  of the three ways a payload enters a statement gives one whole token, whatever
  characters the payload has.
-/

namespace TableMapper

/-- The two kinds of quoted token. -/
inductive QuoteKind
  | name
  | text
  deriving DecidableEq, Repr

namespace QuoteKind

/-- The character that a token of this kind begins and ends with. -/
def mark : QuoteKind → Char
  | name => '\x60'
  | text => '\x27'

/-- The kind of token that a character begins. -/
def opened? (c : Char) : Option QuoteKind :=
  if c = '\x60' then some name else if c = '\x27' then some text else none

/-- Whether a character takes the next one with it. -/
def escapes (kind : QuoteKind) (c : Char) : Bool :=
  kind = text && c = '\\'

end QuoteKind

/-- A piece of a statement.  The content of a quoted token is kept as it is
written; a token is unclosed when the statement ends inside it. -/
inductive Token
  | plain (c : Char)
  | quoted (kind : QuoteKind) (content : List Char)
  | unclosed (kind : QuoteKind) (content : List Char)
  deriving DecidableEq, Repr

/-- A token without what is between its marks. -/
def Token.shape : Token → Token
  | plain c => plain c
  | quoted kind _ => quoted kind []
  | unclosed kind _ => unclosed kind []

/-- Where a reader of a statement is: between tokens, or inside one of which
it has read `content`. -/
inductive Scan
  | outside
  | inside (kind : QuoteKind) (content : List Char)

/-- The tokens of the rest of a statement. -/
def scan : Scan → List Char → List Token
  | .outside, [] => []
  | .outside, c :: cs =>
    match QuoteKind.opened? c with
    | some kind => scan (.inside kind []) cs
    | none => .plain c :: scan .outside cs
  | .inside kind content, [] => [.unclosed kind content]
  | .inside kind content, [c] =>
    if c = kind.mark then [.quoted kind content] else [.unclosed kind (content ++ [c])]
  | .inside kind content, c :: d :: cs =>
    if c = kind.mark then
      if d = kind.mark then scan (.inside kind (content ++ [c, d])) cs
      else .quoted kind content :: scan .outside (d :: cs)
    else if kind.escapes c then scan (.inside kind (content ++ [c, d])) cs
    else scan (.inside kind (content ++ [c])) (d :: cs)

/-- The tokens of a statement. -/
def tokens (s : String) : List Token :=
  scan .outside s.toList

/-- The tokens of a statement without what is between their marks. -/
def shape (s : String) : List Token :=
  (tokens s).map Token.shape

/-- A character that begins no quoted token. -/
def isPlain (c : Char) : Bool :=
  (QuoteKind.opened? c).isNone

/-- A character that begins no quoted token is a token of its own. -/
theorem scan_outside_plain {c : Char} (hc : isPlain c = true) (cs : List Char) :
    scan .outside (c :: cs) = .plain c :: scan .outside cs := by
  simp [scan, Option.isNone_iff_eq_none.mp hc]

/-- A mark begins a token of its kind. -/
theorem scan_outside_mark (kind : QuoteKind) (cs : List Char) :
    scan .outside (kind.mark :: cs) = scan (.inside kind []) cs := by
  cases kind <;> rw [scan] <;> rfl

/-- A character without a meaning inside a token is read into it. -/
theorem scan_inside_literal {kind : QuoteKind} {c : Char} (hmark : c ≠ kind.mark)
    (hescape : kind.escapes c = false) (content cs : List Char) :
    scan (.inside kind content) (c :: cs) = scan (.inside kind (content ++ [c])) cs := by
  cases cs with
  | nil => simp [scan, hmark]
  | cons d cs => simp [scan, hmark, hescape]

/-- A doubled mark is read into its token. -/
theorem scan_inside_doubled (kind : QuoteKind) (content cs : List Char) :
    scan (.inside kind content) (kind.mark :: kind.mark :: cs) =
      scan (.inside kind (content ++ [kind.mark, kind.mark])) cs := by
  simp [scan]

/-- A backslash and the character behind it are read into a text. -/
theorem scan_inside_escape (c : Char) (content cs : List Char) :
    scan (.inside .text content) ('\\' :: c :: cs) =
      scan (.inside .text (content ++ ['\\', c])) cs := by
  have hmark : '\\' ≠ QuoteKind.text.mark := by decide
  have hescape : QuoteKind.text.escapes '\\' = true := by decide
  simp [scan, hmark, hescape]

/-- What stands behind a token and cannot continue it: nothing, or a text whose
first character is no mark. -/
def PlainStart (cs : List Char) : Prop :=
  ∀ kind : QuoteKind, cs.head? ≠ some kind.mark

/-- A mark that no other mark follows ends its token. -/
theorem scan_inside_end {kind : QuoteKind} {cs : List Char} (hcs : PlainStart cs)
    (content : List Char) :
    scan (.inside kind content) (kind.mark :: cs) =
      .quoted kind content :: scan .outside cs := by
  cases cs with
  | nil => simp [scan]
  | cons d cs =>
      have hd : d ≠ kind.mark := fun h => hcs kind (by simp [h])
      simp [scan, hd]

/-- A text that a token of this kind can hold: a reader inside the token goes
on reading behind it. -/
def Content (kind : QuoteKind) (b : List Char) : Prop :=
  ∀ content rest,
    scan (.inside kind content) (b ++ rest) = scan (.inside kind (content ++ b)) rest

namespace Content

variable {kind : QuoteKind}

/-- Nothing is a content. -/
theorem nil : Content kind [] := by
  intro content rest
  simp

/-- Two contents one after the other are a content. -/
theorem append {a b : List Char} (ha : Content kind a) (hb : Content kind b) :
    Content kind (a ++ b) := by
  intro content rest
  rw [List.append_assoc, ha, hb, List.append_assoc]

/-- A character without a meaning inside a token is a content. -/
theorem literal {c : Char} (hmark : c ≠ kind.mark) (hescape : kind.escapes c = false) :
    Content kind [c] := by
  intro content rest
  exact scan_inside_literal hmark hescape content rest

/-- A doubled mark is a content. -/
theorem doubled : Content kind [kind.mark, kind.mark] := by
  intro content rest
  exact scan_inside_doubled kind content rest

/-- A backslash with the character behind it is a content of a string literal. -/
theorem escape (c : Char) : Content .text ['\\', c] := by
  intro content rest
  exact scan_inside_escape c content rest

/-- A payload that is written character by character is a content when every
written character is one. -/
theorem flatMap {f : Char → List Char} (hf : ∀ c, Content kind (f c)) (cs : List Char) :
    Content kind (cs.flatMap f) := by
  induction cs with
  | nil => exact nil
  | cons c cs ih =>
      rw [List.flatMap_cons]
      exact (hf c).append ih

/-- A text of characters without a meaning inside the token is a content. -/
theorem of_literals {cs : List Char}
    (h : ∀ c ∈ cs, c ≠ kind.mark ∧ kind.escapes c = false) : Content kind cs := by
  induction cs with
  | nil => exact nil
  | cons c cs ih =>
      have hc := h c List.mem_cons_self
      have htail : Content kind cs := ih fun d hd => h d (List.mem_cons_of_mem _ hd)
      exact (literal hc.1 hc.2).append htail

end Content

/-- Every character of a string literal is written as a content. -/
theorem content_escapeChar (c : Char) : Content .text (Text.escapeChar c) := by
  unfold Text.escapeChar
  split
  · exact Content.escape _
  · rename_i hbackslash
    split
    · exact Content.escape _
    · rename_i hmark
      split_ifs
      all_goals first
        | exact Content.escape _
        | exact Content.literal hmark (by simp [QuoteKind.escapes, hbackslash])

/-- Every character of a `LIKE` part is written as a content. -/
theorem content_escapePatternChar (c : Char) : Content .text (Text.escapePatternChar c) := by
  unfold Text.escapePatternChar
  split
  · exact Content.escape _
  · exact content_escapeChar c

/-- Every character of a quoted name is written as a content. -/
theorem content_escapeNameChar (c : Char) : Content .name (Text.escapeNameChar c) := by
  unfold Text.escapeNameChar
  split
  · exact Content.doubled
  · rename_i hmark
    exact Content.literal hmark (by simp [QuoteKind.escapes])

/-- An escaped text is a content of a string literal. -/
theorem content_escape (s : String) : Content .text (Text.escape s).toList := by
  rw [Text.escape, String.toList_ofList]
  exact Content.flatMap content_escapeChar _

/-- An escaped pattern is a content of a string literal. -/
theorem content_escapePattern (s : String) : Content .text (Text.escapePattern s).toList := by
  rw [Text.escapePattern, String.toList_ofList]
  exact Content.flatMap content_escapePatternChar _

/-- Contents with a content between them are a content. -/
theorem content_intercalate {kind : QuoteKind} {sep : String} (hsep : Content kind sep.toList)
    {ss : List String} (hss : ∀ s ∈ ss, Content kind s.toList) :
    Content kind (sep.intercalate ss).toList := by
  induction ss with
  | nil => exact Content.nil
  | cons s ss ih =>
      have hs := hss s List.mem_cons_self
      cases ss with
      | nil => simpa using hs
      | cons t ss =>
          have htail := ih fun u hu => hss u (List.mem_cons_of_mem _ hu)
          rw [String.intercalate_cons_cons, String.toList_append, String.toList_append]
          exact (hs.append hsep).append htail

/-- A text of whole tokens: they stay what they are before anything that does
not continue the last one. -/
def Closed (s : String) : Prop :=
  ∀ rest, PlainStart rest →
    scan .outside (s.toList ++ rest) = tokens s ++ scan .outside rest

/-- A text whose characters all satisfy `p`. -/
def Only (p : Char → Bool) (s : String) : Prop :=
  ∀ c ∈ s.toList, p c = true

instance (p : Char → Bool) (s : String) : Decidable (Only p s) :=
  decidable_of_iff (s.toList.all p = true) List.all_eq_true

namespace Only

variable {p q : Char → Bool} {s t : String}

/-- Two texts of such characters are one. -/
theorem append (hs : Only p s) (ht : Only p t) : Only p (s ++ t) := by
  intro c hc
  rw [String.toList_append] at hc
  rcases List.mem_append.mp hc with h | h
  · exact hs c h
  · exact ht c h

/-- A weaker condition holds of the characters too. -/
theorem mono (hpq : ∀ c, p c = true → q c = true) (hs : Only p s) : Only q s := by
  intro c hc
  exact hpq c (hs c hc)

end Only

/-- A text without marks. -/
abbrev Unmarked (s : String) : Prop :=
  Only isPlain s

/-- A text that keeps its two neighbours apart. -/
def Separator (s : String) : Prop :=
  s ≠ "" ∧ Unmarked s

instance (s : String) : Decidable (Separator s) :=
  inferInstanceAs (Decidable (s ≠ "" ∧ Unmarked s))

/-- The end of a text continues no token. -/
theorem PlainStart.nil : PlainStart [] := by
  intro kind
  simp

/-- A character that begins no quoted token continues none. -/
theorem PlainStart.cons {c : Char} (hc : isPlain c = true) (cs : List Char) :
    PlainStart (c :: cs) := by
  intro kind hhead
  cases Option.some.inj hhead
  cases kind <;> cases hc

/-- Two texts that continue no token continue none together. -/
theorem PlainStart.append {cs ds : List Char} (hcs : PlainStart cs) (hds : PlainStart ds) :
    PlainStart (cs ++ ds) := by
  cases cs with
  | nil => exact hds
  | cons c cs =>
      intro kind
      exact hcs kind

/-- An unmarked text continues no token. -/
theorem Unmarked.plainStart {s : String} (hs : Unmarked s) : PlainStart s.toList := by
  cases h : s.toList with
  | nil => exact PlainStart.nil
  | cons c cs => exact PlainStart.cons (hs c (by simp [h])) cs

/-- A separator continues no token, whatever follows. -/
theorem Separator.plainStart {p : String} (hp : Separator p) (cs : List Char) :
    PlainStart (p.toList ++ cs) := by
  cases h : p.toList with
  | nil => exact absurd (String.toList_eq_nil_iff.mp h) hp.1
  | cons c ds => exact PlainStart.cons (hp.2 c (by simp [h])) _

/-- Characters without marks are read one by one. -/
theorem scan_outside_map_plain {cs : List Char} (hcs : ∀ c ∈ cs, isPlain c = true)
    (rest : List Char) :
    scan .outside (cs ++ rest) = cs.map .plain ++ scan .outside rest := by
  induction cs with
  | nil => rfl
  | cons c cs ih =>
      have htail := ih fun d hd => hcs d (List.mem_cons_of_mem _ hd)
      rw [List.cons_append, scan_outside_plain (hcs c List.mem_cons_self), htail]
      rfl

/-- Each character of an unmarked text stands for itself. -/
theorem Unmarked.tokens_eq {s : String} (hs : Unmarked s) :
    tokens s = s.toList.map .plain := by
  have halone := scan_outside_map_plain hs []
  rw [List.append_nil] at halone
  rw [tokens, halone]
  simp [scan]

/-- The tokens of an unmarked text are the same whatever follows. -/
theorem Unmarked.scan_append {s : String} (hs : Unmarked s) (rest : List Char) :
    scan .outside (s.toList ++ rest) = tokens s ++ scan .outside rest := by
  rw [scan_outside_map_plain hs, hs.tokens_eq]

/-- An unmarked text is whole tokens. -/
theorem Unmarked.closed {s : String} (hs : Unmarked s) : Closed s := by
  intro rest _
  exact hs.scan_append rest

/-- An unmarked text in front brings in its tokens and changes no others. -/
theorem Unmarked.tokens_append {p : String} (hp : Unmarked p) (s : String) :
    tokens (p ++ s) = tokens p ++ tokens s := by
  rw [tokens, String.toList_append]
  exact hp.scan_append _

/-- Whole tokens stay what they are in front of what continues none of them. -/
theorem Closed.tokens_append {s t : String} (hs : Closed s) (ht : PlainStart t.toList) :
    tokens (s ++ t) = tokens s ++ tokens t := by
  rw [tokens, String.toList_append]
  exact hs _ ht

/-- Two texts of whole tokens are one if the second continues no token of the first. -/
theorem Closed.append {s t : String} (hs : Closed s) (ht : Closed t)
    (hstart : PlainStart t.toList) : Closed (s ++ t) := by
  intro rest hrest
  rw [String.toList_append, List.append_assoc, hs _ (hstart.append hrest), ht _ hrest,
    hs.tokens_append hstart, List.append_assoc]

/-- A closed text behind an unmarked one. -/
theorem Closed.behind {p s : String} (hp : Unmarked p) (hs : Closed s) : Closed (p ++ s) := by
  intro rest hrest
  rw [String.toList_append, List.append_assoc, hp.scan_append, hs _ hrest,
    hp.tokens_append, List.append_assoc]

/-- Two closed texts with a separator between them. -/
theorem Closed.glue {s p t : String} (hs : Closed s) (hp : Separator p) (ht : Closed t) :
    Closed (s ++ p ++ t) := by
  rw [String.append_assoc]
  refine hs.append (ht.behind hp.2) ?_
  rw [String.toList_append]
  exact hp.plainStart _

/-- The tokens on the two sides of a separator do not depend on each other. -/
theorem Closed.tokens_glue {s p : String} (hs : Closed s) (hp : Separator p) (t : String) :
    tokens (s ++ p ++ t) = tokens s ++ (tokens p ++ tokens t) := by
  have hstart : PlainStart (p ++ t).toList := by
    rw [String.toList_append]
    exact hp.plainStart _
  rw [String.append_assoc, hs.tokens_append hstart, hp.2.tokens_append]

/-- Closed texts with a separator between them. -/
theorem closed_intercalate {p : String} (hp : Separator p) {ss : List String}
    (hss : ∀ s ∈ ss, Closed s) : Closed (p.intercalate ss) := by
  induction ss with
  | nil =>
      have hempty : Unmarked "" := by decide
      exact hempty.closed
  | cons s ss ih =>
      have hs := hss s List.mem_cons_self
      cases ss with
      | nil => simpa using hs
      | cons t ss =>
          have htail := ih fun u hu => hss u (List.mem_cons_of_mem _ hu)
          rw [String.intercalate_cons_cons]
          exact hs.glue hp htail

/-- `s` is one quoted token. -/
def IsQuoted (kind : QuoteKind) (s : String) : Prop :=
  ∃ b, Content kind b ∧ s.toList = kind.mark :: (b ++ [kind.mark])

/-- A content between two marks is read as one token. -/
theorem scan_quoted {kind : QuoteKind} {b rest : List Char} (hb : Content kind b)
    (hrest : PlainStart rest) :
    scan .outside (kind.mark :: (b ++ kind.mark :: rest)) =
      .quoted kind b :: scan .outside rest := by
  rw [scan_outside_mark, hb, List.nil_append, scan_inside_end hrest]

namespace IsQuoted

variable {kind : QuoteKind} {s : String}

/-- A quoted text is one token. -/
theorem tokens_eq (hs : IsQuoted kind s) : ∃ b, tokens s = [.quoted kind b] := by
  obtain ⟨b, hb, hlist⟩ := hs
  refine ⟨b, ?_⟩
  rw [tokens, hlist, scan_quoted hb PlainStart.nil]
  rfl

/-- A quoted text is whole tokens. -/
theorem closed (hs : IsQuoted kind s) : Closed s := by
  intro rest hrest
  obtain ⟨b, hb, hlist⟩ := hs
  have halone : tokens s = [.quoted kind b] := by
    rw [tokens, hlist, scan_quoted hb PlainStart.nil]
    rfl
  rw [halone, hlist, List.cons_append, List.append_assoc, List.singleton_append,
    scan_quoted hb hrest]
  rfl

/-- Of a quoted text its shape keeps the kind only. -/
theorem shape_eq (hs : IsQuoted kind s) : shape s = [.quoted kind []] := by
  obtain ⟨b, hb⟩ := hs.tokens_eq
  rw [shape, hb]
  rfl

end IsQuoted

/-- A string literal is one token. -/
theorem isQuoted_quote (s : String) : IsQuoted .text (Text.quote s) := by
  refine ⟨(Text.escape s).toList, content_escape s, ?_⟩
  simp [Text.quote, QuoteKind.mark]

/-- The literal of a `LIKE` pattern is one token: a percent sign is an ordinary
character of it. -/
theorem isQuoted_quotePattern (parts : List String) :
    IsQuoted .text (Text.quotePattern parts) := by
  have hpercent : Content .text "%".toList := Content.literal (by decide) (by decide)
  refine ⟨("%".intercalate (parts.map Text.escapePattern)).toList,
    content_intercalate hpercent ?_, ?_⟩
  · intro s hs
    obtain ⟨part, _, rfl⟩ := List.mem_map.mp hs
    exact content_escapePattern part
  · simp [Text.quotePattern, QuoteKind.mark]

/-- A quoted name is one token. -/
theorem isQuoted_quoteName (name : String) : IsQuoted .name (Text.quoteName name) := by
  refine ⟨name.toList.flatMap Text.escapeNameChar, Content.flatMap content_escapeNameChar _, ?_⟩
  simp [Text.quoteName, QuoteKind.mark]

end TableMapper
