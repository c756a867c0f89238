import TableMapper.Proofs.Token

/-!
# Reading quoted text

How the database takes a quoted token apart.  Inside a text a backslash and the
character behind it stand for one character, some of them for a control character;
a backslash in front of a percent sign or an underscore stays, since only the reader
of a pattern knows what it is there for.  Inside both kinds of token a doubled mark
stands for one.  A list of names has a comma between each two.

* `readToken`, `readNameList` — the readers;
* `Denotes` — a piece of a token stands for some characters, whatever follows it;
* `Denotes.readToken_iff` — such a piece between marks is read back in front of
  exactly the texts that do not go on with a mark;
* `quoting_is_undone` — string literals and lists of names are read as what they were
  made of, so no two of them are written alike.
-/

namespace TableMapper

/-- What a backslash and this character stand for inside a text. -/
def unescaped (c : Char) : List Char :=
  if c = '0' then ['\x00']
  else if c = 'b' then ['\x08']
  else if c = 'n' then ['\n']
  else if c = 'r' then ['\r']
  else if c = 't' then ['\t']
  else if c = 'Z' then ['\x1a']
  else if c = '%' ∨ c = '_' then ['\\', c]
  else [c]

/-- What the rest of a token stands for, and what is behind the token. -/
structure Reading where
  content : List Char
  rest : List Char
  deriving DecidableEq, Repr

/-- The reading with characters in front of its content. -/
def Reading.after (cs : List Char) (r : Reading) : Reading :=
  ⟨cs ++ r.content, r.rest⟩

/-- Read a token from behind its first mark. -/
def readQuoted (kind : QuoteKind) : List Char → Option Reading
  | [] => none
  | [c] => if c = kind.mark then some ⟨[], []⟩ else none
  | c :: d :: cs =>
    if c = kind.mark then
      if d = kind.mark then (readQuoted kind cs).map (.after [c]) else some ⟨[], d :: cs⟩
    else if kind.escapes c then (readQuoted kind cs).map (.after (unescaped d))
    else (readQuoted kind (d :: cs)).map (.after [c])

/-- What the token that a text begins with stands for, and what is behind the token. -/
def readToken (kind : QuoteKind) (s : String) : Option (String × String) :=
  match s.toList with
  | [] => none
  | c :: cs =>
    if c = kind.mark then
      (readQuoted kind cs).map fun r => (.ofList r.content, .ofList r.rest)
    else none

section Steps

variable {kind : QuoteKind}

/-- A character without a meaning inside the token stands for itself. -/
theorem readQuoted_literal {c : Char} (hmark : c ≠ kind.mark)
    (hescape : kind.escapes c = false) (cs : List Char) :
    readQuoted kind (c :: cs) = (readQuoted kind cs).map (.after [c]) := by
  cases cs with
  | nil => simp [readQuoted, hmark]
  | cons d cs => simp [readQuoted, hmark, hescape]

/-- A doubled mark stands for one. -/
theorem readQuoted_doubled (cs : List Char) :
    readQuoted kind (kind.mark :: kind.mark :: cs) =
      (readQuoted kind cs).map (.after [kind.mark]) := by
  simp [readQuoted]

/-- Behind a backslash, one character of the literal stands for what it unescapes to. -/
theorem readQuoted_escape (c : Char) (cs : List Char) :
    readQuoted .text ('\\' :: c :: cs) = (readQuoted .text cs).map (.after (unescaped c)) := by
  have hmark : '\\' ≠ QuoteKind.text.mark := by decide
  have hescape : QuoteKind.text.escapes '\\' = true := by decide
  simp [readQuoted, hmark, hescape]

/-- A mark that no other one follows ends the token. -/
theorem readQuoted_end {cs : List Char} (hcs : cs.head? ≠ some kind.mark) :
    readQuoted kind (kind.mark :: cs) = some ⟨[], cs⟩ := by
  cases cs with
  | nil => simp [readQuoted]
  | cons d cs =>
      have hd : d ≠ kind.mark := by simpa using hcs
      simp [readQuoted, hd]

/-- Reading more of a token does not change what is behind it. -/
theorem exists_rest_eq {o : Option Reading} {cs : List Char} {r : Reading}
    (h : o.map (.after cs) = some r) : ∃ r', o = some r' ∧ r'.rest = r.rest := by
  obtain ⟨r', ho, rfl⟩ := Option.map_eq_some_iff.mp h
  exact ⟨r', ho, rfl⟩

/-- The reader goes forward. -/
theorem length_rest_lt {cs : List Char} {r : Reading} (h : readQuoted kind cs = some r) :
    r.rest.length < cs.length := by
  induction cs using readQuoted.induct kind generalizing r with
  | case1 => cases h
  | case2 =>
      rw [readQuoted, if_pos rfl] at h
      simp [← Option.some.inj h]
  | case3 c hc =>
      rw [readQuoted, if_neg hc] at h
      cases h
  | case4 cs ih =>
      rw [readQuoted, if_pos rfl, if_pos rfl] at h
      obtain ⟨r', hr', hrest⟩ := exists_rest_eq h
      have hlt := ih hr'
      rw [hrest] at hlt
      simp only [List.length_cons]
      omega
  | case5 d cs hd =>
      rw [readQuoted, if_pos rfl, if_neg hd] at h
      simp [← Option.some.inj h]
  | case6 c d cs hc hescape ih =>
      rw [readQuoted, if_neg hc, if_pos hescape] at h
      obtain ⟨r', hr', hrest⟩ := exists_rest_eq h
      have hlt := ih hr'
      rw [hrest] at hlt
      simp only [List.length_cons]
      omega
  | case7 c d cs hc hescape ih =>
      rw [readQuoted, if_neg hc, if_neg hescape] at h
      obtain ⟨r', hr', hrest⟩ := exists_rest_eq h
      have hlt := ih hr'
      rw [hrest, List.length_cons] at hlt
      simp only [List.length_cons]
      omega

end Steps

/-- The names in a list that has at least one. -/
def readNames (cs : List Char) : Option (List String) :=
  match cs with
  | [] => none
  | c :: cs =>
    if c = QuoteKind.name.mark then
      match hread : readQuoted .name cs with
      | none => none
      | some ⟨name, []⟩ => some [.ofList name]
      | some ⟨name, d :: more⟩ =>
        have := length_rest_lt hread
        if d = ',' then (readNames (more.dropWhile (· = ' '))).map (.ofList name :: ·) else none
    else none
termination_by cs.length
decreasing_by
  have hblanks : (more.dropWhile (· = ' ')).length ≤ more.length :=
    (List.dropWhile_sublist _).length_le
  simp only [List.length_cons] at this ⊢
  omega

/-- The names in a list of quoted names. -/
def readNameList (s : String) : Option (List String) :=
  if s = "" then some [] else readNames s.toList

/-- A piece of a token stands for these characters, whatever follows it. -/
def Denotes (kind : QuoteKind) (written meaning : List Char) : Prop :=
  ∀ rest, readQuoted kind (written ++ rest) = (readQuoted kind rest).map (.after meaning)

namespace Denotes

variable {kind : QuoteKind} {written meaning : List Char}

/-- Nothing denotes the empty text. -/
theorem nil : Denotes kind [] [] := by
  intro rest
  cases h : readQuoted kind rest with
  | none => simp [h]
  | some r => simp [h, Reading.after]

/-- Two bodies written one after the other denote their texts one after the other. -/
theorem append {a b m n : List Char} (ha : Denotes kind a m) (hb : Denotes kind b n) :
    Denotes kind (a ++ b) (m ++ n) := by
  intro rest
  rw [List.append_assoc, ha, hb]
  cases readQuoted kind rest with
  | none => rfl
  | some r => simp [Reading.after]

/-- A character that is neither the mark nor an escape denotes itself. -/
theorem literal {c : Char} (hmark : c ≠ kind.mark) (hescape : kind.escapes c = false) :
    Denotes kind [c] [c] := by
  intro rest
  exact readQuoted_literal hmark hescape rest

/-- The mark written twice denotes one mark. -/
theorem doubled : Denotes kind [kind.mark, kind.mark] [kind.mark] := by
  intro rest
  exact readQuoted_doubled rest

/-- A backslash and a character denote what the character unescapes to. -/
theorem escape (c : Char) : Denotes .text ['\\', c] (unescaped c) := by
  intro rest
  exact readQuoted_escape c rest

/-- What is written character by character is read character by character. -/
theorem flatMap {f g : Char → List Char} (hfg : ∀ c, Denotes kind (f c) (g c))
    (cs : List Char) : Denotes kind (cs.flatMap f) (cs.flatMap g) := by
  induction cs with
  | nil => exact nil
  | cons c cs ih =>
      rw [List.flatMap_cons, List.flatMap_cons]
      exact (hfg c).append ih

/-- A token of this piece is read as what the piece stands for. -/
theorem readQuoted_end (h : Denotes kind written meaning) {rest : List Char}
    (hrest : rest.head? ≠ some kind.mark) :
    readQuoted kind (written ++ kind.mark :: rest) = some ⟨meaning, rest⟩ := by
  rw [h, TableMapper.readQuoted_end hrest]
  simp [Reading.after]

/-- Another mark behind the token continues its content. -/
theorem content_ne_of_mark (h : Denotes kind written meaning) {rest : List Char} {r : Reading}
    (hread : readQuoted kind (written ++ kind.mark :: kind.mark :: rest) = some r) :
    r.content ≠ meaning := by
  rw [h, readQuoted_doubled] at hread
  obtain ⟨r', hr', rfl⟩ := Option.map_eq_some_iff.mp hread
  obtain ⟨r'', _, rfl⟩ := Option.map_eq_some_iff.mp hr'
  intro heq
  have hlength := congrArg List.length heq
  simp only [Reading.after, List.length_append, List.length_cons] at hlength
  omega

/-- A piece between marks is read back in front of exactly the texts that do not go on
with a mark. -/
theorem readToken_iff (h : Denotes kind written meaning) {s : String}
    (hs : s.toList = kind.mark :: (written ++ [kind.mark])) (t : String) :
    readToken kind (s ++ t) = some (.ofList meaning, t) ↔
      t.toList.head? ≠ some kind.mark := by
  have hchars : (s ++ t).toList = kind.mark :: (written ++ kind.mark :: t.toList) := by
    rw [String.toList_append, hs, List.cons_append, List.append_assoc, List.singleton_append]
  have htoken : readToken kind (s ++ t) =
      (readQuoted kind (written ++ kind.mark :: t.toList)).map
        fun r => (.ofList r.content, .ofList r.rest) := by
    rw [readToken, hchars]
    exact if_pos rfl
  rw [htoken]
  constructor
  · intro hread hhead
    obtain ⟨r, hr, heq⟩ := Option.map_eq_some_iff.mp hread
    obtain ⟨rest, hrest⟩ := List.head?_eq_some_iff.mp hhead
    rw [hrest] at hr
    have hcontent : String.ofList r.content = String.ofList meaning := (Prod.mk.inj heq).1
    exact h.content_ne_of_mark hr (String.ofList_injective hcontent)
  · intro hhead
    rw [h.readQuoted_end hhead]
    simp

end Denotes

/-- A character is read back from what it is written as in a text. -/
theorem denotes_escapeChar (c : Char) : Denotes .text (Text.escapeChar c) [c] := by
  have hmeant (d : Char) (h : unescaped d = [c]) : Denotes .text ['\\', d] [c] :=
    h ▸ Denotes.escape d
  unfold Text.escapeChar
  split_ifs with hbackslash hmark hline hreturn htab hback hzero hend
  · exact hmeant '\\' (by rw [hbackslash]; decide)
  · exact hmeant '\x27' (by rw [hmark]; decide)
  · exact hmeant 'n' (by rw [hline]; decide)
  · exact hmeant 'r' (by rw [hreturn]; decide)
  · exact hmeant 't' (by rw [htab]; decide)
  · exact hmeant 'b' (by rw [hback]; decide)
  · exact hmeant '0' (by rw [hzero]; decide)
  · exact hmeant 'Z' (by rw [hend]; decide)
  · exact Denotes.literal hmark (by simp [QuoteKind.escapes, hbackslash])

/-- A character is read back from what it is written as in a name. -/
theorem denotes_escapeNameChar (c : Char) : Denotes .name (Text.escapeNameChar c) [c] := by
  unfold Text.escapeNameChar
  split_ifs with hmark
  · rw [hmark]
    exact Denotes.doubled
  · exact Denotes.literal hmark (by simp [QuoteKind.escapes])

/-- The escaped form of a text denotes the text. -/
theorem denotes_escape (s : String) : Denotes .text (Text.escape s).toList s.toList := by
  have h := Denotes.flatMap denotes_escapeChar s.toList
  rw [List.flatMap_singleton'] at h
  rw [Text.escape, String.toList_ofList]
  exact h

/-- The escaped form of a name denotes the name. -/
theorem denotes_name (name : String) :
    Denotes .name (name.toList.flatMap Text.escapeNameChar) name.toList := by
  have h := Denotes.flatMap denotes_escapeNameChar name.toList
  rwa [List.flatMap_singleton'] at h

/-- A string literal is read as the text it was made of, in front of exactly the texts
that do not go on with a quote. -/
theorem readToken_quote (s t : String) :
    readToken .text (Text.quote s ++ t) = some (s, t) ↔ t.toList.head? ≠ some '\x27' := by
  have hquote : (Text.quote s).toList =
      QuoteKind.text.mark :: ((Text.escape s).toList ++ [QuoteKind.text.mark]) := by
    simp [Text.quote, QuoteKind.mark]
  have h := (denotes_escape s).readToken_iff hquote t
  rwa [String.ofList_toList] at h

/-- A quoted name is read off the list that it is the first of. -/
theorem readNames_cons {cs content rest : List Char}
    (hread : readQuoted .name cs = some ⟨content, rest⟩) :
    readNames (QuoteKind.name.mark :: cs) =
      match rest with
      | [] => some [.ofList content]
      | c :: more =>
        if c = ',' then (readNames (more.dropWhile (· = ' '))).map (.ofList content :: ·)
        else none := by
  rw [readNames, if_pos rfl]
  split
  · rename_i hnone
    rw [hread] at hnone
    cases hnone
  · rename_i hlast
    rw [hread] at hlast
    cases hlast
    rfl
  · rename_i hmore
    rw [hread] at hmore
    cases hmore
    rfl

/-- The characters of a quoted name: a mark, the escaped name and a mark. -/
theorem toList_quoteName_append (name : String) (rest : List Char) :
    (Text.quoteName name).toList ++ rest = QuoteKind.name.mark ::
      (name.toList.flatMap Text.escapeNameChar ++ QuoteKind.name.mark :: rest) := by
  simp [Text.quoteName, QuoteKind.mark]

/-- A list of one name is that name, quoted. -/
theorem toList_quoteNames_singleton (name : String) :
    (Text.quoteNames [name]).toList = (Text.quoteName name).toList ++ [] := by
  simp [Text.quoteNames]

/-- A longer list of names is the first, a comma with a blank, and the list of the others.
-/
theorem toList_quoteNames_cons (name next : String) (names : List String) :
    (Text.quoteNames (name :: next :: names)).toList =
      (Text.quoteName name).toList ++ ',' :: ' ' :: (Text.quoteNames (next :: names)).toList := by
  simp [Text.quoteNames, String.intercalate_cons_cons]

/-- No blank stands in front of the first name. -/
theorem exists_toList_quoteNames (name : String) (names : List String) :
    ∃ rest, (Text.quoteNames (name :: names)).toList = QuoteKind.name.mark :: rest := by
  cases names with
  | nil =>
      rw [toList_quoteNames_singleton, toList_quoteName_append]
      exact ⟨_, rfl⟩
  | cons next names =>
      rw [toList_quoteNames_cons, toList_quoteName_append]
      exact ⟨_, rfl⟩

/-- A list of quoted names is read back as those names. -/
theorem readNames_quoteNames (name : String) (names : List String) :
    readNames (Text.quoteNames (name :: names)).toList = some (name :: names) := by
  induction names generalizing name with
  | nil =>
      have hend : ([] : List Char).head? ≠ some QuoteKind.name.mark := by simp
      have hread := (denotes_name name).readQuoted_end hend
      rw [toList_quoteNames_singleton, toList_quoteName_append, readNames_cons hread,
        String.ofList_toList]
  | cons next names ih =>
      obtain ⟨rest, hrest⟩ := exists_toList_quoteNames next names
      have hcomma : (',' :: ' ' :: (Text.quoteNames (next :: names)).toList).head? ≠
          some QuoteKind.name.mark := by simp [QuoteKind.mark]
      have hread := (denotes_name name).readQuoted_end hcomma
      have hskip : (' ' :: (Text.quoteNames (next :: names)).toList).dropWhile (· = ' ') =
          (Text.quoteNames (next :: names)).toList := by
        rw [hrest]
        rfl
      rw [toList_quoteNames_cons, toList_quoteName_append, readNames_cons hread]
      dsimp only
      rw [if_pos rfl, hskip, ih, String.ofList_toList]
      rfl

/-- A list of quoted names is read as the names it was made of. -/
theorem readNameList_quoteNames (names : List String) :
    readNameList (Text.quoteNames names) = some names := by
  cases names with
  | nil => rfl
  | cons name names =>
      obtain ⟨rest, hrest⟩ := exists_toList_quoteNames name names
      have hne : Text.quoteNames (name :: names) ≠ "" := by
        intro hempty
        rw [hempty] at hrest
        cases hrest
      rw [readNameList, if_neg hne, readNames_quoteNames]

/-- **Quoting is undone by reading.**  The reader of texts takes exactly the literal off
what begins with one, and gives the text it was made of, unless another quote follows
and continues the literal.  The reader of lists of names gives the names.  So neither
two texts nor two lists of names are written alike. -/
theorem quoting_is_undone :
    (∀ s t : String,
      readToken .text (Text.quote s ++ t) = some (s, t) ↔ t.toList.head? ≠ some '\x27') ∧
    (∀ names, readNameList (Text.quoteNames names) = some names) ∧
    Function.Injective Text.quote ∧ Function.Injective Text.quoteNames := by
  refine ⟨readToken_quote, readNameList_quoteNames, ?_, ?_⟩
  · intro s s' h
    have hread (s : String) : readToken .text (Text.quote s ++ "") = some (s, "") :=
      (readToken_quote s "").mpr (by simp)
    have heq : some (s, "") = some (s', "") := by rw [← hread s, ← hread s', h]
    exact (Prod.mk.inj (Option.some.inj heq)).1
  · intro names names' h
    have heq : some names = some names' := by
      rw [← readNameList_quoteNames names, ← readNameList_quoteNames names', h]
    exact Option.some.inj heq

end TableMapper
