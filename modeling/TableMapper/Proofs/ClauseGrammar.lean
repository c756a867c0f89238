import TableMapper.Proofs.BlankText
import TableMapper.Proofs.CalendarReading
import TableMapper.Proofs.ConditionMeaning
import TableMapper.Proofs.QuotedReading

/-!
# The grammar of queries

How the database reads the lexemes of a query.  Seven words begin a clause, and what is
behind one of them, up to the next, is the clause's own: names with commas between them, a
condition, a number.  The clauses must then be those of a query, in their order; a query
can pass over rows only if it counts them, so there is no clause for the one without the
clause for the other.

* `readClauses` — the clauses that a list of lexemes is, each read on its own;
* `Query.clauses` — the clauses of a query, in the order the grammar wants;
* `Clause.IsWritten` — a text that is a clause, wherever it stands;
* `readClauses_joined` — clauses that are written with spaces between them are read back.
-/

namespace TableMapper

/-- What a clause of a query is about. -/
inductive ClauseKind
  | columns
  | table
  | condition
  | ordering
  | limit
  | offset
  | lock
  deriving DecidableEq, Repr

namespace ClauseKind

/-- The word that a clause begins with. -/
def word : ClauseKind → String
  | columns => "SELECT"
  | table => "FROM"
  | condition => "WHERE"
  | ordering => "ORDER"
  | limit => "LIMIT"
  | offset => "OFFSET"
  | lock => "FOR"

def all : List ClauseKind :=
  [columns, table, condition, ordering, limit, offset, lock]

end ClauseKind

/-- The clause that a lexeme begins, if it begins one. -/
def Lexeme.clauseKind? : Lexeme → Option ClauseKind
  | word w => ClauseKind.all.find? fun kind => kind.word = w
  | _ => none

/-- The word of a clause begins that clause. -/
theorem ClauseKind.clauseKind?_word (kind : ClauseKind) :
    (Lexeme.word kind.word).clauseKind? = some kind := by
  cases kind <;> decide

/-- The lexemes in front of the first clause, and each clause with the lexemes behind its
word. -/
def splitClauses : List Lexeme → List Lexeme × List (ClauseKind × List Lexeme)
  | [] => ([], [])
  | l :: ls =>
    match l.clauseKind? with
    | some kind => ([], (kind, (splitClauses ls).1) :: (splitClauses ls).2)
    | none => (l :: (splitClauses ls).1, (splitClauses ls).2)

/-- None of the lexemes begins a clause. -/
def InClause (ls : List Lexeme) : Prop :=
  ∀ l ∈ ls, l.clauseKind? = none

instance (ls : List Lexeme) : Decidable (InClause ls) :=
  inferInstanceAs (Decidable (∀ l ∈ ls, l.clauseKind? = none))

namespace InClause

theorem append {ls ms : List Lexeme} (hls : InClause ls) (hms : InClause ms) :
    InClause (ls ++ ms) :=
  List.forall_mem_append.mpr ⟨hls, hms⟩

/-- Parts that begin no clause do not do so with separators between them. -/
theorem intercalate {sep : List Lexeme} {parts : List (List Lexeme)} (hsep : InClause sep)
    (hparts : ∀ ls ∈ parts, InClause ls) : InClause (sep.intercalate parts) := by
  induction parts with
  | nil => exact List.forall_mem_nil _
  | cons ls parts ih =>
      obtain ⟨hls, htail⟩ := List.forall_mem_cons.mp hparts
      cases parts with
      | nil => rwa [List.intercalate_singleton]
      | cons ms parts =>
          rw [List.intercalate_cons_cons]
          exact (hls.append hsep).append (ih htail)

/-- Closed texts with a break between them. -/
theorem joined {sep : String} (hsep : WordBreak sep) (hmark : InClause (lexemes sep))
    {texts : List String} (hclosed : ∀ s ∈ texts, Closed s)
    (htexts : ∀ s ∈ texts, InClause (lexemes s)) :
    InClause (lexemes (sep.intercalate texts)) := by
  rw [lexemes_intercalate hsep hclosed]
  exact hmark.intercalate (List.forall_mem_map.mpr htexts)

/-- Brackets begin no clause. -/
theorem brackets {s : String} (hclosed : Closed s) (hs : InClause (lexemes s)) :
    InClause (lexemes ("(" ++ s ++ ")")) := by
  have hopening : InClause [.opening] := by decide
  have hclosing : InClause [.closing] := by decide
  rw [lexemes_brackets hclosed]
  exact hopening.append (hs.append hclosing)

end InClause

/-- Lexemes that begin no clause belong to what is in front. -/
theorem splitClauses_append {body : List Lexeme} (hbody : InClause body) (ls : List Lexeme) :
    splitClauses (body ++ ls) = (body ++ (splitClauses ls).1, (splitClauses ls).2) := by
  induction body with
  | nil => rfl
  | cons l body ih =>
      obtain ⟨hl, htail⟩ := List.forall_mem_cons.mp hbody
      rw [List.cons_append, splitClauses, hl, ih htail]
      rfl

/-- Lexemes behind the words of clauses are split at these words. -/
theorem splitClauses_flatMap {clauses : List (ClauseKind × List Lexeme)}
    (hclauses : ∀ c ∈ clauses, InClause c.2) :
    splitClauses (clauses.flatMap fun c => .word c.1.word :: c.2) = ([], clauses) := by
  induction clauses with
  | nil => rfl
  | cons c clauses ih =>
      obtain ⟨hc, htail⟩ := List.forall_mem_cons.mp hclauses
      rw [List.flatMap_cons, List.cons_append, splitClauses, c.1.clauseKind?_word,
        splitClauses_append hc, ih htail, List.append_nil]

/-- No number begins a clause, and no word that is a literal does. -/
theorem Bare.inClause {s : String} (hs : Bare s) : InClause (lexemes s) := by
  have hwords : ∀ kind ∈ ClauseKind.all, ¬Numeral kind.word ∧ kind.word ∉ literalWords := by
    decide
  rw [hs.lexemes_eq]
  intro l hl
  rw [List.eq_of_mem_singleton hl, Lexeme.clauseKind?, List.find?_eq_none]
  intro kind hkind hword
  obtain ⟨hnumeral, hliteral⟩ := hwords kind hkind
  rw [decide_eq_true_eq.mp hword] at hnumeral hliteral
  rcases hs with ⟨_, h⟩ | h
  · exact hnumeral h
  · exact hliteral h

/-- A quoted token begins no clause. -/
theorem IsQuoted.inClause {kind : QuoteKind} {s : String} (hs : IsQuoted kind s) :
    InClause (lexemes s) := by
  obtain ⟨b, hb⟩ := hs.lexemes_eq
  rw [hb]
  intro l hl
  rw [List.eq_of_mem_singleton hl]
  rfl

/-- The direction of an ordering. -/
inductive Direction
  | ascending
  | descending
  deriving DecidableEq, Repr

/-- The direction that a word is.  Its case does not count. -/
def Direction.ofWord? (w : String) : Option Direction :=
  if Text.upper w = "ASC" then some ascending
  else if Text.upper w = "DESC" then some descending
  else none

/-- A column to order by; without a direction the database takes its own. -/
structure SortKey where
  column : String
  direction : Option Direction
  deriving DecidableEq, Repr

/-- The name that lexemes are: one quoted token. -/
def readName? : List Lexeme → Option String
  | [.quoted .name content] =>
    (readQuoted .name (content ++ [QuoteKind.name.mark])).map fun r => .ofList r.content
  | _ => none

/-- The sort key that lexemes are: a name, and perhaps a direction behind it. -/
def readSortKey? : List Lexeme → Option SortKey
  | [l] => (readName? [l]).map fun column => ⟨column, none⟩
  | [l, .word w] => do
    let column ← readName? [l]
    let direction ← Direction.ofWord? w
    return ⟨column, direction⟩
  | _ => none

/-- One fixed word and nothing else. -/
def readWord? (w : String) (ls : List Lexeme) : Option Unit :=
  if ls = [.word w] then some () else none

/-- What lexemes are behind one fixed word. -/
def readBehind? {β : Type} (w : String) (read? : List Lexeme → Option β) :
    List Lexeme → Option β
  | l :: ls => if l = .word w then read? ls else none
  | [] => none

/-- The number that lexemes are: one word of digits. -/
def readCount? : List Lexeme → Option Nat
  | [.word w] =>
    if w ≠ "" ∧ w.toList.all Char.isDigit then some (digitsValue w.toList) else none
  | _ => none

/-- The items that lexemes are, with one comma between each two. -/
def readList? {α : Type} (item? : List Lexeme → Option α) (ls : List Lexeme) :
    Option (List α) :=
  (ls.splitOn .comma).mapM item?

/-- Items that are read one by one are read together. -/
theorem mapM_map_eq_some {α β : Type} {item? : List Lexeme → Option β} {l : List α}
    {written : α → List Lexeme} {meant : α → β}
    (hl : ∀ a ∈ l, item? (written a) = some (meant a)) :
    (l.map written).mapM item? = some (l.map meant) := by
  induction l with
  | nil => rfl
  | cons a l ih =>
      obtain ⟨ha, htail⟩ := List.forall_mem_cons.mp hl
      rw [List.map_cons, List.mapM_cons, ha, ih htail]
      rfl

/-- Items without commas of their own are read back. -/
theorem readList?_joined {α β : Type} {item? : List Lexeme → Option β} {l : List α}
    {written : α → List Lexeme} {meant : α → β} (hne : l ≠ [])
    (hcomma : ∀ a ∈ l, .comma ∉ written a) (hl : ∀ a ∈ l, item? (written a) = some (meant a)) :
    readList? item? ([.comma].intercalate (l.map written)) = some (l.map meant) := by
  have hsome : l.map written ≠ [] := fun hnil => hne (List.map_eq_nil_iff.mp hnil)
  rw [readList?, List.splitOn_intercalate _ (List.forall_mem_map.mpr hcomma) hsome]
  exact mapM_map_eq_some hl

/-- A clause of a query. -/
inductive Clause
  | columns (names : List String)
  | table (name : String)
  | condition (f : Formula)
  | ordering (keys : List SortKey)
  | limit (n : Nat)
  | offset (n : Nat)
  | lock

def Clause.kind : Clause → ClauseKind
  | columns _ => .columns
  | table _ => .table
  | condition _ => .condition
  | ordering _ => .ordering
  | limit _ => .limit
  | offset _ => .offset
  | lock => .lock

/-- The clause that the lexemes behind its word make it. -/
def ClauseKind.read? : ClauseKind → List Lexeme → Option Clause
  | columns, ls => (readList? readName? ls).map .columns
  | table, ls => (readName? ls).map .table
  | condition, ls => (parse ls).map .condition
  | ordering, ls => (readBehind? "BY" (readList? readSortKey?) ls).map .ordering
  | limit, ls => (readCount? ls).map .limit
  | offset, ls => (readCount? ls).map .offset
  | lock, ls => (readWord? "UPDATE" ls).map fun _ => .lock

/-- The clauses that lexemes are; there must be nothing in front of the first. -/
def readClauses (ls : List Lexeme) : Option (List Clause) :=
  if (splitClauses ls).1 = [] then (splitClauses ls).2.mapM fun c => c.1.read? c.2 else none

/-- Which of the rows a query gives: so many, perhaps behind others. -/
structure Window where
  count : Nat
  skipped : Option Nat
  deriving DecidableEq, Repr

/-- A query of the records of a table. -/
structure Query where
  columns : List String
  table : String
  condition : Option Formula
  ordering : Option (List SortKey)
  window : Option Window
  locks : Bool

/-- The clauses of a query, in the order of the grammar. -/
def Query.clauses (q : Query) : List Clause :=
  [some (.columns q.columns), some (.table q.table), q.condition.map .condition,
    q.ordering.map .ordering, q.window.map fun w => .limit w.count,
    q.window.bind fun w => w.skipped.map .offset,
    if q.locks then some .lock else none].filterMap id

/-- Where rows are passed over, they are counted. -/
theorem Query.exists_limit {q : Query} {n : Nat} (h : .offset n ∈ q.clauses) :
    ∃ m, .limit m ∈ q.clauses := by
  cases hwindow : q.window with
  | none =>
      rw [clauses, hwindow] at h
      simp [eq_comm (a := some (Clause.offset n))] at h
  | some w =>
      refine ⟨w.count, ?_⟩
      rw [clauses, hwindow]
      simp

/-- The lexemes are those of a query. -/
def IsQuery (ls : List Lexeme) : Prop :=
  ∃ q : Query, readClauses ls = some q.clauses

/-- A text that neither begins nor ends with a blank. -/
def Trimmed (s : String) : Prop :=
  s ≠ "" ∧ Text.Compact s.toList

/-- Between trimmed texts anything may stand. -/
theorem Trimmed.around {s t : String} (hs : Trimmed s) (ht : Trimmed t) (p : String) :
    Trimmed (s ++ p ++ t) := by
  have hfirst : s.toList ≠ [] := fun hnil => hs.1 (String.toList_eq_nil_iff.mp hnil)
  have hlast : t.toList ≠ [] := fun hnil => ht.1 (String.toList_eq_nil_iff.mp hnil)
  refine ⟨?_, ?_⟩
  · intro hempty
    have hlist := congrArg String.toList hempty
    rw [String.toList_append] at hlist
    exact hlast (List.append_eq_nil_iff.mp hlist).2
  · rw [String.toList_append, String.toList_append]
    refine ⟨?_, ?_⟩
    · rw [List.append_assoc, List.head?_append_of_ne_nil _ hfirst]
      exact hs.2.1
    · rw [List.getLast?_append_of_ne_nil _ hlast]
      exact ht.2.2

theorem Trimmed.of_solid {s : String} (hne : s ≠ "") (hs : Text.Solid s.toList) : Trimmed s :=
  ⟨hne, hs.compact⟩

/-- Trimmed texts are trimmed together, whatever stands between them. -/
theorem Trimmed.intercalate {sep : String} {texts : List String} (hne : texts ≠ [])
    (htexts : ∀ s ∈ texts, Trimmed s) : Trimmed (sep.intercalate texts) := by
  induction texts with
  | nil => exact absurd rfl hne
  | cons s texts ih =>
      obtain ⟨hs, htail⟩ := List.forall_mem_cons.mp htexts
      cases texts with
      | nil => rwa [String.intercalate_singleton]
      | cons t texts =>
          rw [String.intercalate_cons_cons]
          exact hs.around (ih (List.cons_ne_nil t texts) htail) sep

/-- A quoted name has no outer blanks. -/
theorem trimmed_quoteName (name : String) : Trimmed (Text.quoteName name) := by
  have hmark : Trimmed "\x60" := Trimmed.of_solid (by decide) (by decide)
  exact hmark.around hmark _

/-- A text that is the body of a clause: closed, without outer blanks and without a word
that begins a clause, it is read as what it says. -/
structure IsBody {β : Type} (read? : List Lexeme → Option β) (text : String) (b : β) : Prop where
  closed : Closed text
  trimmed : Trimmed text
  inside : InClause (lexemes text)
  read : read? (lexemes text) = some b

/-- A body that is one item of a list. -/
structure IsItem {β : Type} (item? : List Lexeme → Option β) (text : String) (b : β) : Prop
    extends IsBody item? text b where
  noComma : .comma ∉ lexemes text

/-- Items with commas between them. -/
theorem IsItem.list {α β : Type} {item? : List Lexeme → Option β} {l : List α}
    {text : α → String} {meant : α → β} (hne : l ≠ [])
    (hl : ∀ a ∈ l, IsItem item? (text a) (meant a)) :
    IsBody (readList? item?) (", ".intercalate (l.map text)) (l.map meant) := by
  have hcomma : WordBreak ", " := by decide
  have hmark : lexemes ", " = [.comma] := by decide
  have hclosed : ∀ s ∈ l.map text, Closed s :=
    List.forall_mem_map.mpr fun a ha => (hl a ha).closed
  have hsome : l.map text ≠ [] := fun hnil => hne (List.map_eq_nil_iff.mp hnil)
  refine ⟨closed_intercalate hcomma.separator hclosed, ?_, ?_, ?_⟩
  · exact Trimmed.intercalate hsome (List.forall_mem_map.mpr fun a ha => (hl a ha).trimmed)
  · exact InClause.joined hcomma (by decide) hclosed
      (List.forall_mem_map.mpr fun a ha => (hl a ha).inside)
  · rw [lexemes_intercalate hcomma hclosed, hmark, List.map_map, Function.comp_def]
    exact readList?_joined hne (fun a ha => (hl a ha).noComma) fun a ha => (hl a ha).read

/-- A quoted name is one token, in which backticks are doubled. -/
theorem lexemes_quoteName (name : String) :
    lexemes (Text.quoteName name) = [.quoted .name (name.toList.flatMap Text.escapeNameChar)] := by
  have hquoted : (Text.quoteName name).toList = QuoteKind.name.mark ::
      (name.toList.flatMap Text.escapeNameChar ++ [QuoteKind.name.mark]) := by
    simp [Text.quoteName, QuoteKind.mark]
  rw [lexemes, tokens, hquoted,
    scan_quoted (Content.flatMap content_escapeNameChar name.toList) PlainStart.nil]
  rfl

/-- A quoted name is read as the name. -/
theorem isItem_quoteName (name : String) : IsItem readName? (Text.quoteName name) name := by
  have hend : ([] : List Char).head? ≠ some QuoteKind.name.mark := nofun
  refine ⟨⟨closed_quoteName name, trimmed_quoteName name, (isQuoted_quoteName name).inClause, ?_⟩,
    ?_⟩
  · rw [lexemes_quoteName, readName?, (denotes_name name).readQuoted_end hend, Option.map_some,
      String.ofList_toList]
  · rw [lexemes_quoteName]
    simp

/-- A number is read as what it is. -/
theorem isBody_toString (n : Nat) : IsBody readCount? (toString n) n := by
  have hne := toString_nat_ne_empty n
  have hbare : Bare (toString n) := Numeral.bare hne (numeral_toString n)
  have hsolid : Text.Solid (toString n).toList := solid_of_digits fun _ => isDigit_of_mem_toString
  have hdigits : (toString n).toList.all Char.isDigit = true :=
    List.all_eq_true.mpr fun _ => isDigit_of_mem_toString
  have hvalue : digitsValue (toString n).toList = n := by
    have hlist : (toString n).toList = Nat.toDigits 10 n := Nat.toList_repr
    rw [hlist, digitsValue_eq, Nat.ofDigitChars_ten_toDigits]
  refine ⟨hbare.unmarked.closed, Trimmed.of_solid hne hsolid, hbare.inClause, ?_⟩
  rw [hbare.lexemes_eq, readCount?, if_pos ⟨hne, hdigits⟩, hvalue]

/-- A text that is a clause: closed and without outer blanks, it begins with the clause's
word, and the lexemes behind that begin no other clause and make the clause what it is. -/
structure Clause.IsWritten (c : Clause) (text : String) : Prop where
  closed : Closed text
  trimmed : Trimmed text
  read : ∃ body, lexemes text = .word c.kind.word :: body ∧ InClause body ∧
    c.kind.read? body = some c

/-- The word of a clause, a space, and its body. -/
theorem IsBody.isWritten {β : Type} {read? : List Lexeme → Option β} {text : String} {b : β}
    (h : IsBody read? text b) {make : β → Clause} {head : String}
    (hhead : head = (make b).kind.word ++ " ")
    (hread : ∀ ls, (make b).kind.read? ls = (read? ls).map make) :
    (make b).IsWritten (head ++ text) := by
  have hspace : WordBreak " " := by decide
  have hword : ∀ kind : ClauseKind, Unmarked kind.word ∧ kind.word ≠ "" ∧
      Text.Solid kind.word.toList ∧ lexemes kind.word = [.word kind.word] := by
    intro kind
    cases kind <;> decide
  obtain ⟨hplain, hne, hsolid, hlexemes⟩ := hword (make b).kind
  rw [hhead]
  refine ⟨hplain.closed.glue hspace.separator h.closed,
    (Trimmed.of_solid hne hsolid).around h.trimmed " ", lexemes text, ?_, h.inside, ?_⟩
  · rw [lexemes_glue hplain.closed hspace, hlexemes]
    rfl
  · rw [hread, h.read, Option.map_some]

/-- The lexemes of clauses with spaces between them are those of each. -/
theorem exists_lexemes_joined {cs : List Clause} {texts : List String}
    (h : List.Forall₂ Clause.IsWritten cs texts) :
    ∃ parts : List (ClauseKind × List Lexeme),
      lexemes (" ".intercalate texts) = parts.flatMap (fun c => .word c.1.word :: c.2) ∧
      (∀ c ∈ parts, InClause c.2) ∧ parts.mapM (fun c => c.1.read? c.2) = some cs := by
  induction h with
  | nil => exact ⟨[], by decide, List.forall_mem_nil _, rfl⟩
  | @cons c text cs texts hc htail ih =>
      obtain ⟨body, hlexemes, hbody, hread⟩ := hc.read
      obtain ⟨parts, htexts, hparts, hreads⟩ := ih
      refine ⟨(c.kind, body) :: parts, ?_, List.forall_mem_cons.mpr ⟨hbody, hparts⟩, ?_⟩
      · rw [List.flatMap_cons, ← htexts]
        cases texts with
        | nil =>
            rw [String.intercalate_singleton, hlexemes]
            exact (List.append_nil _).symm
        | cons next texts =>
            have hspace : WordBreak " " := by decide
            rw [String.intercalate_cons_cons, lexemes_glue hc.closed hspace, hlexemes]
            rfl
      · rw [List.mapM_cons, hread, hreads]
        rfl

/-- Clauses that are written with spaces between them are read back. -/
theorem readClauses_joined {cs : List Clause} {texts : List String}
    (h : List.Forall₂ Clause.IsWritten cs texts) :
    readClauses (lexemes (" ".intercalate texts)) = some cs := by
  obtain ⟨parts, hlexemes, hparts, hreads⟩ := exists_lexemes_joined h
  rw [readClauses, hlexemes, splitClauses_flatMap hparts, if_pos rfl]
  exact hreads

end TableMapper
