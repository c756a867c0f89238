import TableMapper.Proofs.ClauseGrammar
import TableMapper.Proofs.CreationOptions
import TableMapper.Proofs.KeyNames

/-!
# The grammar of table changes

How the database reads the lexemes of a change of a table.  A new table is a name, a list
in brackets of columns and keys, and options behind it; an existing one gets a column
with its place, or a key.  What stands behind the name of a column is the column's own: its
type, its default and the clause on updates are statement text, and a list can only be
read back if no such text goes beyond its item.  The laws about plans speak of changes as
data; what is read here are the statements that are sent for them.

* `splitItems` — the items of a list, up to the bracket that closes it;
* `TableStatement.read?` — the statement that lexemes are;
* `Contained`, `Field.IsContained` — texts and columns that stay within their item;
* `TableChange.read_text` — a change is read back from its text;
* `SchemaPlan.read_statements` — so are all changes of a plan;
* `TableChange.definedKeys_statement`, `SchemaPlan.run_statements` — the keys that are read,
  and what the statements of a plan make of the columns and keys of a table.
-/

namespace TableMapper

/-- How many brackets are open behind a lexeme.  Outside of brackets a comma and a closing
bracket end the item that the lexeme would belong to. -/
def nest? (depth : Nat) : Lexeme → Option Nat
  | .opening => some (depth + 1)
  | .closing => if depth = 0 then none else some (depth - 1)
  | .comma => if depth = 0 then none else some depth
  | _ => some depth

/-- Lexemes that close so many brackets and all that they open, and stay within their
item. -/
def Closes (depth : Nat) (ls : List Lexeme) : Prop :=
  ls.foldlM nest? depth = some 0

instance (depth : Nat) (ls : List Lexeme) : Decidable (Closes depth ls) :=
  inferInstanceAs (Decidable (_ = _))

/-- The items up to the bracket that closes the list, with commas between them, and the
lexemes behind that bracket. -/
def splitItems : Nat → List Lexeme → Option (List (List Lexeme) × List Lexeme)
  | _, [] => none
  | depth, l :: ls =>
    match nest? depth l with
    | some depth => (splitItems depth ls).map fun r => (r.1.modifyHead (l :: ·), r.2)
    | none =>
      if l = .comma then (splitItems 0 ls).map fun r => ([] :: r.1, r.2) else some ([[]], ls)

/-- A lexeme in front moves the depth by its own step. -/
theorem Closes.cons {depth depth' : Nat} {l : Lexeme} {ls : List Lexeme}
    (hl : nest? depth l = some depth') (hls : Closes depth' ls) : Closes depth (l :: ls) := by
  rw [Closes, List.foldlM_cons, hl]
  exact hls

/-- Parts of an item make one item together. -/
theorem Closes.append {depth : Nat} {ls ms : List Lexeme} (hls : Closes depth ls)
    (hms : Closes 0 ms) : Closes depth (ls ++ ms) := by
  rw [Closes, List.foldlM_append, hls]
  exact hms

/-- Lexemes that stay within their item belong to it as a whole. -/
theorem splitItems_append {depth : Nat} {ls : List Lexeme} (hls : Closes depth ls)
    (ms : List Lexeme) :
    splitItems depth (ls ++ ms) =
      (splitItems 0 ms).map fun r => (r.1.modifyHead (ls ++ ·), r.2) := by
  induction ls generalizing depth with
  | nil =>
      cases hls
      rw [List.nil_append]
      rcases splitItems 0 ms with _ | ⟨_ | ⟨_, _⟩, _⟩ <;> rfl
  | cons l ls ih =>
      rw [Closes, List.foldlM_cons, Option.bind_eq_bind, Option.bind_eq_some_iff] at hls
      obtain ⟨depth', hl, htail⟩ := hls
      rw [List.cons_append, splitItems, hl]
      simp only [ih htail, Option.map_map, Function.comp_def, List.modifyHead_modifyHead,
        List.cons_append]

/-- Items between commas are read back, with whatever is behind the list. -/
theorem splitItems_joined {items : List (List Lexeme)} (hne : items ≠ [])
    (hitems : ∀ ls ∈ items, Closes 0 ls) (rest : List Lexeme) :
    splitItems 0 ([.comma].intercalate items ++ .closing :: rest) = some (items, rest) := by
  have hend : splitItems 0 (.closing :: rest) = some ([[]], rest) := rfl
  have hnext (ls : List Lexeme) :
      splitItems 0 (.comma :: ls) = (splitItems 0 ls).map fun r => ([] :: r.1, r.2) := rfl
  induction items with
  | nil => exact absurd rfl hne
  | cons ls items ih =>
      obtain ⟨hls, htail⟩ := List.forall_mem_cons.mp hitems
      cases items with
      | nil =>
          rw [List.intercalate_singleton, splitItems_append hls, hend]
          simp
      | cons ms items =>
          rw [List.intercalate_cons_cons, List.append_assoc, List.append_assoc,
            splitItems_append hls, List.singleton_append, hnext,
            ih (List.cons_ne_nil ms items) htail]
          simp

/-- A column or a key in the list of a new table.  A column has its name in front, and
the rest of its lexemes is how it is declared. -/
inductive TableClause
  | column (name : String) (declaration : List Lexeme)
  | primary (columns : List String)
  | key (kind : KeyKind) (name : String) (columns : List String)
  deriving DecidableEq

/-- A statement that changes a table, as the database reads it. -/
inductive TableStatement
  | create (table : String) (clauses : List TableClause) (options : List Lexeme)
  | addColumn (table name : String) (declaration : List Lexeme) (predecessor : Option String)
  | addKey (table : String) (kind : KeyKind) (name : String) (columns : List String)
  deriving DecidableEq

/-- The key that a clause defines, with its kind, if it defines one. -/
def TableClause.definedKey? : TableClause → Option KindedKey
  | key kind name columns => some ⟨kind, ⟨name, columns⟩⟩
  | _ => none

/-- The keys that a statement defines, each with its kind. -/
def TableStatement.definedKeys : TableStatement → List KindedKey
  | create _ clauses _ => clauses.filterMap TableClause.definedKey?
  | addColumn _ _ _ _ => []
  | addKey _ kind name columns => [⟨kind, ⟨name, columns⟩⟩]

/-- The names up to the bracket that closes their list; nothing may be behind it. -/
def readNames? (ls : List Lexeme) : Option (List String) :=
  match splitItems 0 ls with
  | some (items, []) => items.mapM readName?
  | _ => none

/-- The key that lexemes are: its name, and the columns in brackets. -/
def readKey? : List Lexeme → Option (String × List String)
  | l :: .opening :: ls => do
    let name ← readName? [l]
    let columns ← readNames? ls
    return (name, columns)
  | _ => none

/-- The column or the key that lexemes are. -/
def TableClause.read? : List Lexeme → Option TableClause
  | .word "PRIMARY" :: .word "KEY" :: .opening :: ls => (readNames? ls).map .primary
  | .word "KEY" :: ls => (readKey? ls).map fun k => .key .index k.1 k.2
  | .word "UNIQUE" :: .word "KEY" :: ls => (readKey? ls).map fun k => .key .unique k.1 k.2
  | l :: ls => (readName? [l]).map fun name => .column name ls
  | [] => none

/-- The declaration of a column and the place behind it: in front of all columns, or
behind another one. -/
def readPlace? (ls : List Lexeme) : Option (List Lexeme × Option String) :=
  match ls.reverse with
  | .word "FIRST" :: declaration => some (declaration.reverse, none)
  | l :: .word "AFTER" :: declaration =>
    (readName? [l]).map fun name => (declaration.reverse, some name)
  | _ => none

/-- What is added to a table. -/
def TableStatement.readAddition? (table : String) : List Lexeme → Option TableStatement
  | .word "COLUMN" :: l :: ls => do
    let name ← readName? [l]
    let (declaration, predecessor) ← readPlace? ls
    return .addColumn table name declaration predecessor
  | .word "INDEX" :: ls => (readKey? ls).map fun k => .addKey table .index k.1 k.2
  | .word "UNIQUE" :: ls => (readKey? ls).map fun k => .addKey table .unique k.1 k.2
  | _ => none

/-- The statement that lexemes are. -/
def TableStatement.read? : List Lexeme → Option TableStatement
  | .word "CREATE" :: .word "TABLE" :: .word "IF" :: .word "NOT" :: .word "EXISTS" :: l ::
      .opening :: ls => do
    let table ← readName? [l]
    let (items, options) ← splitItems 0 ls
    let clauses ← items.mapM TableClause.read?
    return .create table clauses options
  | .word "ALTER" :: .word "TABLE" :: l :: .word "ADD" :: ls => do
    let table ← readName? [l]
    readAddition? table ls
  | _ => none

/-- The parts of a new table are read one by one. -/
theorem TableStatement.read?_create {l : Lexeme} {ls options : List Lexeme} {table : String}
    {items : List (List Lexeme)} {clauses : List TableClause} (hname : readName? [l] = some table)
    (hitems : splitItems 0 ls = some (items, options))
    (hclauses : items.mapM TableClause.read? = some clauses) :
    read? (.word "CREATE" :: .word "TABLE" :: .word "IF" :: .word "NOT" :: .word "EXISTS" :: l ::
      .opening :: ls) = some (.create table clauses options) := by
  simp only [read?, hname, hitems, Option.bind_eq_bind, Option.bind_some, hclauses]
  rfl

/-- What is added to a table is read behind the table's name. -/
theorem TableStatement.read?_alter {l : Lexeme} {table : String}
    (hname : readName? [l] = some table) (ls : List Lexeme) :
    read? (.word "ALTER" :: .word "TABLE" :: l :: .word "ADD" :: ls) = readAddition? table ls := by
  simp only [read?, hname, Option.bind_eq_bind, Option.bind_some]

/-- A column is read with its declaration and its place. -/
theorem TableStatement.readAddition?_column {l : Lexeme} {name : String} {ls : List Lexeme}
    {declaration : List Lexeme} {predecessor : Option String} (hname : readName? [l] = some name)
    (hplace : readPlace? ls = some (declaration, predecessor)) (table : String) :
    readAddition? table (.word "COLUMN" :: l :: ls) =
      some (.addColumn table name declaration predecessor) := by
  simp only [readAddition?, hname, hplace, Option.bind_eq_bind, Option.bind_some]
  rfl

/-- A quoted name as a lexeme. -/
def nameLexeme (name : String) : Lexeme :=
  .quoted .name (name.toList.flatMap Text.escapeNameChar)

/-- A quoted name is read back. -/
theorem readName?_nameLexeme (name : String) : readName? [nameLexeme name] = some name := by
  have hread := (isItem_quoteName name).read
  rwa [lexemes_quoteName] at hread

/-- Quoted names between commas are read back, and nothing is left. -/
theorem readNames?_joined {names : List String} (hne : names ≠ []) :
    readNames? ([.comma].intercalate (names.map fun name => [nameLexeme name]) ++ [.closing]) =
      some names := by
  have hsome : (names.map fun name => [nameLexeme name]) ≠ [] :=
    fun hnil => hne (List.map_eq_nil_iff.mp hnil)
  have hitems : ∀ ls ∈ names.map fun name => [nameLexeme name], Closes 0 ls :=
    List.forall_mem_map.mpr fun _ _ => rfl
  have hread : ∀ name ∈ names, readName? [nameLexeme name] = some (id name) :=
    fun name _ => readName?_nameLexeme name
  rw [readNames?, splitItems_joined hsome hitems]
  simpa using mapM_map_eq_some hread

/-- A text that stays within its item: its quoted tokens and its brackets are closed in
it, and it has no comma outside of brackets. -/
structure Contained (s : String) : Prop where
  closed : Closed s
  closes : Closes 0 (lexemes s)

/-- A text between two items, or between two parts of one, that belongs to no word and
opens no bracket. -/
def Joint (p : String) : Prop :=
  WordBreak p ∧ Closes 0 (lexemes p)

instance (p : String) : Decidable (Joint p) :=
  inferInstanceAs (Decidable (_ ∧ _))

/-- Two parts of an item make one. -/
theorem Contained.glue {s p t : String} (hs : Contained s) (hp : Joint p) (ht : Contained t) :
    Contained (s ++ p ++ t) := by
  refine ⟨hs.closed.glue hp.1.separator ht.closed, ?_⟩
  rw [lexemes_glue hs.closed hp.1]
  exact hs.closes.append (hp.2.append ht.closes)

/-- A quoted token is an item. -/
theorem IsQuoted.contained {kind : QuoteKind} {s : String} (hs : IsQuoted kind s) :
    Contained s := by
  obtain ⟨b, hb⟩ := hs.lexemes_eq
  refine ⟨hs.closed, ?_⟩
  rw [hb]
  rfl

namespace Field

/-- What stands behind the name of a column. -/
def declaration (f : Field) : String :=
  f.sqlType ++ (if f.nullable then " NULL" else " NOT NULL") ++
    (if f.autoIncrement then " AUTO_INCREMENT"
      else " DEFAULT " ++ f.default ++ (match f.onUpdate with
        | some clause => " ON UPDATE " ++ clause
        | none => "")) ++ " COMMENT " ++ Text.quote f.comment

/-- The statement text of a column stays within its item.  A column that counts up has
neither a default nor a clause on updates. -/
structure IsContained (f : Field) : Prop where
  sqlType : Contained f.sqlType
  default : f.autoIncrement = false → Contained f.default
  onUpdate : f.autoIncrement = false → ∀ clause ∈ f.onUpdate, Contained clause

/-- A column is defined by its quoted name and its declaration. -/
theorem definition_eq (f : Field) :
    f.definition = Text.quoteName f.name ++ " " ++ f.declaration := by
  cases hupdate : f.onUpdate <;>
    simp only [definition, declaration, hupdate, String.append_assoc]

/-- The declaration of such a column stays within its item. -/
theorem IsContained.declaration {f : Field} (hf : f.IsContained) : Contained f.declaration := by
  obtain ⟨nulls, hnulls, hcases⟩ : ∃ nulls,
      (if f.nullable then " NULL" else " NOT NULL") = nulls ∧
        (nulls = " NULL" ∨ nulls = " NOT NULL") := by
    cases f.nullable <;> simp
  have hcounting : Joint (nulls ++ " AUTO_INCREMENT COMMENT ") := by
    rcases hcases with rfl | rfl <;> decide
  have hgiven : Joint (nulls ++ " DEFAULT ") := by
    rcases hcases with rfl | rfl <;> decide
  have hupdate : Joint " ON UPDATE " := by decide
  have hcomment : Joint " COMMENT " := by decide
  have hquoted : Contained (Text.quote f.comment) := (isQuoted_quote f.comment).contained
  cases hauto : f.autoIncrement with
  | true =>
      have htext : f.declaration =
          f.sqlType ++ (nulls ++ " AUTO_INCREMENT COMMENT ") ++ Text.quote f.comment := by
        have hword : " AUTO_INCREMENT COMMENT " = " AUTO_INCREMENT" ++ " COMMENT " := by decide
        rw [Field.declaration, hnulls, hauto, hword]
        simp only [String.append_assoc, if_true]
      rw [htext]
      exact hf.sqlType.glue hcounting hquoted
  | false =>
      have hdefault := hf.sqlType.glue hgiven (hf.default hauto)
      cases honUpdate : f.onUpdate with
      | none =>
          have htext : f.declaration =
              f.sqlType ++ (nulls ++ " DEFAULT ") ++ f.default ++ " COMMENT " ++
                Text.quote f.comment := by
            rw [Field.declaration, hnulls, hauto, honUpdate]
            simp only [String.append_assoc, String.empty_append, Bool.false_eq_true, if_false]
          rw [htext]
          exact hdefault.glue hcomment hquoted
      | some clause =>
          have htext : f.declaration =
              f.sqlType ++ (nulls ++ " DEFAULT ") ++ f.default ++ " ON UPDATE " ++ clause ++
                " COMMENT " ++ Text.quote f.comment := by
            rw [Field.declaration, hnulls, hauto, honUpdate]
            simp only [String.append_assoc, Bool.false_eq_true, if_false]
          rw [htext]
          exact (hdefault.glue hupdate (hf.onUpdate hauto clause honUpdate)).glue hcomment hquoted

/-- A column's definition stays within its item. -/
theorem IsContained.definition {f : Field} (hf : f.IsContained) : Contained f.definition := by
  have hspace : Joint " " := by decide
  rw [definition_eq]
  exact (isQuoted_quoteName f.name).contained.glue hspace hf.declaration

/-- The lexemes of a definition are the name and those of the declaration. -/
theorem lexemes_definition (f : Field) :
    lexemes f.definition = nameLexeme f.name :: lexemes f.declaration := by
  have hspace : WordBreak " " := by decide
  rw [definition_eq, lexemes_glue (closed_quoteName f.name) hspace, lexemes_quoteName]
  rfl

end Field

/-- The type of a column that is not annotated stays within its item. -/
theorem Scalar.contained_defaultType {scalar : Scalar} {type : String}
    (h : scalar.defaultType = some type) : Contained type := by
  obtain ⟨hplain, hcloses⟩ : Unmarked type ∧ Closes 0 (lexemes type) := by
    cases scalar with
    | integer signed width => cases signed <;> cases width <;> cases h <;> decide
    | float | text => cases h
    | bool | moment =>
        cases h
        decide
  exact ⟨hplain.closed, hcloses⟩

/-- A default that is not annotated stays within its item. -/
theorem Field.contained_impliedDefault (category : Category) (nullable : Bool) (type : String) :
    Contained (impliedDefault category nullable type) := by
  have hplain : ∀ s ∈ ["NULL", "0", "FALSE"], Contained s := by
    have hall : ∀ s ∈ ["NULL", "0", "FALSE"], Unmarked s ∧ Closes 0 (lexemes s) := by decide
    exact fun s hs => ⟨(hall s hs).1.closed, (hall s hs).2⟩
  have hquoted : ∀ s ∈ ["", "1970-01-02 00:00:01", "1970-01-01 00:00:00", "00:00:00",
      "1970-01-01"], Contained (Text.quote s) :=
    fun s _ => (isQuoted_quote s).contained
  have hepoch : Contained (epoch type) := by
    simp only [epoch]
    split_ifs
    · exact hquoted "1970-01-02 00:00:01" (by decide)
    · exact hquoted "1970-01-01 00:00:00" (by decide)
    · exact hquoted "00:00:00" (by decide)
    · exact hquoted "1970-01-01" (by decide)
  unfold impliedDefault
  split_ifs
  · exact hplain "NULL" (by decide)
  · cases category with
    | text => exact hquoted "" (by decide)
    | integer | float => exact hplain "0" (by decide)
    | bool => exact hplain "FALSE" (by decide)
    | moment => exact hepoch

/-- The column of a record type stays within its item if the statement text of its
annotations does. -/
theorem Field.isContained_ofColumn {c : Column} {f : Field} (h : ofColumn c = .ok f)
    (htype : ∀ given ∈ c.annotations.sqlType, Contained (expandUnsigned (Text.trim given)))
    (hdefault : ∀ given ∈ c.annotations.default,
      Contained (givenDefault c.storage.scalar.category given))
    (honUpdate : ∀ clause ∈ c.annotations.onUpdate, Contained clause) : f.IsContained := by
  obtain ⟨type, hof, heq⟩ := bind_eq_ok.mp h
  cases heq
  refine ⟨?_, fun _ => ?_, fun _ => honUpdate⟩
  · change Contained type
    simp only [typeOf] at hof
    split_ifs at hof with hgiven
    · rw [← Except.ok.inj hof]
      cases hannotated : c.annotations.sqlType with
      | none =>
          rw [hannotated] at hgiven
          exact absurd hgiven (by decide)
      | some given => exact htype given hannotated
    · cases hstorage : c.storage.scalar.defaultType with
      | none =>
          rw [hstorage] at hof
          cases hof
      | some type' =>
          rw [hstorage] at hof
          rw [← Except.ok.inj hof]
          exact Scalar.contained_defaultType hstorage
  · change Contained (match c.annotations.default with
      | some given => givenDefault c.storage.scalar.category given
      | none => impliedDefault c.storage.scalar.category
          (c.annotations.nullable.getD c.storage.optional) type)
    cases hgiven : c.annotations.default with
    | none => exact contained_impliedDefault _ _ _
    | some given => exact hdefault given hgiven

/-- The lexemes of a list of quoted names. -/
theorem lexemes_quoteNames (names : List String) :
    lexemes (Text.quoteNames names) =
      [.comma].intercalate (names.map fun name => [nameLexeme name]) := by
  have hcomma : WordBreak ", " := by decide
  have hclosed : ∀ s ∈ names.map Text.quoteName, Closed s :=
    List.forall_mem_map.mpr fun name _ => closed_quoteName name
  have hmark : lexemes ", " = [.comma] := by decide
  have hnames : names.map (lexemes ∘ Text.quoteName) =
      names.map fun name => [nameLexeme name] := by
    refine List.map_congr_left fun name _ => ?_
    rw [Function.comp_apply, lexemes_quoteName, nameLexeme]
  rw [Text.quoteNames, lexemes_intercalate hcomma hclosed, hmark, List.map_map, hnames]

/-- A list of quoted names is closed. -/
theorem closed_quoteNames (names : List String) : Closed (Text.quoteNames names) := by
  have hcomma : WordBreak ", " := by decide
  rw [Text.quoteNames]
  exact closed_intercalate hcomma.separator
    (List.forall_mem_map.mpr fun name _ => closed_quoteName name)

/-- Names in brackets, behind a closed text and a space. -/
theorem lexemes_listed {s : String} (hs : Closed s) (names : List String) :
    lexemes (s ++ " (" ++ Text.quoteNames names ++ ")") = lexemes s ++ .opening ::
      ([.comma].intercalate (names.map fun name => [nameLexeme name]) ++ [.closing]) := by
  have hopening : WordBreak " (" := by decide
  have hclosing : WordBreak ")" := by decide
  rw [lexemes_before (hs.glue hopening.separator (closed_quoteNames names)) hclosing,
    lexemes_glue hs hopening, lexemes_quoteNames, List.append_assoc, List.append_assoc]
  rfl

/-- Names in brackets stay within their item. -/
theorem closes_listed (names : List String) :
    Closes 0 (.opening ::
      ([.comma].intercalate (names.map fun name => [nameLexeme name]) ++ [.closing])) := by
  change Closes 1 _
  induction names with
  | nil => rfl
  | cons name names ih =>
      cases names with
      | nil => rfl
      | cons next names =>
          rw [List.map_cons, List.map_cons, List.intercalate_cons_cons, List.append_assoc,
            List.append_assoc]
          exact .cons rfl (.cons rfl ih)

/-- A closed text that stays within its item, with names in brackets behind it. -/
theorem Contained.listed {s : String} (hs : Contained s) (names : List String) :
    Contained (s ++ " (" ++ Text.quoteNames names ++ ")") := by
  have hopening : WordBreak " (" := by decide
  have hclosing : WordBreak ")" := by decide
  refine ⟨(hs.closed.glue hopening.separator (closed_quoteNames names)).append
    hclosing.1.closed hclosing.1.plainStart, ?_⟩
  rw [lexemes_listed hs.closed]
  exact hs.closes.append (closes_listed names)

/-- A key is read back from its text. -/
theorem Key.read_text {k : Key} (hne : k.columns ≠ []) :
    readKey? (lexemes k.text) = some (k.name, k.columns) := by
  rw [text, lexemes_listed (closed_quoteName k.name), lexemes_quoteName]
  change (do
    let name ← readName? [nameLexeme k.name]
    let columns ← readNames? _
    return (name, columns)) = _
  rw [readName?_nameLexeme, readNames?_joined hne]
  rfl

/-- A text is a clause of a new table: it stays within its item and is read as the clause. -/
structure TableClause.IsWritten (clause : TableClause) (text : String) : Prop where
  contained : Contained text
  read : read? (lexemes text) = some clause

/-- The clause that a column is. -/
def Field.clause (f : Field) : TableClause :=
  .column f.name (lexemes f.declaration)

/-- The definition of such a column is a clause. -/
theorem Field.IsContained.isWritten {f : Field} (hf : f.IsContained) :
    f.clause.IsWritten f.definition := by
  refine ⟨hf.definition, ?_⟩
  rw [lexemes_definition]
  change (readName? [nameLexeme f.name]).map _ = _
  rw [readName?_nameLexeme]
  rfl

/-- The clause that names the primary key. -/
theorem isWritten_primary (name : String) :
    (TableClause.primary [name]).IsWritten ("PRIMARY KEY (" ++ Text.quoteName name ++ ")") := by
  have hplain : Unmarked "PRIMARY KEY" := by decide
  have hwords : lexemes "PRIMARY KEY" = [.word "PRIMARY", .word "KEY"] := by decide
  have hcloses : Closes 0 (lexemes "PRIMARY KEY") := by decide
  have hfront : "PRIMARY KEY (" = "PRIMARY KEY" ++ " (" := by decide
  have hname : Text.quoteName name = Text.quoteNames [name] := by
    rw [Text.quoteNames, List.map_singleton, String.intercalate_singleton]
  rw [hfront, hname]
  refine ⟨Contained.listed ⟨hplain.closed, hcloses⟩ [name], ?_⟩
  rw [lexemes_listed hplain.closed, hwords]
  change (readNames? _).map _ = _
  rw [readNames?_joined (List.cons_ne_nil name [])]
  rfl

/-- The clause of a key. -/
theorem Key.isWritten {k : Key} (hne : k.columns ≠ []) (kind : KeyKind) :
    (TableClause.key kind k.name k.columns).IsWritten (kind.declaration ++ k.text) := by
  have hspace : Joint " " := by decide
  have hblank : lexemes " " = [] := by decide
  have htext : Contained k.text := (isQuoted_quoteName k.name).contained.listed k.columns
  obtain ⟨words, hdeclaration, hplain, hcloses, hread⟩ : ∃ words,
      kind.declaration = words ++ " " ∧ Unmarked words ∧ Closes 0 (lexemes words) ∧
        ∀ ls, TableClause.read? (lexemes words ++ ls) =
          (readKey? ls).map fun k => .key kind k.1 k.2 := by
    cases kind with
    | index => exact ⟨"KEY", by decide, by decide, by decide, fun ls => rfl⟩
    | unique => exact ⟨"UNIQUE KEY", by decide, by decide, by decide, fun ls => rfl⟩
  rw [hdeclaration]
  refine ⟨Contained.glue ⟨hplain.closed, hcloses⟩ hspace htext, ?_⟩
  rw [lexemes_glue hplain.closed hspace.1, hblank, List.nil_append, hread, k.read_text hne]
  rfl

namespace Creation

/-- The columns and keys of a new table, in the order of its list. -/
def tableClauses (c : Creation) : List TableClause :=
  c.fields.map Field.clause ++ c.primary.toList.map (fun name => .primary [name]) ++
    c.indexes.map (fun k => .key .index k.name k.columns) ++
    c.uniques.map (fun k => .key .unique k.name k.columns)

/-- The text of the options behind the list. -/
def optionText (c : Creation) : String :=
  String.join (c.optionList.map fun p => " " ++ p.1 ++ p.2)

/-- A new table that has a column, keys with columns, and no text that goes beyond its
item. -/
structure IsContained (c : Creation) : Prop where
  columns : c.fields ≠ []
  fields : ∀ f ∈ c.fields, f.IsContained
  keys : ∀ k ∈ c.indexes ++ c.uniques, k.columns ≠ []

/-- The list of such a table is not empty. -/
theorem IsContained.clauses_ne_nil {c : Creation} (hc : c.IsContained) : c.clauses ≠ [] := by
  intro hnil
  simp only [Creation.clauses, List.append_eq_nil_iff, List.map_eq_nil_iff] at hnil
  exact hc.columns hnil.1.1.1

/-- The texts in the list of a new table are its columns and keys. -/
theorem IsContained.clauses {c : Creation} (hc : c.IsContained) :
    List.Forall₂ TableClause.IsWritten c.tableClauses c.clauses := by
  obtain ⟨hindexes, huniques⟩ := List.forall_mem_append.mp hc.keys
  have hmap {α : Type} {l : List α} {clause : α → TableClause} {text : α → String}
      (hl : ∀ a ∈ l, (clause a).IsWritten (text a)) :
      List.Forall₂ TableClause.IsWritten (l.map clause) (l.map text) := by
    rw [List.forall₂_map_left_iff, List.forall₂_map_right_iff, List.forall₂_same]
    exact hl
  refine List.rel_append (List.rel_append (List.rel_append ?_ ?_) ?_) ?_
  · exact hmap fun f hf => (hc.fields f hf).isWritten
  · exact hmap fun name _ => isWritten_primary name
  · exact hmap fun k hk => k.isWritten (hindexes k hk) .index
  · exact hmap fun k hk => k.isWritten (huniques k hk) .unique

end Creation

/-- Texts of clauses stay within their items. -/
theorem contained_of_written {clauses : List TableClause} {texts : List String}
    (h : List.Forall₂ TableClause.IsWritten clauses texts) : ∀ s ∈ texts, Contained s := by
  induction h with
  | nil => exact List.forall_mem_nil _
  | cons hclause _ ih => exact List.forall_mem_cons.mpr ⟨hclause.contained, ih⟩

/-- Clauses that are written are read from the lexemes of their texts. -/
theorem mapM_read?_clauses {clauses : List TableClause} {texts : List String}
    (h : List.Forall₂ TableClause.IsWritten clauses texts) :
    (texts.map lexemes).mapM TableClause.read? = some clauses := by
  induction h with
  | nil => rfl
  | cons hclause _ ih =>
      rw [List.map_cons, List.mapM_cons, hclause.read, ih]
      rfl

/-- Words, the name of a table, and a break behind it. -/
theorem lexemes_front {words : String} (hwords : Unmarked words) (table : String) {p : String}
    (hp : WordBreak p) (rest : String) :
    lexemes (words ++ " " ++ (Text.quoteName table ++ p ++ rest)) =
      lexemes words ++ nameLexeme table :: (lexemes p ++ lexemes rest) := by
  have hspace : WordBreak " " := by decide
  have hblank : lexemes " " = [] := by decide
  rw [lexemes_glue hwords.closed hspace, lexemes_glue (closed_quoteName table) hp,
    lexemes_quoteName, hblank]
  rfl

/-- The place of a column as lexemes. -/
def placeLexemes : Option String → List Lexeme
  | none => [.word "FIRST"]
  | some name => [.word "AFTER", nameLexeme name]

/-- A place is read back from behind a declaration. -/
theorem readPlace?_append (declaration : List Lexeme) (predecessor : Option String) :
    readPlace? (declaration ++ placeLexemes predecessor) = some (declaration, predecessor) := by
  cases predecessor with
  | none => simp [readPlace?, placeLexemes]
  | some name =>
      have hreverse : (declaration ++ placeLexemes (some name)).reverse =
          nameLexeme name :: .word "AFTER" :: declaration.reverse := by
        simp [placeLexemes]
      rw [readPlace?, hreverse]
      change (readName? [nameLexeme name]).map _ = _
      rw [readName?_nameLexeme, Option.map_some, List.reverse_reverse]

/-- The text of a place. -/
def placeText : Option String → String
  | none => " FIRST"
  | some name => " AFTER " ++ Text.quoteName name

/-- A place is its lexemes behind any closed text. -/
theorem lexemes_place {s : String} (hs : Closed s) (predecessor : Option String) :
    lexemes (s ++ placeText predecessor) = lexemes s ++ placeLexemes predecessor := by
  cases predecessor with
  | none =>
      have hspace : WordBreak " " := by decide
      have hfirst : " FIRST" = " " ++ "FIRST" := by decide
      have hcut : lexemes " " ++ lexemes "FIRST" = [.word "FIRST"] := by decide
      rw [placeText, hfirst, ← String.append_assoc, lexemes_glue hs hspace, hcut, placeLexemes]
  | some name =>
      have hafter : WordBreak " AFTER " := by decide
      have hcut : lexemes " AFTER " = [.word "AFTER"] := by decide
      rw [placeText, ← String.append_assoc, lexemes_glue hs hafter, hcut, lexemes_quoteName]
      rfl

namespace TableChange

/-- The statement that a change is. -/
def statement : TableChange → TableStatement
  | create c => .create c.table c.tableClauses (lexemes c.optionText)
  | addColumn table f predecessor => .addColumn table f.name (lexemes f.declaration) predecessor
  | addKey table kind k => .addKey table kind k.name k.columns

/-- A change whose texts stay within their items. -/
def IsContained : TableChange → Prop
  | create c => c.IsContained
  | addColumn _ f _ => f.IsContained
  | addKey _ _ k => k.columns ≠ []

/-- A new table is read back from its text. -/
theorem read_create {c : Creation} (hc : c.IsContained) :
    TableStatement.read? (lexemes c.text) = some (create c).statement := by
  have hwords : Unmarked "CREATE TABLE IF NOT EXISTS" := by decide
  have hcut : lexemes "CREATE TABLE IF NOT EXISTS" =
      [.word "CREATE", .word "TABLE", .word "IF", .word "NOT", .word "EXISTS"] := by decide
  have hfront : "CREATE TABLE IF NOT EXISTS " = "CREATE TABLE IF NOT EXISTS" ++ " " := by decide
  have hopening : WordBreak " (\n" := by decide
  have hopened : lexemes " (\n" = [.opening] := by decide
  have hcomma : WordBreak ",\n" := by decide
  have hmark : lexemes ",\n" = [.comma] := by decide
  have hclosing : WordBreak "\n)" := by decide
  have hended : lexemes "\n)" = [.closing] := by decide
  have hwritten := hc.clauses
  have hcontained := contained_of_written hwritten
  have hclosed : ∀ s ∈ c.clauses, Closed s := fun s hs => (hcontained s hs).closed
  have hitems : splitItems 0 ([.comma].intercalate (c.clauses.map lexemes) ++
      .closing :: lexemes c.optionText) = some (c.clauses.map lexemes, lexemes c.optionText) :=
    splitItems_joined (fun hnil => hc.clauses_ne_nil (List.map_eq_nil_iff.mp hnil))
      (List.forall_mem_map.mpr fun s hs => (hcontained s hs).closes) _
  have htext : c.text = "CREATE TABLE IF NOT EXISTS" ++ " " ++ (Text.quoteName c.table ++
      " (\n" ++ (",\n".intercalate c.clauses ++ "\n)" ++ c.optionText)) := by
    rw [c.text_eq, hfront, Creation.optionText]
    simp only [String.append_assoc]
  rw [htext, lexemes_front hwords c.table hopening, hcut, hopened,
    lexemes_glue (closed_intercalate hcomma.separator hclosed) hclosing,
    lexemes_intercalate hcomma hclosed, hmark, hended]
  exact TableStatement.read?_create (readName?_nameLexeme c.table) hitems
    (mapM_read?_clauses hwritten)

/-- A new column is read back from its text. -/
theorem read_addColumn {f : Field} (hf : f.IsContained) (table : String)
    (predecessor : Option String) :
    TableStatement.read? (lexemes (addColumn table f predecessor).text) =
      some (addColumn table f predecessor).statement := by
  have hwords : Unmarked "ALTER TABLE" := by decide
  have hcut : lexemes "ALTER TABLE" = [.word "ALTER", .word "TABLE"] := by decide
  have hfront : "ALTER TABLE " = "ALTER TABLE" ++ " " := by decide
  have hadd : WordBreak " ADD COLUMN " := by decide
  have hadded : lexemes " ADD COLUMN " = [.word "ADD", .word "COLUMN"] := by decide
  have htext : (addColumn table f predecessor).text = "ALTER TABLE" ++ " " ++
      (Text.quoteName table ++ " ADD COLUMN " ++ (f.definition ++ placeText predecessor)) := by
    have hplace : (addColumn table f predecessor).text = "ALTER TABLE " ++ Text.quoteName table ++
        " ADD COLUMN " ++ f.definition ++ placeText predecessor := by
      cases predecessor <;> rfl
    rw [hplace, hfront]
    simp only [String.append_assoc]
  rw [htext, lexemes_front hwords table hadd, hcut, hadded, lexemes_place hf.definition.closed,
    Field.lexemes_definition]
  exact (TableStatement.read?_alter (readName?_nameLexeme table) _).trans
    (TableStatement.readAddition?_column (readName?_nameLexeme f.name)
      (readPlace?_append _ predecessor) table)

/-- A new key is read back from its text. -/
theorem read_addKey {k : Key} (hk : k.columns ≠ []) (table : String) (kind : KeyKind) :
    TableStatement.read? (lexemes (addKey table kind k).text) =
      some (addKey table kind k).statement := by
  have hwords : Unmarked "ALTER TABLE" := by decide
  have hcut : lexemes "ALTER TABLE" = [.word "ALTER", .word "TABLE"] := by decide
  have hfront : "ALTER TABLE " = "ALTER TABLE" ++ " " := by decide
  obtain ⟨hadd, hread⟩ : WordBreak (" ADD " ++ kind.addition) ∧
      ∀ ls, TableStatement.read? ([.word "ALTER", .word "TABLE"] ++ nameLexeme table ::
        (lexemes (" ADD " ++ kind.addition) ++ ls)) =
          (readKey? ls).map fun k => .addKey table kind k.1 k.2 := by
    have halter := TableStatement.read?_alter (readName?_nameLexeme table)
    cases kind with
    | index => exact ⟨by decide, fun ls => halter (.word "INDEX" :: ls)⟩
    | unique => exact ⟨by decide, fun ls => halter (.word "UNIQUE" :: ls)⟩
  have htext : (addKey table kind k).text = "ALTER TABLE" ++ " " ++
      (Text.quoteName table ++ (" ADD " ++ kind.addition) ++ k.text) := by
    -- unfolding by equation lemmas is slow here
    change "ALTER TABLE " ++ Text.quoteName table ++ " ADD " ++ kind.addition ++ k.text = _
    rw [hfront]
    simp only [String.append_assoc]
  rw [htext, lexemes_front hwords table hadd, hcut, hread, k.read_text hk]
  rfl

/-- **A change is read back from its text.**  Where no statement text goes beyond its
item, the database reads the table, the columns with their declarations, the keys with
their columns, and the place of a new column, and no others. -/
theorem read_text {c : TableChange} (hc : c.IsContained) :
    TableStatement.read? (lexemes c.text) = some c.statement := by
  cases c with
  | create c => exact read_create hc
  | addColumn table f predecessor => exact read_addColumn hc table predecessor
  | addKey table kind k => exact read_addKey hc table kind

/-- The keys that a change defines are those that its statement does. -/
theorem definedKeys_statement (c : TableChange) : c.statement.definedKeys = c.definedKeys := by
  have hkeys (kind : KeyKind) (keys : List Key) :
      (keys.map fun k => TableClause.key kind k.name k.columns).filterMap
        TableClause.definedKey? = keys.map (⟨kind, ·⟩) := by
    rw [List.filterMap_map, ← List.filterMap_eq_map]
    rfl
  cases c with
  | create c =>
      have hfields : (c.fields.map Field.clause).filterMap TableClause.definedKey? = [] := by
        rw [List.filterMap_map]
        exact List.filterMap_eq_nil_iff.mpr fun _ _ => rfl
      have hprimary : (c.primary.toList.map fun name => TableClause.primary [name]).filterMap
          TableClause.definedKey? = [] := by
        rw [List.filterMap_map]
        exact List.filterMap_eq_nil_iff.mpr fun _ _ => rfl
      rw [statement, TableStatement.definedKeys, Creation.tableClauses, List.filterMap_append,
        List.filterMap_append, List.filterMap_append, hfields, hprimary, hkeys, hkeys]
      rfl
  | addColumn => rfl
  | addKey => rfl

/-- A comma in the brackets of a type, or in a comment, ends no item. -/
example : TableStatement.read? (lexemes (addColumn "orders"
    ⟨"price", "decimal(10, 2)", false, "0", false, "net, not gross", none⟩ (some "id")).text) =
      some (.addColumn "orders" "price" [.word "decimal", .opening, .word "10", .comma, .word "2",
        .closing, .word "NOT", .word "NULL", .word "DEFAULT", .word "0", .word "COMMENT",
        .quoted .text "net, not gross".toList] (some "id")) := by
  decide +kernel

end TableChange

/-- The changes of a plan stay within their items, if the columns and keys that it is made
for do. -/
theorem SchemaPlan.isContained_of_make {schema : Schema} {options : TableOptions}
    {defaults : TableDefaults} {live : Option LiveTable} {plan : SchemaPlan}
    (h : make schema options defaults live = .ok plan) (hcolumns : schema.fields ≠ [])
    (hfields : ∀ f ∈ schema.fields, f.IsContained)
    (hkeys : ∀ k ∈ options.indexes ++ options.uniques, k.columns ≠ []) :
    ∀ c ∈ plan.changes, c.IsContained := by
  cases live with
  | none =>
      cases h
      exact List.forall_mem_singleton.mpr ⟨hcolumns, hfields, hkeys⟩
  | some live =>
      obtain ⟨changes, hchanges, rfl⟩ := map_eq_ok.mp h
      obtain ⟨columns, hmissing, rfl⟩ := exists_of_additions_eq_ok hchanges
      obtain ⟨hindexes, huniques⟩ := List.forall_mem_append.mp hkeys
      have hadded {kind : KeyKind} {keys : List Key} (hkeys : ∀ k ∈ keys, k.columns ≠ []) :
          ∀ c ∈ missingKeys options.tableName kind live.keys keys, c.IsContained :=
        List.forall_mem_map.mpr fun k hk => hkeys k (List.mem_filter.mp hk).1
      refine List.forall_mem_append.mpr ⟨List.forall_mem_append.mpr ⟨?_, hadded hindexes⟩,
        hadded huniques⟩
      intro c hc
      obtain ⟨f, p, rfl, hf⟩ := exists_eq_addColumn hmissing c hc
      exact hfields f hf

/-- **A plan is read back from its statements**, one change from each. -/
theorem SchemaPlan.read_statements {schema : Schema} {options : TableOptions}
    {defaults : TableDefaults} {live : Option LiveTable} {plan : SchemaPlan}
    (h : make schema options defaults live = .ok plan) (hcolumns : schema.fields ≠ [])
    (hfields : ∀ f ∈ schema.fields, f.IsContained)
    (hkeys : ∀ k ∈ options.indexes ++ options.uniques, k.columns ≠ []) :
    (plan.statements.map lexemes).mapM TableStatement.read? =
      some (plan.changes.map TableChange.statement) := by
  have hcontained := isContained_of_make h hcolumns hfields hkeys
  rw [statements, List.map_map]
  exact mapM_map_eq_some fun c hc => TableChange.read_text (hcontained c hc)

/-- A table by the names of its columns, in order, and of its keys. -/
structure TableOutline where
  columns : List String
  keys : String → Bool

/-- The names of a table's columns and keys. -/
def LiveTable.outline (t : LiveTable) : TableOutline where
  columns := t.fields.map (·.name)
  keys n := t.keys.contains n

/-- The names with `n` directly behind `p`. -/
def insertNameBehind (p n : String) : List String → Option (List String)
  | [] => none
  | m :: ms => if m = p then some (m :: n :: ms) else (insertNameBehind p n ms).map (m :: ·)

/-- The names with `n` behind its predecessor, or else in front of all. -/
def placeName? (n : String) (predecessor : Option String) (names : List String) :
    Option (List String) :=
  if n ∈ names then none
  else
    match predecessor with
    | none => some (n :: names)
    | some p => insertNameBehind p n names

/-- An existing table behind a statement, as the database has read it. -/
def TableStatement.alter? (t : TableOutline) : TableStatement → Option TableOutline
  | create _ _ _ => some t
  | addColumn _ name _ predecessor =>
    (placeName? name predecessor t.columns).map fun columns => { t with columns }
  | addKey _ _ name _ =>
    if t.keys name then none else some { t with keys := Function.update t.keys name true }

/-- Columns and their names grow alike. -/
theorem insertBehind_names (p : String) (f : Field) (columns : List Field) :
    (insertBehind p f columns).map (List.map (·.name)) =
      insertNameBehind p f.name (columns.map (·.name)) := by
  induction columns with
  | nil => rfl
  | cons g columns ih =>
      rw [insertBehind, List.map_cons, insertNameBehind]
      split_ifs
      · rfl
      · rw [← ih, Option.map_map, Option.map_map]
        rfl

/-- Where a column goes depends on the names only. -/
theorem placeColumn?_names (f : Field) (predecessor : Option String) (columns : List Field) :
    (placeColumn? f predecessor columns).map (List.map (·.name)) =
      placeName? f.name predecessor (columns.map (·.name)) := by
  unfold placeColumn? placeName?
  split_ifs
  · rfl
  · cases predecessor with
    | none => rfl
    | some p => exact insertBehind_names p f columns

/-- Which keys there are behind a new one. -/
theorem LiveKeys.contains_insert_eq (keys : LiveKeys) (kind : KeyKind) (key : Key) :
    (keys.insert key kind).contains = Function.update keys.contains key.name true := by
  funext n
  rw [Bool.eq_iff_iff, contains_insert, Function.update_apply]
  split_ifs with hn
  · simp [hn]
  · simp [hn]

/-- What the database makes of a change is what it makes of the statement. -/
theorem LiveTable.alter?_outline (t : LiveTable) (c : TableChange) :
    (t.alter? c).map outline = c.statement.alter? t.outline := by
  cases c with
  | create c => rfl
  | addColumn table f predecessor =>
      have halter : t.alter? (.addColumn table f predecessor) =
          (placeColumn? f predecessor t.fields).map fun fields => LiveTable.mk fields t.keys := by
        rw [alter?, TableChange.columns?]
        cases placeColumn? f predecessor t.fields <;> rfl
      have hplace := placeColumn?_names f predecessor t.fields
      change _ = (placeName? f.name predecessor (t.fields.map (·.name))).map _
      rw [halter, ← hplace, Option.map_map, Option.map_map]
      rfl
  | addKey table kind k =>
      have hstatement : (TableChange.addKey table kind k).statement.alter? t.outline =
          if t.keys.contains k.name = true then none
          else some (TableOutline.mk (t.fields.map (·.name))
            (Function.update t.keys.contains k.name true)) := rfl
      rw [hstatement, alter?, TableChange.keys?, LiveKeys.add?,
        ← t.keys.contains_insert_eq kind k]
      split_ifs <;> rfl

/-- What it makes of several changes is what it makes of their statements, one after
another. -/
theorem LiveTable.run?_outline (t : LiveTable) (cs : List TableChange) :
    (t.run? cs).map outline = (cs.map TableChange.statement).foldlM TableStatement.alter?
      t.outline := by
  induction cs generalizing t with
  | nil => rfl
  | cons c cs ih =>
      rw [run?, List.foldlM_cons, List.map_cons, List.foldlM_cons, ← alter?_outline]
      cases t.alter? c with
      | none => rfl
      | some next => exact ih next

/-- **What the statements of a plan do.**  The database that reads the statements for an
existing table, and executes them one after another, comes to the columns and keys that
the changes of the plan lead to. -/
theorem SchemaPlan.run_statements {schema : Schema} {options : TableOptions}
    {defaults : TableDefaults} {live : LiveTable} {plan : SchemaPlan}
    (h : make schema options defaults (some live) = .ok plan) (hcolumns : schema.fields ≠ [])
    (hfields : ∀ f ∈ schema.fields, f.IsContained)
    (hkeys : ∀ k ∈ options.indexes ++ options.uniques, k.columns ≠ []) :
    ∃ read, (plan.statements.map lexemes).mapM TableStatement.read? = some read ∧
      read.foldlM TableStatement.alter? live.outline =
        (live.run? plan.changes).map LiveTable.outline :=
  ⟨plan.changes.map TableChange.statement, read_statements h hcolumns hfields hkeys,
    (live.run?_outline plan.changes).symm⟩

end TableMapper
