import TableMapper.Annotations
import TableMapper.Derive.Attribute
import TableMapper.Derive.StringText

/-!
# Generated code

What is generated for a declared type: the list of its members, the options of its
table, the cells of a record and the record in a row.  It is built as data, field by
field, and then written out.

* `Declaration.expand` — the code for a declaration, or what is wrong with it;
* `FieldCode.of` — the code for a field with its settings;
* `Expansion.text` — the code as text, and `expand`, from text to text.
-/

namespace TableMapper.Derive

/-- The member that is generated for a field. -/
inductive MemberCode
  | column (type : List Token) (name : String) (settings : List Annotations.Setting)
  | embedded (type : List Token) (name : String)
  | skipped (name : String)

/-- The cell that is generated for a field. -/
inductive CellCode
  | value (field : String)
  | embedded (field : String)
  | skipped
  deriving DecidableEq, Repr

/-- How a field is got from a row. -/
inductive ReadCode
  | column (field : String) (type : List Token) (name : String)
  | embedded (field : String) (type : List Token)
  | default (field : String)

/-- The code for a field. -/
structure FieldCode where
  member : MemberCode
  cell : CellCode
  read : ReadCode

/-- The code for a declared type. -/
structure Expansion where
  declaration : Declaration
  settings : TypeSettings
  fields : List FieldCode

/-- What is said about a column, a tag first. -/
def FieldSettings.chain (s : FieldSettings) : List Annotations.Setting :=
  (s.tag.map .tag).toList ++ (s.sqlType.map .sqlType).toList ++
    (s.nullable.map .nullable).toList ++ (s.default.map .default).toList ++
    (if s.increment then [.increment] else []) ++ (s.onUpdate.map .onUpdate).toList ++
    (s.comment.map .comment).toList

/-- The name of a field's column: the one it is given, or the name of the field. -/
def columnName (f : DeclaredField) (s : FieldSettings) : String :=
  s.column.getD f.name

/-- The code for a field. -/
def FieldCode.of (f : DeclaredField) (s : FieldSettings) : FieldCode :=
  let column := columnName f s
  if s.skip then ⟨.skipped column, .skipped, .default f.name⟩
  else if s.embed then ⟨.embedded f.type column, .embedded f.name, .embedded f.name f.type⟩
  else ⟨.column f.type column s.chain, .value f.name, .column f.name f.type column⟩

/-- The code for fields; the first field that is wrong counts. -/
def expandFields : List DeclaredField → Except DeriveError (List FieldCode)
  | [] => .ok []
  | f :: fs => do
    let s ← FieldSettings.read f.attributes
    let codes ← expandFields fs
    return FieldCode.of f s :: codes

/-- The code for a declaration. What is wrong with its body comes first, then its own
attributes, then its fields. -/
def Declaration.expand (d : Declaration) : Except DeriveError Expansion :=
  match d.body with
  | .unnamed => .error .unnamedFields
  | .variants => .error .notStruct
  | .named fields => do
    let settings ← TypeSettings.read d.attributes
    let codes ← expandFields fields
    return ⟨d, settings, codes⟩

/-- Parts with spaces between them; empty ones do not count. -/
def spaced (parts : List String) : String :=
  " ".intercalate (parts.filter fun p => !p.isEmpty)

/-- Items with commas between them. -/
def commas (items : List String) : String :=
  " , ".intercalate items

/-- A call of a method on what is in front of it. -/
def call (method argument : String) : String :=
  ". " ++ method ++ " (" ++ argument ++ ")"

/-- One thing that is said about a column, as a call. -/
def settingText : Annotations.Setting → String
  | .tag text =>
    call "annotations" ("myorm :: Annotations :: parse (" ++ stringText text ++ ")")
  | .sqlType text => call "sql_type" (stringText text)
  | .nullable b => call "nullable" (if b then "true" else "false")
  | .default text => call "default_value" (stringText text)
  | .increment => call "increment" ""
  | .onUpdate text => call "on_update" (stringText text)
  | .comment text => call "comment" (stringText text)

/-- A member as text. -/
def MemberCode.text : MemberCode → String
  | .column type name settings =>
    "myorm :: Member :: Column (" ++
      spaced (("myorm :: ColumnMember :: of :: < " ++ Token.textAll type ++ " > (" ++
        stringText name ++ ")") :: settings.map settingText) ++ ")"
  | .embedded type name =>
    "myorm :: Member :: embedded :: < " ++ Token.textAll type ++ " > (" ++ stringText name ++ ")"
  | .skipped name => "myorm :: Member :: Skipped (" ++ stringText name ++ " . to_string ())"

/-- A cell as text. -/
def CellCode.text : CellCode → String
  | .value field => "myorm :: Cell :: of (& self . " ++ field ++ ")"
  | .embedded field => "myorm :: Cell :: embedded (& self . " ++ field ++ ")"
  | .skipped => "myorm :: Cell :: Skipped"

/-- How a field is got from a row, as text. -/
def ReadCode.text : ReadCode → String
  | .column field type name =>
    field ++ " : row . try_get :: < " ++ Token.textAll type ++ " > (" ++ stringText name ++ ") ?"
  | .embedded field type =>
    field ++ " : < " ++ Token.textAll type ++ " as myorm :: FromRow > :: from_row (row) ?"
  | .default field => field ++ " : :: core :: default :: Default :: default ()"

/-- Names as a list of strings. -/
def namesText (names : List String) : String :=
  "[" ++ commas (names.map stringText) ++ "]"

/-- The options of a table as text. -/
def TypeSettings.text (s : TypeSettings) : String :=
  spaced <|
    ["myorm :: TableOptions :: new (" ++ stringText (s.table.getD "") ++ ")"] ++
    (s.comment.map fun text => call "description" (stringText text)).toList ++
    s.indexes.map (fun columns =>
      call "index" ("myorm :: Index :: new (" ++ namesText columns ++ ")")) ++
    s.uniques.map (fun columns =>
      call "unique" ("myorm :: Unique :: new (" ++ namesText columns ++ ")")) ++
    s.params.map fun (k, v) => call "param" (stringText k ++ " , " ++ stringText v)

/-- Text between curly brackets. -/
def block (inner : String) : String :=
  spaced ["\x7b", inner, "\x7d"]

/-- The code for a type as text. -/
def Expansion.text (e : Expansion) : String :=
  let d := e.declaration
  let implFor (what body : String) : String :=
    spaced ["impl", Token.textAll d.implParams, what, "for", d.name, Token.textAll d.typeParams,
      Token.textAll d.whereClause, block body]
  let items (what : String) : String := ":: std :: vec :: Vec < myorm :: " ++ what ++ " >"
  let vector (texts : List String) : String := block ("vec ! [" ++ commas texts ++ "]")
  spaced
    [implFor "myorm :: Entity" <| spaced
      ["fn members () ->", items "Member", vector (e.fields.map (·.member.text)),
        "fn table_options () -> myorm :: TableOptions", block e.settings.text,
        "fn cells (& self) ->", items "Cell", vector (e.fields.map (·.cell.text))],
    implFor "myorm :: FromRow" <| spaced
      ["fn from_row (row : & myorm :: Row) -> myorm :: OrmResult < Self >",
        block ("Ok (Self " ++ block (commas (e.fields.map (·.read.text))) ++ ")")]]

/-- The code that is generated for the declaration in a text. -/
def expand (declaration : String) : Except DeriveError String :=
  match Declaration.read? declaration with
  | some d => d.expand.map Expansion.text
  | none => .error .notDeclaration

end TableMapper.Derive
