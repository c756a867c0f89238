import TableMapper.Derive.Declaration
import TableMapper.Text.Blank

/-!
# Attributes of types and fields

An `orm` attribute holds a list of items, each a key alone or a key and a text.  Items
are read one after another, so that of two faults the first one counts; the items of
all attributes together then say what is generated.

* `TypeItem`, `FieldItem` — the items that a type and a field can have;
* `TypeItem.readAll`, `FieldItem.readAll` — the items of a list of attributes;
* `TypeSettings.ofItems`, `FieldSettings.ofItems` — what they say together: for each key
  with a text the last one counts, and so it does for whether a column may be null.
-/

namespace TableMapper.Derive

/-- Why nothing can be generated for a declared type. -/
inductive DeriveError
  | notDeclaration
  | unnamedFields
  | notStruct
  | noArguments
  | valuedAttribute
  | literalItem
  | strangeItem
  | noItem
  | noPathSegment (atEnd : Bool)
  | noEquals
  | noText (atEnd : Bool)
  | noComma
  | unknownTypeItem
  | unknownFieldItem
  | emptyIndex
  | emptyUnique
  | skippedAndEmbedded
  deriving DecidableEq, Repr

/-- The text of an error that is found at the end of what is read. -/
def endText (atEnd : Bool) (expected : String) : String :=
  (if atEnd then "unexpected end of input, " else "") ++ expected

/-- The text of an error. -/
def DeriveError.message : DeriveError → String
  | .notDeclaration => "not a declaration of a type"
  | .unnamedFields => "Entity can only be derived for structs with named fields"
  | .notStruct => "Entity can only be derived for structs"
  | .noArguments => "expected attribute arguments in parentheses: #[orm(...)]"
  | .valuedAttribute => "expected parentheses: #[orm(...)]"
  | .literalItem => "unexpected literal in nested attribute, expected ident"
  | .strangeItem => "unexpected token in nested attribute, expected ident"
  | .noItem => endText true "expected nested attribute"
  | .noPathSegment atEnd => endText atEnd "expected ident"
  | .noEquals => "expected \x60=\x60"
  | .noText atEnd => endText atEnd "expected string literal"
  | .noComma => "expected \x60,\x60"
  | .unknownTypeItem => "unknown orm struct attribute"
  | .unknownFieldItem => "unknown orm field attribute"
  | .emptyIndex => "index needs at least one column"
  | .emptyUnique => "unique needs at least one column"
  | .skippedAndEmbedded => "\x60skip\x60 and \x60embed\x60 cannot be combined"

/-- An item of an attribute of a type. -/
inductive TypeItem
  | table (name : String)
  | comment (text : String)
  | index (columns : List String)
  | unique (columns : List String)
  | engine (name : String)
  | charset (name : String)
  deriving DecidableEq, Repr

/-- An item of an attribute of a field. -/
inductive FieldItem
  | column (name : String)
  | tag (text : String)
  | sqlType (text : String)
  | nullable (b : Bool)
  | default (text : String)
  | increment
  | onUpdate (text : String)
  | comment (text : String)
  | embed
  | skip
  deriving DecidableEq, Repr

/-- What is read from the front of tokens, and the rest. -/
abbrev ItemReader (α : Type) : Type := List Token → Except DeriveError (α × List Token)

/-- The segments of a path behind its first. The number bounds how many there can be. -/
def furtherSegments : Nat → ItemReader Nat
  | 0, ts => .ok (0, ts)
  | n + 1, ts =>
    match Shape.pair ':' ':' ts with
    | none => .ok (0, ts)
    | some r =>
      match wordAnd? r with
      | none => .error (.noPathSegment r.isEmpty)
      | some (_, r) => (furtherSegments n r).map fun (k, r) => (k + 1, r)

/-- The key of an item: a word; `none` for a longer path, which no item has. -/
def readKey : ItemReader (Option String) := fun ts =>
  let (rooted, ts) := match Shape.pair ':' ':' ts with
    | some r => (true, r)
    | none => (false, ts)
  match wordAnd? ts with
  | some (w, r) =>
    (furtherSegments r.length r).map fun (k, r) =>
      (if rooted || 0 < k then none else some w, r)
  | none =>
    .error <|
      if ts.isEmpty then .noItem
      else if Shape.constant.starts ts then .literalItem
      else match ts with
        | .literal _ :: _ => .literalItem
        | _ => .strangeItem

/-- The text of an item, behind its key. -/
def readText : ItemReader String := fun ts =>
  match Shape.mark '=' ts with
  | none => .error .noEquals
  | some (.string value _ :: r) => .ok (value, r)
  | some r => .error (.noText r.isEmpty)

/-- The columns that a text lists between commas, without blank ones. -/
def columnList (s : String) : List String :=
  ((Text.cut ',' s.toList).map Text.trimChars).filterMap fun c =>
    if c.isEmpty then none else some (.ofList c)

/-- The columns of a key over some of them. -/
def readColumns (fault : DeriveError) : ItemReader (List String) := fun ts =>
  (readText ts).bind fun (s, r) =>
    let columns := columnList s
    if columns.isEmpty then .error fault else .ok (columns, r)

/-- An item that is made from what is read. -/
def made {α β : Type} (make : α → β) (read : ItemReader α) : ItemReader β := fun ts =>
  (read ts).map fun (a, r) => (make a, r)

/-- An item that is its key alone. -/
def alone {β : Type} (item : β) : ItemReader β := fun ts => .ok (item, ts)

/-- What follows the key of an item of a type. -/
def TypeItem.read (key : Option String) : ItemReader TypeItem :=
  match key with
  | some "table" => made .table readText
  | some "comment" => made .comment readText
  | some "index" => made .index (readColumns .emptyIndex)
  | some "unique" => made .unique (readColumns .emptyUnique)
  | some "engine" => made .engine readText
  | some "charset" => made .charset readText
  | _ => fun _ => .error .unknownTypeItem

/-- What follows the key of an item of a field. -/
def FieldItem.read (key : Option String) : ItemReader FieldItem :=
  match key with
  | some "column" => made .column readText
  | some "tag" => made .tag readText
  | some "sql_type" => made .sqlType readText
  | some "nullable" => alone (.nullable true)
  | some "not_null" => alone (.nullable false)
  | some "default" => made .default readText
  | some "increment" => alone .increment
  | some "on_update" => made .onUpdate readText
  | some "comment" => made .comment readText
  | some "embed" => alone .embed
  | some "skip" => alone .skip
  | _ => fun _ => .error .unknownFieldItem

/-- The items in a list, with commas between them and perhaps behind the last. The
number bounds how many there can be. -/
def readItemsUpTo {α : Type} (read : Option String → ItemReader α) :
    Nat → List Token → Except DeriveError (List α)
  | 0, _ => .ok []
  | n + 1, ts =>
    if ts.isEmpty then .ok []
    else do
      let (key, r) ← readKey ts
      let (item, r) ← read key r
      if r.isEmpty then return [item]
      match Shape.mark ',' r with
      | none => .error .noComma
      | some r => return item :: (← readItemsUpTo read n r)

/-- The items of an attribute. -/
def readItems {α : Type} (read : Option String → ItemReader α) :
    OrmAttribute → Except DeriveError (List α)
  | .bare => .error .noArguments
  | .valued => .error .valuedAttribute
  | .list tokens => readItemsUpTo read (tokens.length + 1) tokens

/-- The items of attributes, in order. -/
def readAllItems {α : Type} (read : Option String → ItemReader α) :
    List OrmAttribute → Except DeriveError (List α)
  | [] => .ok []
  | a :: as => do
    let front ← readItems read a
    let rest ← readAllItems read as
    return front ++ rest

/-- The items of a type's attributes. -/
def TypeItem.readAll (attributes : List OrmAttribute) : Except DeriveError (List TypeItem) :=
  readAllItems TypeItem.read attributes

/-- The items of a field's attributes. -/
def FieldItem.readAll (attributes : List OrmAttribute) : Except DeriveError (List FieldItem) :=
  readAllItems FieldItem.read attributes

/-- What a type's attributes say. -/
structure TypeSettings where
  table : Option String := none
  comment : Option String := none
  indexes : List (List String) := []
  uniques : List (List String) := []
  params : List (String × String) := []
  deriving DecidableEq, Repr

/-- What a field's attributes say. -/
structure FieldSettings where
  column : Option String := none
  tag : Option String := none
  sqlType : Option String := none
  nullable : Option Bool := none
  default : Option String := none
  increment : Bool := false
  onUpdate : Option String := none
  comment : Option String := none
  embed : Bool := false
  skip : Bool := false
  deriving DecidableEq, Repr

/-- The settings after one more item. -/
def TypeSettings.add (s : TypeSettings) : TypeItem → TypeSettings
  | .table name => { s with table := some name }
  | .comment text => { s with comment := some text }
  | .index columns => { s with indexes := s.indexes ++ [columns] }
  | .unique columns => { s with uniques := s.uniques ++ [columns] }
  | .engine name => { s with params := s.params ++ [("ENGINE", name)] }
  | .charset name => { s with params := s.params ++ [("DEFAULT CHARSET", name)] }

/-- The settings after one more item. -/
def FieldSettings.add (s : FieldSettings) : FieldItem → FieldSettings
  | .column name => { s with column := some name }
  | .tag text => { s with tag := some text }
  | .sqlType text => { s with sqlType := some text }
  | .nullable b => { s with nullable := some b }
  | .default text => { s with default := some text }
  | .increment => { s with increment := true }
  | .onUpdate text => { s with onUpdate := some text }
  | .comment text => { s with comment := some text }
  | .embed => { s with embed := true }
  | .skip => { s with skip := true }

/-- What items of a type say together. -/
def TypeSettings.ofItems (items : List TypeItem) : TypeSettings :=
  items.foldl .add {}

/-- What items of a field say together. -/
def FieldSettings.ofItems (items : List FieldItem) : FieldSettings :=
  items.foldl .add {}

/-- What the attributes of a type say. -/
def TypeSettings.read (attributes : List OrmAttribute) : Except DeriveError TypeSettings :=
  (TypeItem.readAll attributes).map TypeSettings.ofItems

/-- What the attributes of a field say. A field is not both left out and taken apart. -/
def FieldSettings.read (attributes : List OrmAttribute) : Except DeriveError FieldSettings := do
  let s := FieldSettings.ofItems (← FieldItem.readAll attributes)
  if s.skip && s.embed then .error .skippedAndEmbedded else .ok s

end TableMapper.Derive
