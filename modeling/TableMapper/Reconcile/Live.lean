import TableMapper.Field
import TableMapper.TableOptions

/-!
# Live tables

What the database says about a table that exists: its columns, from the rows of
a `DESC` query, and its keys, from those of `SHOW INDEX`.

* `Live.field`, `Live.keys` — the rows read;
* `LiveTable` — what the two queries give together.
-/

namespace TableMapper

/-- The keys of an existing table by their names, without the primary key. -/
structure LiveKeys where
  indexes : Dict Key := .empty
  uniques : Dict Key := .empty
  deriving DecidableEq, Repr

/-- Whether there is a key of this name. -/
def LiveKeys.contains (k : LiveKeys) (name : String) : Bool :=
  k.indexes.contains name || k.uniques.contains name

/-- An existing table. -/
structure LiveTable where
  fields : List Field
  keys : LiveKeys
  deriving DecidableEq, Repr

namespace Live

/-- The query for a table's columns. -/
def describeText (table : String) : String :=
  "DESC " ++ Text.quoteName table

/-- The query for a table's keys. -/
def showIndexText (table : String) : String :=
  "SHOW INDEX FROM " ++ Text.quoteName table

/-- The default of a live column as statement text. -/
def defaultText (sqlType : String) : Option String → String
  | some d =>
    if Text.occurs "char" sqlType || Text.occurs "text" sqlType then Text.quote d else d
  | none => "NULL"

/-- What a column is set to on every update, from its further particulars: all
that stands behind the first `on update `, if anything does. -/
def onUpdate? (extra : String) : Option String :=
  ((Text.after? Char.toLower "on update ".toList extra.toList).map
    fun rest => String.ofList (Text.trimChars rest)).filter fun clause => !clause.isEmpty

/-- A live column. -/
def field (row : Row) : Except Error Field := do
  let name ← row.readText "Field"
  let sqlType ← row.readText "Type"
  let null ← row.readText "Null"
  let default ← row.readText? "Default"
  let extra := (← row.readText? "Extra").getD ""
  return {
    name
    sqlType
    nullable := Text.upper null = "YES" || Text.upper null = "TRUE"
    default := defaultText sqlType default
    autoIncrement := Text.occurs "auto_increment" (Text.lower extra)
    comment := ""
    onUpdate := onUpdate? extra }

/-- The columns of a live table. -/
def fields (rows : List Row) : Except Error (List Field) :=
  rows.mapM field

/-- One column of a live key: the key's name, whether it is unique, and the
column with its place in the key. -/
structure KeyPart where
  key : String
  unique : Bool
  place : Int
  column : String
  deriving DecidableEq, Repr

/-- One column of a live key; `none` for one of the primary key, of which no more
than the name is read. -/
def keyPart? (row : Row) : Except Error (Option KeyPart) := do
  let key ← row.readText "Key_name"
  if Text.upper key = "PRIMARY" then return none
  let nonUnique ← row.readInteger true .w64 "Non_unique"
  let column ← row.readText "Column_name"
  let place ← row.readInteger false .w32 "Seq_in_index"
  return some ⟨key, nonUnique = 0, place, column⟩

/-- The columns of a key in the order of their places; columns at one place keep
the order of their rows. -/
def keyColumns (parts : List KeyPart) (name : String) : List String :=
  ((parts.filter (·.key == name)).mergeSort fun a b => a.place ≤ b.place).map (·.column)

/-- The keys that the parts make up. The first part of a key decides whether it
is unique. -/
def ofParts (parts : List KeyPart) : LiveKeys :=
  let kinds : Dict Bool := .ofList (parts.reverse.map fun p => (p.key, p.unique))
  let keys (unique : Bool) : Dict Key :=
    .ofList ((kinds.entries.filter (·.2 == unique)).map fun (name, _) =>
      (name, ⟨name, keyColumns parts name⟩))
  ⟨keys false, keys true⟩

/-- The keys of a live table. -/
def keys (rows : List Row) : Except Error LiveKeys := do
  return ofParts ((← rows.mapM keyPart?).filterMap id)

end Live

end TableMapper
