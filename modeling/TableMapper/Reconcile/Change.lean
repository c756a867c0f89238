import TableMapper.Schema
import TableMapper.TableOptions

/-!
# Changes of a table

The statements that bring a table in line with its record type, as data: a
table is created as a whole, or columns and keys are added to it.

* `TableChange.text` — a change as it is sent;
* `Creation.parameters` — the parameters of a new table, each given once.
-/

namespace TableMapper

/-- Engine and charset of the tables whose options name none. -/
structure TableDefaults where
  engine : String := "InnoDB"
  charset : String := "utf8mb4"
  deriving DecidableEq, Repr

/-- A new table. -/
structure Creation where
  table : String
  fields : List Field
  primary : Option String
  indexes : List Key
  uniques : List Key
  params : List (String × String)
  description : String
  deriving DecidableEq, Repr

/-- A change of a table. -/
inductive TableChange
  | create (c : Creation)
  /-- A column added behind another one, or else in front of all. -/
  | addColumn (table : String) (field : Field) (predecessor : Option String)
  | addKey (table : String) (kind : KeyKind) (key : Key)
  deriving DecidableEq, Repr

/-- How a kind of key is declared in a new table. -/
def KeyKind.declaration : KeyKind → String
  | .index => "KEY "
  | .unique => "UNIQUE KEY "

/-- How a kind of key is added to a table. -/
def KeyKind.addition : KeyKind → String
  | .index => "INDEX "
  | .unique => "UNIQUE "

/-- Name and columns of a key. -/
def Key.text (k : Key) : String :=
  Text.quoteName k.name ++ " (" ++ Text.quoteNames k.columns ++ ")"

namespace Creation

/-- The lines between the brackets: columns, primary key, keys. -/
def clauses (c : Creation) : List String :=
  c.fields.map Field.definition ++
    c.primary.toList.map (fun name => "PRIMARY KEY (" ++ Text.quoteName name ++ ")") ++
    c.indexes.map (fun k => KeyKind.index.declaration ++ k.text) ++
    c.uniques.map (fun k => KeyKind.unique.declaration ++ k.text)

/-- The statement as it is sent. -/
def text (c : Creation) : String :=
  "CREATE TABLE IF NOT EXISTS " ++ Text.quoteName c.table ++ " (\n" ++
    ",\n".intercalate c.clauses ++ "\n)" ++
    String.join (c.params.map fun (k, v) => " " ++ k ++ "=" ++ v) ++
    " COMMENT " ++ Text.quote c.description

/-- The parameters of a new table: engine, first number of the counting column,
charset, and then all others. The keyword with `DEFAULT` decides the charset if
both are given; a comment is none, since the description is the comment. -/
def parameters (schema : Schema) (options : TableOptions) (defaults : TableDefaults) :
    List (String × String) :=
  let given := options.params
  let charset := (given.find? "DEFAULT CHARSET").or (given.find? "CHARSET")
  let others := (((given.erase "ENGINE").erase "AUTO_INCREMENT").erase "DEFAULT CHARSET").erase
    "COMMENT"
  let others := if given.contains "DEFAULT CHARSET" then others else others.erase "CHARSET"
  [("ENGINE", (given.find? "ENGINE").getD defaults.engine)] ++
    (if schema.increment?.isSome then
      [("AUTO_INCREMENT", (given.find? "AUTO_INCREMENT").getD "1")]
    else []) ++
    [("DEFAULT CHARSET", charset.getD defaults.charset)] ++ others.entries

/-- The new table of a record type. -/
def ofSchema (schema : Schema) (options : TableOptions) (defaults : TableDefaults) :
    Creation where
  table := options.tableName
  fields := schema.fields
  primary := schema.increment?.map (·.name)
  indexes := options.indexes
  uniques := options.uniques
  params := parameters schema options defaults
  description := options.description

end Creation

/-- The change as it is sent. -/
def TableChange.text : TableChange → String
  | .create c => c.text
  | .addColumn table field predecessor =>
    "ALTER TABLE " ++ Text.quoteName table ++ " ADD COLUMN " ++ field.definition ++
      (match predecessor with
        | none => " FIRST"
        | some name => " AFTER " ++ Text.quoteName name)
  | .addKey table kind key =>
    "ALTER TABLE " ++ Text.quoteName table ++ " ADD " ++ kind.addition ++ key.text

end TableMapper
