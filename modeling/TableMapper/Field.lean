import TableMapper.Record
import TableMapper.Text.Quoted

/-!
# Fields

A field is a column as the database declares it: with a type, a default and
the rest of what stands in a column definition.

* `Field.ofColumn` — the field of a record type's column;
* `Field.definition` — the field as a statement defines it.
-/

namespace TableMapper

/-- A column as the database declares it. `default` is statement text. -/
structure Field where
  name : String
  sqlType : String
  nullable : Bool
  default : String
  autoIncrement : Bool
  comment : String
  onUpdate : Option String
  deriving DecidableEq, Repr

namespace Field

/-- The names that integer types begin with. -/
def integerTypes : List String :=
  ["tinyint", "smallint", "mediumint", "int", "bigint"]

/-- A `u` in front of an integer type means that it is unsigned. -/
def expandUnsigned (sqlType : String) : String :=
  match sqlType.toList with
  | c :: rest =>
    let rest := String.ofList rest
    if (c = 'u' || c = 'U') && integerTypes.any (Text.startsWith (Text.lower rest)) then
      rest ++ " unsigned"
    else sqlType
  | [] => sqlType

/-- A given default as statement text: a text is quoted, a moment too unless it
is zero or the current time, and its underscores stand for spaces. -/
def givenDefault (category : Category) (given : String) : String :=
  match category with
  | .text => Text.quote given
  | .moment =>
    if given = "0" || Text.startsWith (Text.upper given) "CURRENT_TIMESTAMP" then given
    else "'" ++ given.map (fun c => if c = '_' then ' ' else c) ++ "'"
  | _ => given

/-- The first moment of a temporal type. -/
def epoch (sqlType : String) : String :=
  let type := Text.lower sqlType
  if type = "timestamp" then "'1970-01-02 00:00:01'"
  else if type = "datetime" then "'1970-01-01 00:00:00'"
  else if type = "time" then "'00:00:00'"
  else "'1970-01-01'"

/-- The default of a column for which none is given. -/
def impliedDefault (category : Category) (nullable : Bool) (sqlType : String) : String :=
  if nullable then "NULL"
  else match category with
    | .text => "''"
    | .integer | .float => "0"
    | .bool => "FALSE"
    | .moment => epoch sqlType

/-- The type of a column: the annotated one, or else that of its storage. -/
def typeOf (c : Column) : Except Error String :=
  let given := Text.trim (c.annotations.sqlType.getD "")
  if !given.isEmpty then .ok (expandUnsigned given)
  else match c.storage.scalar.defaultType with
    | some type => .ok type
    | none => .error (.untypedField c.name)

/-- The field of a column. Only an integer counts up by itself. -/
def ofColumn (c : Column) : Except Error Field := do
  let a := c.annotations
  let category := c.storage.scalar.category
  let sqlType ← typeOf c
  let nullable := a.nullable.getD c.storage.optional
  return {
    name := c.name
    sqlType
    nullable
    default := match a.default with
      | some given => givenDefault category given
      | none => impliedDefault category nullable sqlType
    autoIncrement := a.increment && category = .integer
    comment := Text.trim (a.comment.getD "")
    onUpdate := a.onUpdate }

/-- The field as a statement defines it. -/
def definition (f : Field) : String :=
  let behaviour :=
    if f.autoIncrement then " AUTO_INCREMENT"
    else " DEFAULT " ++ f.default ++ (match f.onUpdate with
      | some clause => " ON UPDATE " ++ clause
      | none => "")
  Text.quoteName f.name ++ " " ++ f.sqlType ++ (if f.nullable then " NULL" else " NOT NULL") ++
    behaviour ++ " COMMENT " ++ Text.quote f.comment

end Field

end TableMapper
