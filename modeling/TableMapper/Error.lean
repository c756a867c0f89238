import TableMapper.Text.Blank
import TableMapper.Value
import TableMapper.Verb

/-!
# Errors

Every way an operation can fail, as a cause with what it concerns.

* `Error.message` — the wording;
* `Error.kind` — the class of failure, which callers branch on;
* `Error.withStatement` — the statement that a failure of the database came
  from;
* `Error.isTableMissing` — whether the database said that a table does not
  exist.
-/

namespace TableMapper

/-- Classes of failure. -/
inductive ErrorKind
  /-- A model, its options or a setting is unusable. -/
  | configuration
  /-- A statement was called with something it cannot use. -/
  | argument
  /-- A live table cannot be brought in line with its model. -/
  | schemaConflict
  /-- A required row or column is absent. -/
  | notFound
  /-- The database reported a failure. -/
  | execution
  /-- A result row does not fit the record type. -/
  | decode
  deriving DecidableEq, Repr

/-- Why a value has no literal. -/
inductive Unencodable
  /-- Values of this kind have none in this place. -/
  | ofKind (kind : ValueKind)
  /-- A floating point number that is infinite or not a number. -/
  | nonFinite
  /-- The record ends before this column. -/
  | missing
  deriving DecidableEq, Repr

/-- The reason as error messages write it. -/
def Unencodable.name : Unencodable → String
  | .ofKind kind => kind.name
  | .nonFinite => "non-finite float"
  | .missing => "missing"

/-- What went wrong. -/
inductive Error
  | missingTableName
  | untypedField (field : String)
  | invalidIndex (reason : String)
  | multipleIncrementFields (first second : String)
  | config (reason : String)
  | unsupportedArgument (verb : Verb) (argument : ArgumentKind)
  | invalidOperator (text : String)
  | invalidLikeValue (column : String)
  | emptyInSet (column : String)
  | emptyColumnName
  | unsupportedValueType (column : String) (reason : Unencodable)
  | unknownColumn (column : String)
  | unrecognizedField (column : String)
  | noValueSpecified
  | noConditionsGiven
  | noRecordsProvided
  | newPrimaryKeyNotAllowed (table column : String)
  | noIncrementField (table : String)
  | notFound (what : String)
  | execution (message : String) (statement sqlState : Option String)
  | decode (column message : String)
  deriving DecidableEq, Repr

namespace Error

/-- The wording of an error. -/
def message : Error → String
  | missingTableName => "table name is required"
  | untypedField field => "field '" ++ field ++ "' requires a \x60type\x60 annotation"
  | invalidIndex reason => "invalid index: " ++ reason
  | multipleIncrementFields first second =>
    "multiple auto-increment fields: '" ++ first ++ "' and '" ++ second ++ "'"
  | config reason => "configuration error: " ++ reason
  | unsupportedArgument verb argument =>
    "unsupported argument for " ++ verb.name ++ ": " ++ argument.name
  | invalidOperator text => "invalid operator: '" ++ text ++ "'"
  | invalidLikeValue column => "invalid LIKE value for column '" ++ column ++ "'"
  | emptyInSet column => "empty IN set for column '" ++ column ++ "'"
  | emptyColumnName => "condition column name is empty"
  | unsupportedValueType column reason =>
    "unsupported value type for column '" ++ column ++ "': " ++ reason.name
  | unknownColumn column => "unknown column '" ++ column ++ "'"
  | unrecognizedField column => "field not recognized: '" ++ column ++ "'"
  | noValueSpecified => "no value specified"
  | noConditionsGiven => "no conditions given"
  | noRecordsProvided => "no records provided"
  | newPrimaryKeyNotAllowed table column =>
    "cannot add new primary key '" ++ column ++ "' to existing table '" ++ table ++ "'"
  | noIncrementField table => "no auto-increment field declared for table '" ++ table ++ "'"
  | notFound what => "not found: " ++ what
  | execution message _ _ => "execution error: " ++ message
  | decode column message => "decode error on column '" ++ column ++ "': " ++ message

/-- The class of an error. -/
def kind : Error → ErrorKind
  | missingTableName | untypedField _ | invalidIndex _
  | multipleIncrementFields _ _ | config _ => .configuration
  | unsupportedArgument _ _ | invalidOperator _ | invalidLikeValue _ | emptyInSet _
  | emptyColumnName | unsupportedValueType _ _ | unknownColumn _ | unrecognizedField _
  | noValueSpecified | noConditionsGiven | noRecordsProvided => .argument
  | newPrimaryKeyNotAllowed _ _ => .schemaConflict
  | noIncrementField _ | notFound _ => .notFound
  | execution _ _ _ => .execution
  | decode _ _ => .decode

/-- A failure of the database keeps the first statement it is told of; other
errors have none. -/
def withStatement (sql : String) : Error → Error
  | execution message none sqlState => execution message (some sql) sqlState
  | e => e

/-- The statement that failed. -/
def statement? : Error → Option String
  | execution _ sql _ => sql
  | _ => none

/-- Whether something required was absent. -/
def isNotFound (e : Error) : Bool :=
  e.kind = .notFound

/-- Whether the database reported that the table does not exist: by the state
code of the standard, or in words. -/
def isTableMissing : Error → Bool
  | execution message _ sqlState =>
    sqlState = some "42S02" || Text.occurs "doesn't exist" message
  | _ => false

/-- A value of the wrong kind in a result row. -/
def unexpected (column expected : String) (got : ValueKind) : Error :=
  decode column ("expected " ++ expected ++ ", got " ++ got.name)

end Error

end TableMapper
