import TableMapper.Storage

/-!
# Result rows

A row of a query's result: its columns in order, each with a value.  A column
is looked up by its name; of two with one name the first counts.
-/

namespace TableMapper

/-- A row of a result. -/
structure Row where
  entries : List (String × Value)
  deriving DecidableEq

namespace Row

/-- The names of the columns. -/
def columns (r : Row) : List String :=
  r.entries.map (·.1)

/-- The number of columns. -/
def length (r : Row) : Nat :=
  r.entries.length

/-- The value of a column. -/
def get? (r : Row) (column : String) : Option Value :=
  (r.entries.find? (·.1 == column)).map (·.2)

/-- The value of a column as it is stored in a record. -/
def read (r : Row) (storage : Storage) (column : String) : Except Error Value :=
  match r.get? column with
  | some v => storage.decode column v
  | none => .error (.decode column "column not found in row")

/-- The value of a column as `take?` takes it; `expected` names what that is. -/
def readAs {α : Type} (r : Row) (expected : Scalar) (take? : Value → Option α)
    (column : String) : Except Error α :=
  match r.get? column with
  | none => .error (.decode column "column not found in row")
  | some v =>
    match take? v with
    | some a => .ok a
    | none => .error (.unexpected column expected.name v.kind)

/-- The text in a column. -/
def readText (r : Row) (column : String) : Except Error String :=
  r.readAs .text Scalar.text? column

/-- The text in a column, or nothing where it is null. -/
def readText? (r : Row) (column : String) : Except Error (Option String) :=
  r.readAs .text (fun v => if v = .null then some none else (Scalar.text? v).map some) column

/-- The integer in a column. -/
def readInteger (r : Row) (signed : Bool) (width : Width) (column : String) :
    Except Error Int :=
  r.readAs (.integer signed width)
    (fun v => (Scalar.integer? signed v).filter (Scalar.inRange signed width)) column

end Row

end TableMapper
