import TableMapper.Literal
import TableMapper.Schema

/-!
# Batches

The columns and rows of an insert.  The first record decides the columns: every
field that does not count up by itself and whose value has a literal.  Later
records must have a literal in each of these columns.

* `Placed` — a literal with the field it belongs to, and its place;
* `Batch.ofRecord`, `Batch.ofRecords` — the batch of one record and of several;
* `Batch.events` — what is logged on the way.
-/

namespace TableMapper

/-- A literal in its column; `place` is the position of the field. -/
structure Placed where
  place : Nat
  field : Field
  literal : Literal
  deriving DecidableEq

/-- The literal of a value in a field's column. -/
def Field.literal (f : Field) (v : Value) : Except Error Literal :=
  v.literal f.name (some f.sqlType)

/-- The columns and rows of an insert. -/
structure Batch where
  columns : List String
  rows : List (List Literal)
  deriving DecidableEq

namespace Batch

/-- The literals of a record that go into its row, from the field at `place`
on. -/
def placedFrom (place : Nat) : List Field → List Value → List Placed
  | f :: fs, v :: vs =>
    let rest := placedFrom (place + 1) fs vs
    if f.autoIncrement then rest
    else match f.literal v with
      | .ok l => ⟨place, f, l⟩ :: rest
      | .error _ => rest
  | _, _ => []

/-- The literals of a record that go into its row. -/
def placed (schema : Schema) (values : List Value) : List Placed :=
  placedFrom 0 schema.fields values

/-- What is logged when the literals of a record are made, one of which may be
left out. -/
def recordEvents : List Field → List Value → List Event
  | f :: fs, v :: vs =>
    let rest := recordEvents fs vs
    if f.autoIncrement then rest
    else match f.literal v with
      | .ok l => l.events ++ rest
      | .error e => .skippedColumn f.name e :: rest
  | _, _ => []

/-- The literal of a later record in the column of an earlier one. -/
def literalAt (values : List Value) (p : Placed) : Except Error Literal :=
  match values[p.place]? with
  | some v => p.field.literal v
  | none => .error (.unsupportedValueType p.field.name .missing)

/-- The row of a later record. -/
def row (placed : List Placed) (values : List Value) : Except Error (List Literal) :=
  placed.mapM (literalAt values)

/-- What is logged when the row of a later record is made, up to the first
column without a literal. -/
def rowEvents (values : List Value) : List Placed → List Event
  | [] => []
  | p :: ps =>
    match literalAt values p with
    | .ok l => l.events ++ rowEvents values ps
    | .error _ => []

/-- The batch of one record. -/
def ofRecord (schema : Schema) (values : List Value) : Batch :=
  let ps := placed schema values
  ⟨ps.map (·.field.name), [ps.map (·.literal)]⟩

/-- The batch of several records, of which there must be one. -/
def ofRecords (schema : Schema) : List (List Value) → Except Error Batch
  | [] => .error .noRecordsProvided
  | first :: others => do
    let ps := placed schema first
    let rows ← others.mapM (row ps)
    return ⟨ps.map (·.field.name), ps.map (·.literal) :: rows⟩

/-- What is logged when the rows of later records are made, up to the first
record without a row. -/
def rowsEvents (ps : List Placed) : List (List Value) → List Event
  | [] => []
  | values :: others =>
    rowEvents values ps ++ (match row ps values with
      | .ok _ => rowsEvents ps others
      | .error _ => [])

/-- What is logged when a batch is made. -/
def events (schema : Schema) : List (List Value) → List Event
  | [] => []
  | first :: others =>
    recordEvents schema.fields first ++ rowsEvents (placed schema first) others

end Batch

end TableMapper
