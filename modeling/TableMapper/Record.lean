import TableMapper.Annotations
import TableMapper.Row

/-!
# Record types and records

A record type is a list of members: columns, records embedded in it, and
members that are not stored.  A record is a list of cells of the same shape.
Both are flattened in the same order, so that the columns of the one line up
with the values of the other.

* `Member.columns`, `Cell.values` — the two flattenings;
* `Member.read` — the record that a result row holds.
-/

namespace TableMapper

/-- A member that is stored in a column. -/
structure Column where
  name : String
  storage : Storage
  annotations : Annotations
  deriving DecidableEq, Repr

/-- A member of a record type. -/
inductive Member
  | column (c : Column)
  | embedded (name : String) (members : List Member)
  | skipped (name : String)

/-- A member's part in a record. -/
inductive Cell
  | value (v : Value)
  | embedded (cells : List Cell)
  | skipped

mutual

/-- The columns of one member. -/
def Member.columnsOf : Member → List Column
  | .column c => [c]
  | .embedded _ members => Member.columns members
  | .skipped _ => []

/-- The columns of a record type, embedded ones in their place. -/
def Member.columns : List Member → List Column
  | [] => []
  | m :: ms => m.columnsOf ++ Member.columns ms

end

mutual

/-- The values of one cell. -/
def Cell.valuesOf : Cell → List Value
  | .value v => [v]
  | .embedded cells => Cell.values cells
  | .skipped => []

/-- The stored values of a record, embedded ones in their place. -/
def Cell.values : List Cell → List Value
  | [] => []
  | c :: cs => c.valuesOf ++ Cell.values cs

end

mutual

/-- One cell of the record that a row holds. -/
def Member.readCell (row : Row) : Member → Except Error Cell
  | .column c => (row.read c.storage c.name).map .value
  | .embedded _ members => (Member.read row members).map .embedded
  | .skipped _ => .ok .skipped

/-- The record that a row holds; the first member that cannot be read decides
the error. -/
def Member.read (row : Row) : List Member → Except Error (List Cell)
  | [] => .ok []
  | m :: ms => do
    let cell ← m.readCell row
    let cells ← Member.read row ms
    return cell :: cells

end

end TableMapper
