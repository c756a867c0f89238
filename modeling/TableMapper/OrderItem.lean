import TableMapper.Text.Blank
import TableMapper.Text.Quoted

/-!
# Orderings

One item of an `ORDER BY` clause.  The direction is passed on as it is given.
-/

namespace TableMapper

/-- A column to order by, and the direction. -/
structure OrderItem where
  column : String
  direction : String
  deriving DecidableEq, Repr

namespace OrderItem

/-- In ascending order. -/
def ascending (column : String) : OrderItem :=
  ⟨column, "ASC"⟩

/-- In descending order. -/
def descending (column : String) : OrderItem :=
  ⟨column, "DESC"⟩

/-- The item as text. -/
def text (o : OrderItem) : String :=
  let direction := Text.trim o.direction
  Text.quoteName o.column ++ (if direction.isEmpty then "" else " " ++ direction)

/-- The item as text, unless it names no column. -/
def text? (o : OrderItem) : Option String :=
  if o.column.isEmpty then none else some o.text

end OrderItem

end TableMapper
