import TableMapper.Schema
import TableMapper.TableOptions

/-!
# Record types with their tables

A record type as a facade is given it: its members, and what is said about the
table that its records are kept in.
-/

namespace TableMapper

/-- The members of a record type and the options of its table. -/
structure RecordType where
  members : List Member
  options : TableOptions := {}

namespace RecordType

/-- The schema of a record type. -/
def schema (t : RecordType) : Except Error Schema :=
  Schema.ofMembers t.members

/-- The record that a result row holds. -/
def read (t : RecordType) (row : Row) : Except Error (List Cell) :=
  Member.read row t.members

end RecordType

end TableMapper
