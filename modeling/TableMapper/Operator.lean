import TableMapper.Error

/-!
# Operators

The comparisons a condition can make.  Several spellings name one operator;
`<>` and `!=` stay apart, since each is written as it was given.
-/

namespace TableMapper

/-- The comparisons of a condition. -/
inductive Operator
  | eq
  | ne
  | diamond
  | lt
  | gt
  | le
  | ge
  | is
  | isNot
  | isIn
  | notIn
  | like
  deriving DecidableEq, Repr

namespace Operator

/-- The operator in a statement. -/
def text : Operator → String
  | eq => "="
  | ne => "!="
  | diamond => "<>"
  | lt => "<"
  | gt => ">"
  | le => "<="
  | ge => ">="
  | is => "IS"
  | isNot => "IS NOT"
  | isIn => "IN"
  | notIn => "NOT IN"
  | like => "LIKE"

/-- The spellings of the operators, in capitals with single spaces. -/
def spellings : List (String × Operator) :=
  [("=", eq), ("==", eq), ("!=", ne), ("<>", diamond), ("<", lt), (">", gt), ("<=", le),
   (">=", ge), ("IS", is), ("IS NOT", isNot), ("NOT", isNot), ("IN", isIn),
   ("NOT IN", notIn), ("LIKE", like)]

/-- The operator that a text names. Neither its case counts nor how wide its
blanks are. -/
def ofText (s : String) : Except Error Operator :=
  match spellings.find? (·.1 == Text.upper (Text.collapse s)) with
  | some (_, op) => .ok op
  | none => .error (.invalidOperator s)

/-- The operator to use with `NULL`, which nothing equals. -/
def forNull : Operator → Operator
  | eq => is
  | ne => isNot
  | op => op

end Operator

end TableMapper
