import TableMapper.Field

/-!
# Schemas

A schema is the list of fields of a record type, at most one of which counts up
by itself.

* `Schema.ofMembers` — the schema of a record type;
* `Schema.field?`, `Schema.increment?` — the field of a name, and the one that
  counts up.
-/

namespace TableMapper

/-- The fields of a record type. -/
structure Schema where
  fields : List Field
  increment_le_one : (fields.filter (·.autoIncrement)).length ≤ 1
  deriving DecidableEq, Repr

namespace Schema

/-- The schema with these fields, unless two of them count up. -/
def ofFields (fields : List Field) : Except Error Schema :=
  match h : fields.filter (·.autoIncrement) with
  | [] => .ok ⟨fields, by simp [h]⟩
  | [_] => .ok ⟨fields, by simp [h]⟩
  | first :: second :: _ => .error (.multipleIncrementFields first.name second.name)

/-- The schema of a record type. -/
def ofMembers (members : List Member) : Except Error Schema := do
  ofFields (← (Member.columns members).mapM Field.ofColumn)

/-- The names of the columns, in order. -/
def names (s : Schema) : List String :=
  s.fields.map (·.name)

/-- The field of a name; of several the last. -/
def field? (s : Schema) (name : String) : Option Field :=
  s.fields.reverse.find? (·.name == name)

/-- The type of the field of a name. -/
def sqlType? (s : Schema) (name : String) : Option String :=
  (s.field? name).map (·.sqlType)

/-- The field that counts up. -/
def increment? (s : Schema) : Option Field :=
  s.fields.find? (·.autoIncrement)

/-- The field that counts up, where a statement on `table` needs one. -/
def increment (s : Schema) (table : String) : Except Error Field :=
  match s.increment? with
  | some f => .ok f
  | none => .error (.noIncrementField table)

/-- The values of a record, one for each field. -/
def values (s : Schema) (cells : List Cell) : Except Error (List Value) :=
  let vs := Cell.values cells
  if vs.length = s.fields.length then .ok vs
  else .error (.config ("record yields " ++ toString vs.length ++ " values for " ++
    toString s.fields.length ++ " columns"))

end Schema

end TableMapper
