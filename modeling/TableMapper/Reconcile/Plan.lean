import TableMapper.Reconcile.Change
import TableMapper.Reconcile.Live

/-!
# Plans

What has to be done so that the database has the table of a record type: create
it, or add to it what is missing.  Columns and keys of the table that the record
type does not know are left alone.

* `SchemaPlan.missingColumns` — the columns to add, each behind its neighbour in
  the record type;
* `SchemaPlan.make` — the whole plan.
-/

namespace TableMapper

/-- What has to be done about a table. -/
structure SchemaPlan where
  existing : Bool
  changes : List TableChange
  deriving DecidableEq, Repr

namespace SchemaPlan

/-- The columns to add, in order. `predecessor` is the field in front of these,
`present` holds the names of the columns that are there by then. A counting
column cannot be added, since it is the primary key. -/
def missingColumns (table : String) (predecessor : Option String) (present : List String) :
    List Field → Except Error (List TableChange)
  | [] => .ok []
  | f :: fs =>
    if present.contains f.name then missingColumns table (some f.name) present fs
    else if f.autoIncrement then .error (.newPrimaryKeyNotAllowed table f.name)
    else
      (missingColumns table (some f.name) (f.name :: present) fs).map
        (.addColumn table f predecessor :: ·)

/-- The keys to add. -/
def missingKeys (table : String) (kind : KeyKind) (live : LiveKeys) (keys : List Key) :
    List TableChange :=
  (keys.filter fun k => !live.contains k.name).map (.addKey table kind)

/-- What is missing from an existing table. -/
def additions (schema : Schema) (options : TableOptions) (live : LiveTable) :
    Except Error (List TableChange) := do
  let columns ← missingColumns options.tableName none (live.fields.map (·.name)) schema.fields
  return columns ++ missingKeys options.tableName .index live.keys options.indexes ++
    missingKeys options.tableName .unique live.keys options.uniques

/-- The plan for a table that may exist. -/
def make (schema : Schema) (options : TableOptions) (defaults : TableDefaults) :
    Option LiveTable → Except Error SchemaPlan
  | none => .ok ⟨false, [.create (.ofSchema schema options defaults)]⟩
  | some live => (additions schema options live).map (⟨true, ·⟩)

/-- The statements of a plan. -/
def statements (p : SchemaPlan) : List String :=
  p.changes.map TableChange.text

end SchemaPlan

end TableMapper
