import TableMapper.RecordType

/-!
# Registries

A registry keeps the schema of each record type once it has been derived, and
the names of the tables that are known to exist.  A call for a schema has two
steps, between which other calls may run: it looks the schema up, and where it
has had to derive one it stores it, unless another call was faster.

* `SchemaCall.step` — one step of a call;
* `Registry.schema` — a call on its own;
* `Registry.markCreated`, `Registry.isCreated` — the known tables.
-/

namespace TableMapper

/-- The names of tables that are known to exist. -/
structure KnownTables where
  tables : Dict Unit := .empty
  deriving DecidableEq, Repr

/-- Whether a table is known to exist. -/
def KnownTables.contains (k : KnownTables) (table : String) : Bool :=
  k.tables.contains table

/-- One more table known to exist. -/
def KnownTables.insert (k : KnownTables) (table : String) : KnownTables :=
  ⟨k.tables.insert table ()⟩

/-- A derived schema; no two derivations have the same serial number. -/
structure SchemaObject where
  serial : Nat
  schema : Schema
  deriving DecidableEq, Repr

/-- The schemas of record types, told apart by their number, and the known
tables. -/
structure Registry where
  cached : List (Nat × SchemaObject) := []
  derived : Nat := 0
  known : KnownTables := {}
  deriving DecidableEq, Repr

namespace Registry

/-- The schema kept for a record type. -/
def find? (r : Registry) (type : Nat) : Option SchemaObject :=
  (r.cached.find? (·.1 == type)).map (·.2)

/-- The schema that is kept for a record type once `o` was offered: the first one
stays. -/
def offer (r : Registry) (type : Nat) (o : SchemaObject) : SchemaObject × Registry :=
  match r.find? type with
  | some kept => (kept, r)
  | none => (o, { r with cached := r.cached ++ [(type, o)] })

/-- The number of schemas kept. -/
def size (r : Registry) : Nat :=
  r.cached.length

/-- Whether a table is known to exist. -/
def isCreated (r : Registry) (table : String) : Bool :=
  r.known.contains table

/-- One more table known to exist. -/
def markCreated (r : Registry) (table : String) : Registry :=
  { r with known := r.known.insert table }

end Registry

/-- A call for the schema of a record type: not begun, with a schema of its own
to offer, or answered. -/
inductive SchemaCall
  | begun
  | offering (o : SchemaObject)
  | answered (result : Except Error SchemaObject)

/-- One step of a call for the schema of `t`, whose number is `type`. -/
def SchemaCall.step (type : Nat) (t : RecordType) (r : Registry) :
    SchemaCall → SchemaCall × Registry
  | begun =>
    match r.find? type with
    | some kept => (answered (.ok kept), r)
    | none =>
      match t.schema with
      | .ok schema => (offering ⟨r.derived, schema⟩, { r with derived := r.derived + 1 })
      | .error e => (answered (.error e), r)
  | offering o =>
    let (kept, r) := r.offer type o
    (answered (.ok kept), r)
  | answered result => (answered result, r)

/-- The schema of `t`, whose number is `type`, asked for by a call that no other
one interrupts. -/
def Registry.schema (r : Registry) (type : Nat) (t : RecordType) :
    Except Error Schema × Registry :=
  let (call, r) := SchemaCall.begun.step type t r
  match call.step type t r with
  | (.answered result, r) => (result.map (·.schema), r)
  | (_, r) => (t.schema, r)

end TableMapper
