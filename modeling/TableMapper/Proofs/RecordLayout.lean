import Mathlib.Data.List.Forall2
import TableMapper.Derive.Expansion
import TableMapper.Proofs.ColumnContent
import TableMapper.Proofs.SchemaDerivation
import TableMapper.RecordType

/-!
# Layouts of records

A layout is a record type with the type of what a record keeps in each member, so
that a record is a nested tuple.  Three walks go through it, one that lists the fields
of the schema, one that lists the values of a record, and one that reads a record from
a row by the names of its columns.  This file says that they visit the same columns in
the same order, however deep records are embedded, and that a record which is written
into a row is read back from it.

* `Layout`, `Layout.Record` — the shape of a record type, and its records;
* `Layout.leaves` — the columns of a record with their contents;
* `Layout.columns_members`, `Layout.values_cells` — fields and values come from the
  leaves;
* `Layout.read_members` — what is read as cells is a record read as such;
* `Layout.read_eq` — a row with the values of a record is read as this record;
* `record_roundTrip` — the law of the three walks;
* `Derive.exists_layout` — the code that is generated for a declared type has a layout.
-/

namespace TableMapper

/-- A member of a record type with what a record keeps in it. -/
inductive Layout : Type 1
  | column (c : Column)
  | embedded (name : String) (parts : List Layout)
  /-- A member that is not stored; where it is read it has its default. -/
  | skipped (name : String) (Kept : Type) (default : Kept)

/-- A column with what a record holds in it. -/
structure Leaf where
  column : Column
  content : column.storage.Content

/-- What is stored of a leaf. -/
def Leaf.value (l : Leaf) : Value :=
  l.column.storage.toValue l.content

namespace Layout

mutual

/-- The member that is laid out. -/
def member : Layout → Member
  | column c => .column c
  | embedded name parts => .embedded name (members parts)
  | skipped name _ _ => .skipped name

/-- The members that are laid out. -/
def members : List Layout → List Member
  | [] => []
  | l :: ls => l.member :: members ls

end

mutual

/-- What a record keeps in one member. -/
def Part : Layout → Type
  | column c => c.storage.Content
  | embedded _ parts => Record parts
  | skipped _ Kept _ => Kept

/-- The records of a layout. -/
def Record : List Layout → Type
  | [] => Unit
  | l :: ls => l.Part × Record ls

end

mutual

/-- The cell of one member. -/
def cell : (l : Layout) → l.Part → Cell
  | column c, x => .value (c.storage.toValue x)
  | embedded _ parts, r => .embedded (cells parts r)
  | skipped _ _ _, _ => .skipped

/-- The cells of a record. -/
def cells : (ls : List Layout) → Record ls → List Cell
  | [], _ => []
  | l :: ls, (part, r) => l.cell part :: cells ls r

end

mutual

/-- One member of the record that a row holds. -/
def readPart (row : Row) : (l : Layout) → Except Error l.Part
  | column c => row.content c.storage c.name
  | embedded _ parts => read row parts
  | skipped _ _ default => .ok default

/-- The record that a row holds; the first member that cannot be read decides the
error. -/
def read (row : Row) : (ls : List Layout) → Except Error (Record ls)
  | [] => .ok ()
  | l :: ls => do
    let part ← l.readPart row
    let r ← read row ls
    return (part, r)

end

mutual

/-- One member with its skipped parts as they are read. -/
def resetPart : (l : Layout) → l.Part → l.Part
  | column _, x => x
  | embedded _ parts, r => reset parts r
  | skipped _ _ default, _ => default

/-- A record with its skipped members as they are read. -/
def reset : (ls : List Layout) → Record ls → Record ls
  | [], r => r
  | l :: ls, (part, r) => (l.resetPart part, reset ls r)

end

mutual

/-- The leaves of one member. -/
def leavesOf : (l : Layout) → l.Part → List Leaf
  | column c, x => [⟨c, x⟩]
  | embedded _ parts, r => leaves parts r
  | skipped _ _ _, _ => []

/-- The columns of a record with their contents, embedded ones in their place. -/
def leaves : (ls : List Layout) → Record ls → List Leaf
  | [], _ => []
  | l :: ls, (part, r) => l.leavesOf part ++ leaves ls r

end

mutual

/-- The columns of a member are those of the leaves of any part of it. -/
theorem columnsOf_member : ∀ (l : Layout) (part : l.Part),
    l.member.columnsOf = (l.leavesOf part).map Leaf.column
  | column _, _ => rfl
  | embedded _ parts, r => columns_members parts r
  | skipped _ _ _, _ => rfl

/-- The columns of a record type are those of its leaves. -/
theorem columns_members : ∀ (ls : List Layout) (r : Record ls),
    Member.columns (members ls) = (leaves ls r).map Leaf.column
  | [], _ => rfl
  | l :: ls, (part, r) => by
      have hfirst := columnsOf_member l part
      have hrest := columns_members ls r
      rw [members, Member.columns, leaves, List.map_append, hfirst, hrest]

end

mutual

/-- The values of a part are those of its leaves. -/
theorem valuesOf_cell : ∀ (l : Layout) (part : l.Part),
    (l.cell part).valuesOf = (l.leavesOf part).map Leaf.value
  | column _, _ => rfl
  | embedded _ parts, r => values_cells parts r
  | skipped _ _ _, _ => rfl

/-- The values of a record are those of its leaves. -/
theorem values_cells : ∀ (ls : List Layout) (r : Record ls),
    Cell.values (cells ls r) = (leaves ls r).map Leaf.value
  | [], _ => rfl
  | l :: ls, (part, r) => by
      have hfirst := valuesOf_cell l part
      have hrest := values_cells ls r
      rw [cells, Cell.values, leaves, List.map_append, hfirst, hrest]

end

mutual

/-- A member reads a row into the cell of the part that the layout reads. -/
theorem readCell_member (row : Row) : ∀ l : Layout,
    l.member.readCell row = (l.readPart row).map l.cell
  | column c => by
      have hread := row.read_eq c.storage c.name
      change (row.read c.storage c.name).map Cell.value =
        (row.content c.storage c.name).map fun x => Cell.value (c.storage.toValue x)
      rw [hread]
      cases row.content c.storage c.name <;> rfl
  | embedded _ parts => by
      have hread := read_members row parts
      change (Member.read row (members parts)).map Cell.embedded =
        (read row parts).map fun r => Cell.embedded (cells parts r)
      rw [hread]
      cases read row parts <;> rfl
  | skipped _ _ _ => rfl

/-- What is read as cells is the record that is read, as cells. -/
theorem read_members (row : Row) : ∀ ls : List Layout,
    Member.read row (members ls) = (read row ls).map (cells ls)
  | [] => rfl
  | l :: ls => by
      have hfirst := readCell_member row l
      have hrest := read_members row ls
      rw [members, Member.read, hfirst, hrest, read]
      cases l.readPart row with
      | error e => rfl
      | ok part => cases read row ls <;> rfl

end

mutual

/-- A row with the values of a record is read as this record. -/
theorem readPart_eq {row : Row} : ∀ (l : Layout) (part : l.Part),
    (∀ leaf ∈ l.leavesOf part, row.get? leaf.column.name = some leaf.value) →
      l.readPart row = .ok (l.resetPart part)
  | column c, x, h => Row.content_of_get? (h ⟨c, x⟩ (List.mem_singleton_self _))
  | embedded _ parts, r, h => read_eq parts r h
  | skipped _ _ _, _, _ => rfl

/-- A row that holds the value of every leaf gives the record with its skipped members
reset. -/
theorem read_eq {row : Row} : ∀ (ls : List Layout) (r : Record ls),
    (∀ leaf ∈ leaves ls r, row.get? leaf.column.name = some leaf.value) →
      read row ls = .ok (reset ls r)
  | [], _, _ => rfl
  | l :: ls, (part, r), h => by
      have hfirst := readPart_eq l part fun leaf hleaf => h leaf (List.mem_append_left _ hleaf)
      have hrest := read_eq ls r fun leaf hleaf => h leaf (List.mem_append_right _ hleaf)
      rw [read, hfirst, hrest]
      rfl

end

end Layout

/-- A column of a row is found by its name where no other column has this name. -/
theorem Row.get?_of_nodup {α : Type} {name : α → String} {value : α → Value} {l : List α}
    (hnames : (l.map name).Nodup) :
    ∀ a ∈ l, (⟨(l.map name).zip (l.map value)⟩ : Row).get? (name a) = some (value a) := by
  induction l with
  | nil => exact fun a ha => absurd ha List.not_mem_nil
  | cons b l ih =>
      obtain ⟨hnew, hrest⟩ := List.nodup_cons.mp hnames
      intro a ha
      rw [get?, List.map_cons, List.map_cons, List.zip_cons_cons, List.find?_cons]
      rcases List.mem_cons.mp ha with rfl | ha
      · rw [beq_self_eq_true]
        rfl
      · have hother : name b ≠ name a := by
          intro heq
          exact hnew (heq ▸ List.mem_map_of_mem ha)
        rw [beq_false_of_ne hother]
        exact ih hrest a ha

section RoundTrip

variable {ls : List Layout} {schema : Schema}
  (hschema : Schema.ofMembers (Layout.members ls) = .ok schema) (r : Layout.Record ls)

include hschema

/-- The fields of a schema stand beside the leaves of a record. -/
theorem Schema.fields_leaves :
    List.Forall₂ (fun leaf field => Field.ofColumn leaf.column = .ok field)
      (Layout.leaves ls r) schema.fields := by
  have hfields := Schema.fields_ofMembers hschema
  rw [Layout.columns_members ls r] at hfields
  exact List.forall₂_map_left_iff.mp (forall₂_of_mapM hfields)

/-- The names of a schema are those of the leaves, in order. -/
theorem Schema.names_leaves :
    schema.names = (Layout.leaves ls r).map fun leaf => leaf.column.name := by
  rw [Schema.names_ofMembers hschema, Layout.columns_members ls r, List.map_map]
  rfl

/-- A schema has one field for each leaf. -/
theorem Schema.length_leaves : (Layout.leaves ls r).length = schema.fields.length :=
  (Schema.fields_leaves hschema r).length_eq

/-- A record has as many values as there are fields, so that they are not refused. -/
theorem Schema.values_leaves :
    schema.values (Layout.cells ls r) = .ok ((Layout.leaves ls r).map Leaf.value) := by
  have hcount : (Cell.values (Layout.cells ls r)).length = schema.fields.length := by
    rw [Layout.values_cells, List.length_map, Schema.length_leaves hschema r]
  have hvalues : schema.values (Layout.cells ls r) = .ok (Cell.values (Layout.cells ls r)) :=
    if_pos hcount
  rw [hvalues, Layout.values_cells]

/-- The field of a place is derived from the column of the leaf at that place. -/
theorem Schema.field_of_leaf {k : Nat} {leaf : Leaf}
    (hleaf : (Layout.leaves ls r)[k]? = some leaf) :
    ∃ field, schema.fields[k]? = some field ∧ Field.ofColumn leaf.column = .ok field := by
  obtain ⟨hk, rfl⟩ := List.getElem?_eq_some_iff.mp hleaf
  have hfields := Schema.fields_leaves hschema r
  have hk' : k < schema.fields.length := by
    rw [← hfields.length_eq]
    exact hk
  exact ⟨schema.fields[k], List.getElem?_eq_getElem hk', hfields.get hk hk'⟩

/-- A record is read from the row with the columns of the schema and its values. -/
theorem Layout.read_leaves (hnames : schema.names.Nodup) :
    Layout.read ⟨schema.names.zip ((Layout.leaves ls r).map Leaf.value)⟩ ls =
      .ok (Layout.reset ls r) := by
  have hleaves := Schema.names_leaves hschema r
  rw [hleaves] at hnames ⊢
  exact Layout.read_eq ls r (Row.get?_of_nodup hnames)

end RoundTrip

/-- **Records, columns and rows stay in line.**  Of a record type whose schema can be
derived and whose columns have different names, every record has a value for each field,
and value and field of one place come from one leaf.  The row with these columns and
values is read as the record itself, up to the members that are not stored, which have
their defaults. -/
theorem record_roundTrip {ls : List Layout} {schema : Schema}
    (hschema : Schema.ofMembers (Layout.members ls) = .ok schema) (hnames : schema.names.Nodup)
    (r : Layout.Record ls) :
    ∃ values, schema.values (Layout.cells ls r) = .ok values ∧
      schema.fields.length = (Layout.leaves ls r).length ∧
      values.length = (Layout.leaves ls r).length ∧
      (∀ (k : Nat) (leaf : Leaf), (Layout.leaves ls r)[k]? = some leaf →
        ∃ field, schema.fields[k]? = some field ∧ Field.ofColumn leaf.column = .ok field ∧
          values[k]? = some leaf.value) ∧
      Layout.read ⟨schema.names.zip values⟩ ls = .ok (Layout.reset ls r) ∧
      Member.read ⟨schema.names.zip values⟩ (Layout.members ls) =
        .ok (Layout.cells ls (Layout.reset ls r)) := by
  have hvalues := Schema.values_leaves hschema r
  have hlength := Schema.length_leaves hschema r
  have hread := Layout.read_leaves hschema r hnames
  refine ⟨_, hvalues, hlength.symm, List.length_map _, ?_, hread, ?_⟩
  · intro k leaf hleaf
    obtain ⟨field, hfield, hof⟩ := Schema.field_of_leaf hschema r hleaf
    have hvalue : ((Layout.leaves ls r).map Leaf.value)[k]? = some leaf.value := by
      rw [List.getElem?_map, hleaf, Option.map_some]
    exact ⟨field, hfield, hof, hvalue⟩
  · rw [Layout.read_members, hread]
    rfl

/-- A station: a counted id, its place as an embedded record, the visits of today, which
are not stored, and whether it is open. -/
def stationLayout : List Layout :=
  [.column ⟨"id", ⟨.integer false .w64, false⟩, { increment := true }⟩,
    .embedded "place"
      [.column ⟨"latitude", ⟨.float false, false⟩, { sqlType := some "double" }⟩,
        .column ⟨"height", ⟨.float true, false⟩, { sqlType := some "float" }⟩,
        .column ⟨"town", ⟨.text, true⟩, { sqlType := some "varchar(40)" }⟩],
    .skipped "visits" Nat 0,
    .column ⟨"is_open", ⟨.bool, false⟩, {}⟩]

/-- The schema of a station. -/
def stationSchema : Schema where
  fields :=
    [⟨"id", "bigint unsigned", false, "0", true, "", none⟩,
      ⟨"latitude", "double", false, "0", false, "", none⟩,
      ⟨"height", "float", false, "0", false, "", none⟩,
      ⟨"town", "varchar(40)", true, "NULL", false, "", none⟩,
      ⟨"is_open", "boolean", false, "FALSE", false, "", none⟩]
  increment_le_one := by decide

/-- A station with a number of visits. -/
def station (visits : Nat) : Layout.Record stationLayout :=
  (⟨7, by decide⟩,
    (⟨.ofInt .double 60, Format.has_double _⟩,
      ⟨.ofInt .single 1580, Format.has_ofInt Format.within_single 1580⟩, some "Finse", ()),
    visits, true, ())

/-- A record with an embedded part and a skipped member comes back with the skipped one
reset. -/
theorem record_roundTrip_station :
    Schema.ofMembers (Layout.members stationLayout) = .ok stationSchema ∧
      stationSchema.names.Nodup ∧
      ∃ values, stationSchema.values (Layout.cells stationLayout (station 3)) = .ok values ∧
        Layout.read ⟨stationSchema.names.zip values⟩ stationLayout = .ok (station 0) := by
  have hschema : Schema.ofMembers (Layout.members stationLayout) = .ok stationSchema := rfl
  have hnames : stationSchema.names.Nodup := by decide
  obtain ⟨values, hvalues, _, _, _, hread, _⟩ := record_roundTrip hschema hnames (station 3)
  exact ⟨hschema, hnames, values, hvalues, hread⟩

namespace Derive

/-- What the types of a declaration stand for: the storage of a column, the parts of an
embedded record, and what a field that is not stored keeps, with its default. -/
structure TypeMeaning where
  storage : List Token → Storage
  parts : List Token → List Layout
  Kept : String → Type
  default : (field : String) → Kept field

/-- The three pieces of code for a field are those of one part of a layout.  The column
is declared and read under one name, and the field that is written is the one that is
read. -/
inductive FieldCode.Stands (m : TypeMeaning) : FieldCode → Layout → Prop
  | column (type : List Token) (name field : String) (settings : List Annotations.Setting) :
      Stands m ⟨.column type name settings, .value field, .column field type name⟩
        (.column ⟨name, m.storage type, .ofSettings settings⟩)
  | embedded (type : List Token) (name field : String) :
      Stands m ⟨.embedded type name, .embedded field, .embedded field type⟩
        (.embedded name (m.parts type))
  | skipped (name field : String) :
      Stands m ⟨.skipped name, .skipped, .default field⟩
        (.skipped name (m.Kept field) (m.default field))

/-- Every declared field stands for some layout, in every meaning of its types. -/
theorem FieldCode.exists_stands (m : TypeMeaning) (f : DeclaredField) (s : FieldSettings) :
    ∃ l, Stands m (.of f s) l := by
  unfold of
  by_cases hskip : s.skip = true
  · rw [if_pos hskip]
    exact ⟨_, .skipped _ _⟩
  · rw [if_neg hskip]
    by_cases hembed : s.embed = true
    · rw [if_pos hembed]
      exact ⟨_, .embedded _ _ _⟩
    · rw [if_neg hembed]
      exact ⟨_, .column _ _ _ _⟩

/-- The code that is generated for fields has a layout, whatever their types stand for. -/
theorem exists_layout (m : TypeMeaning) {fields : List DeclaredField} {codes : List FieldCode}
    (h : expandFields fields = .ok codes) :
    ∃ ls, List.Forall₂ (FieldCode.Stands m) codes ls := by
  induction fields generalizing codes with
  | nil =>
      cases h
      exact ⟨[], .nil⟩
  | cons f fs ih =>
      obtain ⟨s, _, h⟩ := bind_eq_ok.mp h
      obtain ⟨rest, hrest, h⟩ := bind_eq_ok.mp h
      cases h
      obtain ⟨l, hl⟩ := FieldCode.exists_stands m f s
      obtain ⟨ls, hls⟩ := ih hrest
      exact ⟨l :: ls, .cons hl hls⟩

end Derive

end TableMapper
