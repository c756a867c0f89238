import TableMapper.Proofs.BatchRows
import TableMapper.Proofs.ColumnOrder
import TableMapper.Proofs.SchemaDerivation

/-!
# Columns of one name

Records that are embedded bring their columns with them, and nothing keeps two of these
from having one name.  A new table and a plain insert go through the fields by their
positions and name such a column once for each; an existing table is completed name by
name, so that it is added once.  This file says which names each of the three has, and
that the two ways to a table agree exactly where names differ.

* `Batch.names_sublist`, `Batch.names_of_complete` — the columns of a plain insert;
* `nodup_addedNames`, `mem_addedNames_iff` — the columns that are added;
* `columns_repeat_as_members` — all three beside the members they come from.
-/

namespace TableMapper

namespace Batch

variable {place : Nat} {f : Field} {v : Value}

/-- The name of a field that a plain insert can write. -/
def writtenName (f : Field) : List String :=
  if f.autoIncrement then [] else [f.name]

/-- What is written of one field has no other name than the field. -/
theorem name_placedAt (place : Nat) (f : Field) (v : Value) :
    ((placedAt place f v).toList.map (·.field.name)).Sublist (writtenName f) := by
  rw [placedAt, writtenName]
  cases f.autoIncrement with
  | true => exact .slnil
  | false => cases f.literal v <;> simp [Except.toOption]

/-- A value that has a literal is written unless its field counts up. -/
theorem name_placedAt_of_literal {l : Literal} (hl : f.literal v = .ok l) :
    (placedAt place f v).toList.map (·.field.name) = writtenName f := by
  rw [placedAt, writtenName, hl]
  cases f.autoIncrement <;> rfl

/-- A plain insert names no column that counts up, and no other one more often than there
are fields of its name. -/
theorem names_sublist (place : Nat) (fields : List Field) (values : List Value) :
    ((placedFrom place fields values).map (·.field.name)).Sublist
      (fields.flatMap writtenName) := by
  induction fields generalizing place values with
  | nil => exact .slnil
  | cons f fields ih =>
      cases values with
      | nil => exact List.nil_sublist _
      | cons v values =>
          rw [placedFrom_cons, List.map_append, List.flatMap_cons]
          exact (name_placedAt place f v).append (ih (place + 1) values)

/-- A record that has a literal for every field is written in all columns that can be. -/
theorem names_of_complete {fields : List Field} {values : List Value}
    (h : List.Forall₂ (fun f v => ∃ l, f.literal v = .ok l) fields values) :
    (placedFrom place fields values).map (·.field.name) = fields.flatMap writtenName := by
  induction h generalizing place with
  | nil => rfl
  | cons hfirst _ ih =>
      obtain ⟨l, hl⟩ := hfirst
      rw [placedFrom_cons, List.map_append, List.flatMap_cons, name_placedAt_of_literal hl, ih]

/-- What a plain insert can write of fields are the columns that do not count up. -/
theorem writtenNames_of_derived {cs : List Column} {fs : List Field}
    (h : List.Forall₂ Field.Derived cs fs) :
    fs.flatMap writtenName = (cs.filter fun c => decide ¬c.Counts).map Column.name := by
  induction h with
  | nil => rfl
  | @cons c f cs fs hf _ ih =>
      rw [List.flatMap_cons, ih, writtenName, List.filter_cons]
      by_cases hcounts : c.Counts
      · simp [hcounts, hf.counts_iff.mpr hcounts]
      · have hauto : f.autoIncrement = false := by simpa using mt hf.counts_iff.mp hcounts
        simp [hcounts, hauto, hf.same_name]

end Batch

/-- The names of the columns that changes add. -/
def addedNames (changes : List TableChange) : List String :=
  (changes.filterMap TableChange.addedColumn?).map (·.name)

section Walk

variable {table : String} {predecessor : Option String} {present : List String}
  {fs : List Field} {changes : List TableChange}

/-- The walk adds the names that are not there. -/
theorem mem_walk_iff
    (h : SchemaPlan.missingColumns table predecessor present fs = .ok changes) {n : String} :
    n ∈ addedNames changes ↔ n ∈ fs.map (·.name) ∧ n ∉ present := by
  induction fs generalizing predecessor present changes with
  | nil =>
      cases h
      simp [addedNames]
  | cons f fs ih =>
      rw [List.map_cons, List.mem_cons]
      rcases missingColumns_cons_ok h with ⟨hpresent, hrest⟩ | ⟨hmissing, rest, hrest, rfl⟩
      · rw [ih hrest, or_and_right]
        refine (or_iff_right ?_).symm
        rintro ⟨rfl, hn⟩
        exact hn hpresent
      · have hcons : addedNames (.addColumn table f predecessor :: rest) =
            f.name :: addedNames rest := rfl
        rw [hcons, List.mem_cons, ih hrest, List.mem_cons, not_or]
        constructor
        · rintro (rfl | ⟨hn, _, hnew⟩)
          · exact ⟨.inl rfl, hmissing⟩
          · exact ⟨.inr hn, hnew⟩
        · rintro ⟨hn, hnew⟩
          by_cases heq : n = f.name
          · exact .inl heq
          · exact .inr ⟨hn.resolve_left heq, heq, hnew⟩

/-- No name is added twice, since a name that has been added is there from then on. -/
theorem nodup_walk (h : SchemaPlan.missingColumns table predecessor present fs = .ok changes) :
    (addedNames changes).Nodup := by
  induction fs generalizing predecessor present changes with
  | nil =>
      cases h
      exact .nil
  | cons f fs ih =>
      rcases missingColumns_cons_ok h with ⟨_, hrest⟩ | ⟨_, rest, hrest, rfl⟩
      · exact ih hrest
      · refine List.nodup_cons.mpr ⟨?_, ih hrest⟩
        intro hmem
        exact ((mem_walk_iff hrest).mp hmem).2 List.mem_cons_self

end Walk

section Added

variable {schema : Schema} {options : TableOptions} {live : LiveTable}
  {changes : List TableChange}

/-- What is added is what the schema names and the live table has not. -/
theorem mem_addedNames_iff (h : SchemaPlan.additions schema options live = .ok changes)
    {n : String} :
    n ∈ addedNames changes ↔ n ∈ schema.names ∧ n ∉ live.fields.map (·.name) := by
  obtain ⟨columns, hcolumns, hadded⟩ := exists_addedColumns h
  rw [addedNames, hadded]
  exact mem_walk_iff hcolumns

/-- No column is added twice. -/
theorem nodup_addedNames (h : SchemaPlan.additions schema options live = .ok changes) :
    (addedNames changes).Nodup := by
  obtain ⟨columns, hcolumns, hadded⟩ := exists_addedColumns h
  rw [addedNames, hadded]
  exact nodup_walk hcolumns

/-- A table whose columns have different names, all of them names of the record type, has
these names once each when what is missing has been added. -/
theorem names_of_completed {final : List Field}
    (hcompleted : Completed none schema.fields live.fields final)
    (hlive : (live.fields.map (·.name)).Nodup)
    (hknown : ∀ n ∈ live.fields.map (·.name), n ∈ schema.names) :
    (final.map (·.name)).Nodup ∧ ∀ n, n ∈ final.map (·.name) ↔ n ∈ schema.names := by
  refine ⟨hcompleted.nodup_names hlive, ?_⟩
  intro n
  rw [hcompleted.mem_names]
  exact or_iff_right_of_imp (hknown n)

end Added

/-- **Columns repeat as members do.**  A new table defines one column for each column of
the record type, embedded ones in their place, and a plain insert of a record that has all
literals names each of them that does not count up; a name that is there twice is there
twice in both.  To an existing table each missing name is added once.  So a table of known
names that is completed has the names of a new one exactly if they all differ. -/
theorem columns_repeat_as_members {ms : List Member} {schema : Schema}
    (hschema : Schema.ofMembers ms = .ok schema) (options : TableOptions)
    (defaults : TableDefaults) :
    (Creation.ofSchema schema options defaults).fields.map (·.name) =
      (Member.columns ms).map Column.name ∧
    (∃ keys, (Creation.ofSchema schema options defaults).clauses =
      schema.fields.map Field.definition ++ keys) ∧
    (∀ table values, ∃ columns row,
      Statement.ofInsert schema table values = .insert table ⟨columns, [row]⟩ ∧
      columns.Sublist
        (((Member.columns ms).filter fun c => decide ¬c.Counts).map Column.name) ∧
      (List.Forall₂ (fun f v => ∃ l, f.literal v = .ok l) schema.fields values →
        columns = ((Member.columns ms).filter fun c => decide ¬c.Counts).map Column.name)) ∧
    ∀ live changes, SchemaPlan.additions schema options live = .ok changes →
      (addedNames changes).Nodup ∧
      (∀ n, n ∈ addedNames changes ↔
        n ∈ (Member.columns ms).map Column.name ∧ n ∉ live.fields.map (·.name)) ∧
      ∃ final, runColumns? live.fields changes = some final ∧
        ((live.fields.map (·.name)).Nodup →
          (∀ n ∈ live.fields.map (·.name), n ∈ (Member.columns ms).map Column.name) →
          (((Member.columns ms).map Column.name).Perm (final.map (·.name)) ↔
            ((Member.columns ms).map Column.name).Nodup)) := by
  have hderived := Schema.forall₂_derived (Schema.fields_ofMembers hschema)
  rw [← Batch.writtenNames_of_derived hderived, ← Schema.names_ofMembers hschema]
  refine ⟨rfl, ⟨_, by rw [Creation.clauses, List.append_assoc, List.append_assoc]; rfl⟩, ?_, ?_⟩
  · intro table values
    exact ⟨_, _, rfl, Batch.names_sublist 0 schema.fields values, Batch.names_of_complete⟩
  · intro live changes hchanges
    obtain ⟨final, hrun, hcompleted⟩ := exists_runColumns?_additions hchanges
    refine ⟨nodup_addedNames hchanges, fun n => mem_addedNames_iff hchanges, final, hrun, ?_⟩
    intro hlive hknown
    obtain ⟨hnodup, hnames⟩ := names_of_completed hcompleted hlive hknown
    constructor
    · intro hperm
      exact hperm.nodup_iff.mpr hnodup
    · intro hdiffer
      exact (List.perm_ext_iff_of_nodup hdiffer hnodup).mpr fun n => (hnames n).symm

/-- A post with its version, in which a text with its own version is embedded. -/
def postMembers : List Member :=
  [.column ⟨"id", ⟨.integer false .w64, false⟩, { increment := true }⟩,
    .column ⟨"version", ⟨.integer true .w32, false⟩, {}⟩,
    .embedded "text" [.column ⟨"version", ⟨.integer true .w32, false⟩, {}⟩]]

/-- The schema of a post. -/
def postSchema : Schema where
  fields :=
    [⟨"id", "bigint unsigned", false, "0", true, "", none⟩,
      ⟨"version", "int", false, "0", false, "", none⟩,
      ⟨"version", "int", false, "0", false, "", none⟩]
  increment_le_one := by decide

/-- A table of posts without versions. -/
def oldPosts : LiveTable where
  fields := [⟨"id", "bigint(20) unsigned", false, "NULL", true, "", none⟩]
  keys := {}

/-- The table of posts is completed to one that has each name once, which is not what a
new one has. -/
theorem columns_repeat_as_members_posts :
    Schema.ofMembers postMembers = .ok postSchema ∧ ∃ changes final,
      SchemaPlan.additions postSchema { tableName := "posts" } oldPosts = .ok changes ∧
        runColumns? oldPosts.fields changes = some final ∧ (addedNames changes).Nodup ∧
        ¬((Member.columns postMembers).map Column.name).Perm (final.map (·.name)) := by
  have hschema : Schema.ofMembers postMembers = .ok postSchema := rfl
  obtain ⟨changes, hchanges⟩ : ∃ changes,
      SchemaPlan.additions postSchema { tableName := "posts" } oldPosts = .ok changes := ⟨_, rfl⟩
  obtain ⟨_, _, _, hadditions⟩ := columns_repeat_as_members hschema { tableName := "posts" } {}
  obtain ⟨hadded, _, final, hrun, hsame⟩ := hadditions oldPosts changes hchanges
  refine ⟨hschema, changes, final, hchanges, hrun, hadded, ?_⟩
  rw [hsame (by decide) (by decide)]
  decide

/-- A new table of posts and a plain insert name one column twice; to the old table it is
added once. -/
theorem version_named_twice :
    Schema.ofMembers postMembers = .ok postSchema ∧
      ¬((Creation.ofSchema postSchema { tableName := "posts" } {}).fields.map (·.name)).Nodup ∧
      (∃ batch, Statement.ofInsert postSchema "posts" [.unsigned 0, .int 1, .int 1] =
        .insert "posts" batch ∧ ¬batch.columns.Nodup) ∧
      ∃ changes, SchemaPlan.additions postSchema { tableName := "posts" } oldPosts = .ok changes ∧
        addedNames changes = ["version"] :=
  ⟨rfl, by decide, ⟨_, rfl, by decide⟩, _, rfl, rfl⟩

end TableMapper
