import TableMapper.Proofs.CreationOptions
import TableMapper.Proofs.SchemaDerivation
import TableMapper.Proofs.StatementTarget

/-!
# The column that counts up

The column that counts up is the primary key of its table, and the database takes no
primary key that may be null.  A new table names the key once and defines the column
without a default; but whether the column may be null is decided as for every other one,
by its annotation or else by its storage.  This file says what a new table makes of the
column, and when the database takes it.

* `Column.MayBeNull` — a column for which nulls are allowed;
* `Field.definition_of_counts` — how the column is defined;
* `Creation.filter_namesKey` — the key is named once;
* `Creation.KeyWithoutNulls` — the database's condition on a new table;
* `counting_column` — the column in its table, and when the condition is met;
* `optional_key` — a column that is its table's key and may be null.
-/

namespace TableMapper

/-- A column for which nulls are allowed: its annotation says so or, where it says
nothing, the storage is optional. -/
def Column.MayBeNull (c : Column) : Prop :=
  c.annotations.nullable.getD c.storage.optional = true

instance (c : Column) : Decidable c.MayBeNull :=
  inferInstanceAs (Decidable (_ = _))

/-- No nulls are allowed if the annotation says so, or the storage where it says nothing. -/
theorem Column.not_mayBeNull_iff {c : Column} :
    ¬c.MayBeNull ↔ c.annotations.nullable = some false ∨
      c.annotations.nullable = none ∧ c.storage.optional = false := by
  rw [MayBeNull]
  cases c.annotations.nullable with
  | none => simp
  | some b => simp

namespace Field

/-- A column that counts up as a statement defines it, with `nulls` between its type and
the rest. -/
def countingDefinition (name sqlType nulls comment : String) : String :=
  Text.quoteName name ++ " " ++ sqlType ++ " " ++ nulls ++ " AUTO_INCREMENT COMMENT " ++
    Text.quote comment

/-- Definitions that differ in that place only are the same if they agree there. -/
theorem countingDefinition_inj {name sqlType nulls nulls' comment : String} :
    countingDefinition name sqlType nulls comment =
      countingDefinition name sqlType nulls' comment ↔ nulls = nulls' := by
  constructor
  · intro h
    have hlists := congrArg String.toList h
    simp only [countingDefinition, String.toList_append, List.append_left_inj,
      List.append_right_inj] at hlists
    exact String.toList_injective hlists
  · rintro rfl
    rfl

variable {c : Column} {f : Field}

/-- A field may be null exactly if its column may. -/
theorem nullable_ofColumn (h : ofColumn c = .ok f) : f.nullable = true ↔ c.MayBeNull := by
  obtain ⟨type, _, heq⟩ := bind_eq_ok.mp h
  cases heq
  rfl

/-- The definition depends on the annotation and on the storage of the column only as far
as these decide about nulls. -/
theorem definition_of_counts (h : Derived c f) (hcounts : c.Counts) :
    f.definition = countingDefinition c.name f.sqlType
      (if c.MayBeNull then "NULL" else "NOT NULL") f.comment := by
  have hauto : f.autoIncrement = true := h.counts_iff.mpr hcounts
  have hnulls := nullable_ofColumn h.of_column
  have hword : " AUTO_INCREMENT" ++ " COMMENT " = " AUTO_INCREMENT COMMENT " := by decide
  have hspace : (if f.nullable = true then " NULL" else " NOT NULL") =
      " " ++ if c.MayBeNull then "NULL" else "NOT NULL" := by
    split_ifs with hnull hmay hmay
    · decide
    · exact absurd (hnulls.mp hnull) hmay
    · exact absurd (hnulls.mpr hmay) hnull
    · decide
  rw [definition, hauto, h.same_name, countingDefinition, if_pos rfl, hspace, ← hword]
  simp only [String.append_assoc]

end Field

/-- A clause of a new table that names its primary key. -/
def namesKey (clause : String) : Bool :=
  Text.startsWith clause "PRIMARY KEY"

/-- The clause that names a column as the primary key. -/
def keyClause (name : String) : String :=
  "PRIMARY KEY (" ++ Text.quoteName name ++ ")"

/-- The clause for the key names it. -/
theorem namesKey_keyClause (name : String) : namesKey (keyClause name) = true := by
  have hfront : "PRIMARY KEY (".toList = "PRIMARY KEY".toList ++ " (".toList := by decide
  rw [namesKey, startsWith_iff, keyClause, String.toList_append, String.toList_append, hfront,
    List.append_assoc, List.append_assoc]
  exact ⟨_, rfl⟩

/-- A clause that begins otherwise does not. -/
theorem namesKey_of_head {clause : String} (h : clause.toList.head? ≠ some 'P') :
    namesKey clause = false := by
  refine Bool.eq_false_iff.mpr fun hnames => ?_
  obtain ⟨rest, hrest⟩ := startsWith_iff.mp hnames
  rw [hrest] at h
  exact h rfl

/-- No definition of a column names the primary key. -/
theorem namesKey_definition (f : Field) : namesKey f.definition = false := by
  apply namesKey_of_head
  simp [Field.definition, Text.quoteName]

/-- No other key is taken for the primary one. -/
theorem namesKey_declaration (kind : KeyKind) (k : Key) :
    namesKey (kind.declaration ++ k.text) = false := by
  apply namesKey_of_head
  cases kind <;> simp [KeyKind.declaration]

namespace Creation

/-- Among the clauses of a new table only the one for its primary key names one. -/
theorem filter_namesKey (t : Creation) :
    t.clauses.filter namesKey = t.primary.toList.map keyClause := by
  have hnone {α : Type} (l : List α) (clause : α → String)
      (h : ∀ a, namesKey (clause a) = false) : (l.map clause).filter namesKey = [] := by
    rw [List.filter_eq_nil_iff, List.forall_mem_map]
    intro a _
    rw [h a]
    exact Bool.false_ne_true
  have hkey : (t.primary.toList.map keyClause).filter namesKey =
      t.primary.toList.map keyClause := by
    rw [List.filter_eq_self, List.forall_mem_map]
    exact fun name _ => namesKey_keyClause name
  rw [clauses, List.filter_append, List.filter_append, List.filter_append,
    hnone _ _ namesKey_definition, hnone _ _ (namesKey_declaration .index),
    hnone _ _ (namesKey_declaration .unique)]
  rw [List.nil_append, List.append_nil, List.append_nil]
  exact hkey

/-- What the database asks of the primary key of a new table: no column of its name is
one that may be null. -/
def KeyWithoutNulls (t : Creation) : Prop :=
  ∀ name ∈ t.primary, ∀ f ∈ t.fields, f.name = name → f.nullable = false

instance (t : Creation) : Decidable t.KeyWithoutNulls :=
  inferInstanceAs (Decidable (∀ name ∈ t.primary, _))

end Creation

/-- The field that counts up comes from the one column that does, at the same place. -/
theorem Schema.exists_counting {ms : List Member} {schema : Schema}
    (hschema : ofMembers ms = .ok schema) {f : Field} (hf : schema.increment? = some f) :
    ∃ before c after fs gs, Member.columns ms = before ++ c :: after ∧
      schema.fields = fs ++ f :: gs ∧ before.length = fs.length ∧ c.Counts ∧
      (∀ d ∈ before ++ after, ¬d.Counts) ∧ Field.Derived c f := by
  obtain ⟨hmem, hcounts⟩ := (increment?_eq_some_iff schema).mp hf
  obtain ⟨fs, gs, hfields⟩ := List.append_of_mem hmem
  have hderived := forall₂_derived (fields_ofMembers hschema)
  rw [hfields] at hderived
  have hbefore := List.forall₂_take_append _ _ _ hderived
  obtain ⟨c, after, hc, hafter, hdrop⟩ :=
    List.forall₂_cons_right_iff.mp (List.forall₂_drop_append _ _ _ hderived)
  have hcolumns : Member.columns ms = (Member.columns ms).take fs.length ++ c :: after := by
    rw [← hdrop, List.take_append_drop]
  have hc' : c.Counts := hc.counts_iff.mp hcounts
  refine ⟨_, c, after, fs, gs, hcolumns, hfields, hbefore.length_eq, hc', ?_, hc⟩
  have hone := (exists_ofMembers_iff.mp ⟨schema, hschema⟩).2
  rw [hcolumns] at hone
  obtain ⟨_, hrest, hcross⟩ := List.pairwise_append.mp hone
  intro d hd hcount
  rcases List.mem_append.mp hd with hd | hd
  · exact hcross d hd c List.mem_cons_self ⟨hcount, hc'⟩
  · exact (List.pairwise_cons.mp hrest).1 d hd ⟨hc', hcount⟩

/-- **The column that counts up.**  A record type with such a column has exactly one.  A
new table defines it at its place, without a default, and names it, and nothing else, as
its primary key.  It is defined as `NOT NULL` exactly if its annotation says so or, where
there is none, the storage is not optional; and where no other column has its name, these
are the tables that the database takes. -/
theorem counting_column {ms : List Member} {schema : Schema}
    (hschema : Schema.ofMembers ms = .ok schema) {f : Field} (hf : schema.increment? = some f)
    (options : TableOptions) (defaults : TableDefaults) :
    let t := Creation.ofSchema schema options defaults
    ∃ before c after, Member.columns ms = before ++ c :: after ∧ c.Counts ∧
      (∀ d ∈ before ++ after, ¬d.Counts) ∧
      (∃ tail, t.text = "CREATE TABLE IF NOT EXISTS " ++ Text.quoteName options.tableName ++
        " (\n" ++ ",\n".intercalate t.clauses ++ "\n)" ++ tail) ∧
      t.clauses.filter namesKey = [keyClause c.name] ∧
      t.clauses[before.length]? = some (Field.countingDefinition c.name f.sqlType
        (if c.MayBeNull then "NULL" else "NOT NULL") f.comment) ∧
      (t.clauses[before.length]? =
          some (Field.countingDefinition c.name f.sqlType "NOT NULL" f.comment) ↔
        c.annotations.nullable = some false ∨
          c.annotations.nullable = none ∧ c.storage.optional = false) ∧
      (t.KeyWithoutNulls → ¬c.MayBeNull) ∧
      (schema.names.Nodup → ¬c.MayBeNull → t.KeyWithoutNulls) := by
  intro t
  obtain ⟨before, c, after, fs, gs, hcolumns, hfields, hlength, hcounts, hothers, hderived⟩ :=
    Schema.exists_counting hschema hf
  have hprimary : t.primary = some c.name := by
    rw [← hderived.same_name]
    exact congrArg (Option.map Field.name) hf
  have hdefinition : t.clauses[before.length]? = some (Field.countingDefinition c.name f.sqlType
      (if c.MayBeNull then "NULL" else "NOT NULL") f.comment) := by
    have hclauses : ∃ rest, t.clauses = fs.map Field.definition ++ f.definition :: rest := by
      have hall : t.fields = fs ++ f :: gs := hfields
      rw [Creation.clauses, hall, List.map_append, List.map_cons]
      simp only [List.append_assoc, List.cons_append]
      exact ⟨_, rfl⟩
    obtain ⟨rest, hrest⟩ := hclauses
    rw [hrest, hlength, ← Field.definition_of_counts hderived hcounts]
    simp
  have hnulls := Field.nullable_ofColumn hderived.of_column
  have hmem : f ∈ schema.fields := ((Schema.increment?_eq_some_iff schema).mp hf).1
  refine ⟨before, c, after, hcolumns, hcounts, hothers, ⟨_, t.text_eq⟩, ?_, hdefinition, ?_, ?_, ?_⟩
  · rw [Creation.filter_namesKey, hprimary]
    rfl
  · rw [hdefinition, Option.some_inj, Field.countingDefinition_inj, ← Column.not_mayBeNull_iff]
    split_ifs with hmay <;> simp [hmay]
  · intro hkey hmay
    have hnot := hkey c.name hprimary f hmem hderived.same_name
    rw [hnulls.mpr hmay] at hnot
    cases hnot
  · intro hnames hnot name hname g hg hgname
    rw [Option.mem_def, hprimary, Option.some_inj] at hname
    have hsame : g = f := List.inj_on_of_nodup_map hnames hg hmem
      (hgname.trans (hname.symm.trans hderived.same_name.symm))
    rw [hsame, Bool.eq_false_iff]
    exact mt hnulls.mp hnot

/-- A parcel with a number that its storage lets be absent, but not its annotation. -/
def parcelMembers : List Member :=
  [.column ⟨"weight", ⟨.integer false .w16, false⟩, {}⟩,
    .embedded "label" [.column ⟨"no", ⟨.integer false .w64, true⟩,
      { increment := true, nullable := some false, default := some "7" }⟩]]

/-- The schema of a parcel. -/
def parcelSchema : Schema where
  fields :=
    [⟨"weight", "smallint unsigned", false, "0", false, "", none⟩,
      ⟨"no", "bigint unsigned", false, "7", true, "", none⟩]
  increment_le_one := by decide

/-- The number of a parcel is a key that the database takes. -/
theorem counting_column_parcels :
    Schema.ofMembers parcelMembers = .ok parcelSchema ∧
      parcelSchema.increment? = some ⟨"no", "bigint unsigned", false, "7", true, "", none⟩ ∧
      parcelSchema.names.Nodup ∧
      let t := Creation.ofSchema parcelSchema { tableName := "parcels" } {}
      t.KeyWithoutNulls ∧ t.clauses.filter namesKey = [keyClause "no"] ∧
        ∃ place : Nat, t.clauses[place]? =
          some (Field.countingDefinition "no" "bigint unsigned" "NOT NULL" "") := by
  have hschema : Schema.ofMembers parcelMembers = .ok parcelSchema := rfl
  have hkey : parcelSchema.increment? =
      some ⟨"no", "bigint unsigned", false, "7", true, "", none⟩ := rfl
  have hnames : parcelSchema.names.Nodup := by decide
  have hone : ∀ c ∈ Member.columns parcelMembers, c.Counts → c.name = "no" ∧ ¬c.MayBeNull := by
    decide
  obtain ⟨before, c, after, hcolumns, hcounts, _, _, hnamed, _, hnotNull, _, htaken⟩ :=
    counting_column hschema hkey { tableName := "parcels" } {}
  obtain ⟨hname, hnot⟩ :=
    hone c (hcolumns ▸ List.mem_append_right _ List.mem_cons_self) hcounts
  rw [hname] at hnamed hnotNull
  exact ⟨hschema, hkey, hnames, htaken hnames hnot, hnamed, _,
    hnotNull.mpr (Column.not_mayBeNull_iff.mp hnot)⟩

/-- The schema of a record type that has nothing but an optional number. -/
def optionalKeySchema : Schema where
  fields := [⟨"id", "bigint unsigned", true, "NULL", true, "", none⟩]
  increment_le_one := by decide

/-- An optional number is the key of its table and defined as one that may be null. -/
theorem optional_key :
    Schema.ofMembers [.column ⟨"id", ⟨.integer false .w64, true⟩, { increment := true }⟩] =
        .ok optionalKeySchema ∧
      optionalKeySchema.increment?.isSome = true ∧
      let t := Creation.ofSchema optionalKeySchema { tableName := "tickets" } {}
      ¬t.KeyWithoutNulls ∧
      t.text = "CREATE TABLE IF NOT EXISTS \x60tickets\x60 (\n" ++
        "\x60id\x60 bigint unsigned NULL AUTO_INCREMENT COMMENT '',\n" ++
        "PRIMARY KEY (\x60id\x60)\n" ++
        ") ENGINE=InnoDB AUTO_INCREMENT=1 DEFAULT CHARSET=utf8mb4 COMMENT ''" :=
  ⟨rfl, rfl, by decide, by decide +kernel⟩

end TableMapper
