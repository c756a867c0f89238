import TableMapper.Proofs.MissingColumns
import TableMapper.Proofs.SchemaLookup

/-!
# Plans converge

Executing a plan is never rejected and leaves a table that needs nothing more:
the plan made for it is empty.  That holds of a table that is created and of
one that exists, whatever columns and keys it has, as long as the declared keys
have different names.

* `exists_runKeys?` — missing keys are added, and then all declared ones are
  there;
* `additions_eq_error_iff` — the only table for which there is no plan;
* `make_converges` — the law.
-/

namespace TableMapper

/-- The names of keys. -/
def keyNames (keys : List Key) : List String :=
  keys.map (·.name)

/-- Nothing is missing where every key has its name. -/
theorem missingKeys_of_contains {table : String} {kind : KeyKind} {live : LiveKeys}
    {keys : List Key} (hkeys : ∀ k ∈ keys, live.contains k.name = true) :
    SchemaPlan.missingKeys table kind live keys = [] := by
  rw [SchemaPlan.missingKeys, List.map_eq_nil_iff, List.filter_eq_nil_iff]
  intro k hk
  simp [hkeys k hk]

/-- Keys that are planned by the keys `live` can be added to any keys that agree
with them on the declared names. -/
theorem exists_runKeys? (table : String) (kind : KeyKind) {live now : LiveKeys}
    {keys : List Key} (hnames : (keyNames keys).Nodup)
    (hagree : ∀ k ∈ keys, now.contains k.name = live.contains k.name) :
    ∃ final, runKeys? now (SchemaPlan.missingKeys table kind live keys) = some final ∧
      ∀ n, final.contains n = true ↔ n ∈ keyNames keys ∨ now.contains n = true := by
  induction keys generalizing now with
  | nil => exact ⟨now, rfl, fun n => by simp [keyNames]⟩
  | cons k keys ih =>
      obtain ⟨hk, hkeys⟩ := List.nodup_cons.mp hnames
      have hfirst := hagree k List.mem_cons_self
      have hothers : ∀ j ∈ keys, now.contains j.name = live.contains j.name :=
        fun j hj => hagree j (List.mem_cons_of_mem _ hj)
      cases hlive : live.contains k.name with
      | true =>
          have hskip : SchemaPlan.missingKeys table kind live (k :: keys) =
              SchemaPlan.missingKeys table kind live keys := by
            rw [SchemaPlan.missingKeys, List.filter_cons_of_neg (by simp [hlive])]
            rfl
          obtain ⟨final, hrun, hfinal⟩ := ih hkeys hothers
          refine ⟨final, hskip ▸ hrun, ?_⟩
          intro n
          rw [hfinal, keyNames, keyNames, List.map_cons, List.mem_cons, or_assoc]
          constructor
          · exact .inr
          · rintro (rfl | h)
            · exact .inr (hfirst.trans hlive)
            · exact h
      | false =>
          have hplan : SchemaPlan.missingKeys table kind live (k :: keys) =
              .addKey table kind k :: SchemaPlan.missingKeys table kind live keys := by
            rw [SchemaPlan.missingKeys, List.filter_cons_of_pos (by simp [hlive])]
            rfl
          have hnew : now.contains k.name = false := hfirst.trans hlive
          have hadd : now.add? kind k = some (now.insert k kind) := by
            rw [LiveKeys.add?, if_neg (Bool.eq_false_iff.mp hnew)]
          have hnext : ∀ j ∈ keys, (now.insert k kind).contains j.name =
              live.contains j.name := by
            intro j hj
            have hne : j.name ≠ k.name := fun heq => hk (List.mem_map.mpr ⟨j, hj, heq⟩)
            rw [← hothers j hj, Bool.eq_iff_iff, LiveKeys.contains_insert]
            exact or_iff_right hne
          obtain ⟨final, hrun, hfinal⟩ := ih hkeys hnext
          refine ⟨final, ?_, ?_⟩
          · rw [hplan, runKeys?, List.foldlM_cons]
            exact Option.bind_eq_some_iff.mpr ⟨now.insert k kind, hadd, hrun⟩
          · intro n
            rw [hfinal, LiveKeys.contains_insert, keyNames, keyNames, List.map_cons,
              List.mem_cons, or_assoc]
            exact or_left_comm

/-- New columns do not touch the keys. -/
theorem runKeys?_addColumns {table : String} {keys : LiveKeys} {cs : List TableChange}
    (hcs : ∀ c ∈ cs, ∃ f p, c = .addColumn table f p) : runKeys? keys cs = some keys := by
  induction cs with
  | nil => rfl
  | cons c cs ih =>
      obtain ⟨⟨f, p, rfl⟩, hrest⟩ := List.forall_mem_cons.mp hcs
      exact ih hrest

/-- New keys do not touch the columns. -/
theorem runColumns?_missingKeys (table : String) (kind : KeyKind) (live : LiveKeys)
    (keys : List Key) (columns : List Field) :
    runColumns? columns (SchemaPlan.missingKeys table kind live keys) = some columns := by
  rw [SchemaPlan.missingKeys]
  induction keys.filter fun k => !live.contains k.name with
  | nil => rfl
  | cons k keys ih => exact ih

/-- Changes behind others find the columns that those have left. -/
theorem runColumns?_append (columns : List Field) (cs ds : List TableChange) :
    runColumns? columns (cs ++ ds) =
      (runColumns? columns cs).bind fun columns' => runColumns? columns' ds := by
  rw [runColumns?, List.foldlM_append]
  rfl

/-- Changes behind others find the keys that those have left. -/
theorem runKeys?_append (keys : LiveKeys) (cs ds : List TableChange) :
    runKeys? keys (cs ++ ds) = (runKeys? keys cs).bind fun keys' => runKeys? keys' ds := by
  rw [runKeys?, List.foldlM_append]
  rfl

/-- The table has a column for each field and a key of each declared name. -/
structure Fits (schema : Schema) (options : TableOptions) (t : LiveTable) : Prop where
  columns : ∀ f ∈ schema.fields, f.name ∈ t.fields.map (·.name)
  indexes : ∀ k ∈ options.indexes, t.keys.contains k.name = true
  uniques : ∀ k ∈ options.uniques, t.keys.contains k.name = true

namespace Fits

variable {schema : Schema} {options : TableOptions} {t : LiveTable}

/-- The plan for a table that fits is empty. -/
theorem additions_eq (h : Fits schema options t) :
    SchemaPlan.additions schema options t = .ok [] := by
  rw [SchemaPlan.additions, missingColumns_of_present h.columns,
    missingKeys_of_contains h.indexes, missingKeys_of_contains h.uniques]
  rfl

/-- A table as it is created fits. -/
theorem of_creation (schema : Schema) (options : TableOptions) (defaults : TableDefaults) :
    Fits schema options (Creation.ofSchema schema options defaults).liveTable where
  columns _ hf := List.mem_map_of_mem hf
  indexes k hk := by
    have hindex : k.name ∈ (options.indexes.map fun j => (j.name, j)).map (·.1) :=
      List.mem_map_of_mem (List.mem_map_of_mem hk)
    rw [LiveKeys.contains, Bool.or_eq_true]
    exact .inl (Dict.contains_ofList.mpr hindex)
  uniques k hk := by
    have hunique : k.name ∈ (options.uniques.map fun j => (j.name, j)).map (·.1) :=
      List.mem_map_of_mem (List.mem_map_of_mem hk)
    rw [LiveKeys.contains, Bool.or_eq_true]
    exact .inr (Dict.contains_ofList.mpr hunique)

end Fits

section Existing

variable {schema : Schema} {options : TableOptions} {live : LiveTable}
  {changes : List TableChange}

/-- The changes of an existing table: columns, indexes, unique keys. -/
theorem exists_of_additions_eq_ok (h : SchemaPlan.additions schema options live = .ok changes) :
    ∃ columns, SchemaPlan.missingColumns options.tableName none (live.fields.map (·.name))
        schema.fields = .ok columns ∧
      changes = columns ++
        SchemaPlan.missingKeys options.tableName .index live.keys options.indexes ++
        SchemaPlan.missingKeys options.tableName .unique live.keys options.uniques := by
  obtain ⟨columns, hcolumns, hchanges⟩ := bind_eq_ok.mp h
  cases hchanges
  exact ⟨columns, hcolumns, rfl⟩

/-- Every planned change is about the table of the options. -/
theorem table_of_mem_additions (h : SchemaPlan.additions schema options live = .ok changes) :
    ∀ c ∈ changes, c.table = options.tableName := by
  obtain ⟨columns, hcolumns, rfl⟩ := exists_of_additions_eq_ok h
  intro c hc
  rcases List.mem_append.mp hc with hc | hc
  · rcases List.mem_append.mp hc with hc | hc
    · obtain ⟨f, p, rfl, _⟩ := exists_eq_addColumn hcolumns c hc
      rfl
    · obtain ⟨k, _, rfl⟩ := List.mem_map.mp hc
      rfl
  · obtain ⟨k, _, rfl⟩ := List.mem_map.mp hc
    rfl

/-- The columns behind a plan are those behind its new columns. -/
theorem exists_runColumns?_additions
    (h : SchemaPlan.additions schema options live = .ok changes) :
    ∃ final, runColumns? live.fields changes = some final ∧
      Completed none schema.fields live.fields final := by
  obtain ⟨columns, hcolumns, rfl⟩ := exists_of_additions_eq_ok h
  obtain ⟨final, hrun, hcompleted⟩ := exists_completed hcolumns (fun _ => Iff.rfl) (by simp)
  refine ⟨final, ?_, hcompleted⟩
  rw [runColumns?_append, runColumns?_append, hrun, Option.bind_some,
    runColumns?_missingKeys, Option.bind_some, runColumns?_missingKeys]

/-- The keys behind a plan are the live ones and all declared ones. -/
theorem exists_runKeys?_additions
    (hnames : (keyNames (options.indexes ++ options.uniques)).Nodup)
    (h : SchemaPlan.additions schema options live = .ok changes) :
    ∃ final, runKeys? live.keys changes = some final ∧
      (∀ k ∈ options.indexes, final.contains k.name = true) ∧
      ∀ k ∈ options.uniques, final.contains k.name = true := by
  obtain ⟨columns, hcolumns, rfl⟩ := exists_of_additions_eq_ok h
  rw [keyNames, List.map_append] at hnames
  obtain ⟨hindexes, huniques, hapart⟩ := List.nodup_append.mp hnames
  have hlive : ∀ k ∈ options.indexes, live.keys.contains k.name = live.keys.contains k.name :=
    fun _ _ => rfl
  obtain ⟨now, hrunIndexes, hnow⟩ := exists_runKeys? options.tableName .index hindexes hlive
  -- No index that has been added has the name of a unique key.
  have hagree : ∀ k ∈ options.uniques, now.contains k.name = live.keys.contains k.name := by
    intro k hk
    have hnotIndex : k.name ∉ keyNames options.indexes := by
      intro hmem
      exact hapart _ hmem _ (List.mem_map_of_mem hk) rfl
    rw [Bool.eq_iff_iff, hnow]
    exact or_iff_right hnotIndex
  obtain ⟨final, hrunUniques, hfinal⟩ :=
    exists_runKeys? options.tableName .unique huniques hagree
  have hadded : ∀ c ∈ columns, ∃ f p, c = .addColumn options.tableName f p := by
    intro c hc
    obtain ⟨f, p, heq, _⟩ := exists_eq_addColumn hcolumns c hc
    exact ⟨f, p, heq⟩
  refine ⟨final, ?_, ?_, ?_⟩
  · rw [runKeys?_append, runKeys?_append, runKeys?_addColumns hadded, Option.bind_some,
      hrunIndexes, Option.bind_some, hrunUniques]
  · intro k hk
    have hindex : now.contains k.name = true := (hnow k.name).mpr (.inl (List.mem_map_of_mem hk))
    exact (hfinal k.name).mpr (.inr hindex)
  · intro k hk
    exact (hfinal k.name).mpr (.inl (List.mem_map_of_mem hk))

/-- What is planned for an existing table is accepted, and then the table fits. -/
theorem exists_run?_additions
    (hnames : (keyNames (options.indexes ++ options.uniques)).Nodup)
    (h : SchemaPlan.additions schema options live = .ok changes) :
    ∃ t, live.run? changes = some t ∧ Fits schema options t := by
  obtain ⟨fields, hrunFields, hcompleted⟩ := exists_runColumns?_additions h
  obtain ⟨keys, hrunKeys, hindexes, huniques⟩ := exists_runKeys?_additions hnames h
  refine ⟨⟨fields, keys⟩, LiveTable.run?_eq_some hrunFields hrunKeys, ?_, hindexes, huniques⟩
  intro f hf
  exact hcompleted.mem_names.mpr (.inr (List.mem_map_of_mem hf))

end Existing

/-- There is no plan exactly when the counting field has neither a live column
nor a field of the same name in front of it. -/
theorem additions_eq_error_iff {schema : Schema} {options : TableOptions} {live : LiveTable}
    {e : Error} :
    SchemaPlan.additions schema options live = .error e ↔
      ∃ f, IsNewKey (live.fields.map (·.name)) schema.fields f ∧
        e = .newPrimaryKeyNotAllowed options.tableName f.name := by
  rw [← missingColumns_eq_error_iff none schema.increment_le_one,
    SchemaPlan.additions]
  cases SchemaPlan.missingColumns options.tableName none (live.fields.map (·.name))
      schema.fields with
  | error e' => rfl
  | ok columns =>
      constructor
      · intro h
        cases h
      · intro h
        cases h

/-- Executing a plan is accepted, changes no other table, and leaves a table that
fits. -/
theorem exists_run?_make {schema : Schema} {options : TableOptions} {defaults : TableDefaults}
    {db : Database} {plan : SchemaPlan}
    (hnames : (keyNames (options.indexes ++ options.uniques)).Nodup)
    (hplan : SchemaPlan.make schema options defaults (db options.tableName) = .ok plan) :
    ∃ t, db.run? plan.changes = some (Function.update db options.tableName (some t)) ∧
      Fits schema options t := by
  cases hlive : db options.tableName with
  | none =>
      rw [hlive] at hplan
      cases hplan
      refine ⟨_, ?_, Fits.of_creation schema options defaults⟩
      have hcreate : db.execute? (.create (.ofSchema schema options defaults)) =
          some (Function.update db options.tableName
            (some (Creation.ofSchema schema options defaults).liveTable)) := by
        have htable : db (TableChange.create (.ofSchema schema options defaults)).table = none :=
          hlive
        rw [Database.execute?, htable]
        rfl
      rw [Database.run?, List.foldlM_cons, hcreate]
      rfl
  | some live =>
      rw [hlive] at hplan
      obtain ⟨changes, hchanges, rfl⟩ := map_eq_ok.mp hplan
      obtain ⟨t, hrun, hfits⟩ := exists_run?_additions hnames hchanges
      exact ⟨t, Database.run?_eq_some hlive (table_of_mem_additions hchanges) hrun, hfits⟩

/-- **Plans converge.**  Whatever is in the database, a plan is executed without
a rejection, no other table is touched, and the plan made for the table behind
it is empty.  There is no plan exactly for an existing table without a column
for the counting field, if no field in front of that one has its name; the error
names the table and the field. -/
theorem make_converges (schema : Schema) (options : TableOptions) (defaults : TableDefaults)
    (db : Database) (hnames : (keyNames (options.indexes ++ options.uniques)).Nodup) :
    (∀ plan, SchemaPlan.make schema options defaults (db options.tableName) = .ok plan →
      ∃ reached, db.run? plan.changes = some reached ∧
        (∀ other, other ≠ options.tableName → reached other = db other) ∧
        SchemaPlan.make schema options defaults (reached options.tableName) = .ok ⟨true, []⟩) ∧
    ∀ e, SchemaPlan.make schema options defaults (db options.tableName) = .error e ↔
      ∃ live before f after, db options.tableName = some live ∧
        schema.fields = before ++ f :: after ∧ schema.increment? = some f ∧
        f.name ∉ live.fields.map (·.name) ∧ f.name ∉ before.map (·.name) ∧
        e = .newPrimaryKeyNotAllowed options.tableName f.name := by
  constructor
  · intro plan hplan
    obtain ⟨t, hrun, hfits⟩ := exists_run?_make hnames hplan
    refine ⟨_, hrun, fun other hother => Function.update_of_ne hother _ _, ?_⟩
    rw [Function.update_self, SchemaPlan.make, hfits.additions_eq]
    rfl
  · intro e
    cases hlive : db options.tableName with
    | none => simp [SchemaPlan.make]
    | some live =>
        rw [SchemaPlan.make, map_eq_error, additions_eq_error_iff]
        constructor
        · rintro ⟨f, ⟨before, after, heq, hcounts, hmissing, hbefore⟩, he⟩
          have hincrement : schema.increment? = some f :=
            schema.increment?_eq_some_iff.mpr ⟨by simp [heq], hcounts⟩
          exact ⟨live, before, f, after, rfl, heq, hincrement, hmissing, hbefore, he⟩
        · rintro ⟨_, before, f, after, ⟨⟩, heq, hincrement, hmissing, hbefore, he⟩
          have hcounts := (schema.increment?_eq_some_iff.mp hincrement).2
          exact ⟨f, ⟨before, after, heq, hcounts, hmissing, hbefore⟩, he⟩

/-- A record type of visits. -/
def visits : Schema where
  fields :=
    [⟨"id", "bigint unsigned", false, "0", true, "", none⟩,
      ⟨"page", "varchar(64)", false, "''", false, "", none⟩,
      ⟨"agent", "varchar(64)", true, "NULL", false, "", none⟩,
      ⟨"count", "int", false, "0", false, "", none⟩]
  increment_le_one := by decide

/-- The options of the table of visits. -/
def visitOptions : TableOptions :=
  { tableName := "visits", indexes := [⟨"by_page", ["page"]⟩],
    uniques := [⟨"by_agent", ["page", "agent"]⟩] }

/-- A table of visits without two of the columns and without keys, but with a
column that the record type does not know. -/
def visitTable : LiveTable where
  fields :=
    [⟨"id", "bigint(20) unsigned", false, "NULL", true, "", none⟩,
      ⟨"count", "int(11)", false, "0", false, "", none⟩,
      ⟨"note", "text", true, "NULL", false, "", none⟩]
  keys := {}

/-- A database that has only this table. -/
def visitDatabase : Database :=
  fun name => if name = "visits" then some visitTable else none

/-- The law at this database: four changes bring the table in line. -/
theorem make_converges_visits :
    (keyNames (visitOptions.indexes ++ visitOptions.uniques)).Nodup ∧
      ∃ plan reached, SchemaPlan.make visits visitOptions {} (visitDatabase "visits") = .ok plan ∧
        plan.changes.length = 4 ∧ visitDatabase.run? plan.changes = some reached ∧
        SchemaPlan.make visits visitOptions {} (reached "visits") = .ok ⟨true, []⟩ := by
  have hnames : (keyNames (visitOptions.indexes ++ visitOptions.uniques)).Nodup := by decide
  obtain ⟨plan, hplan, hlength⟩ : ∃ plan,
      SchemaPlan.make visits visitOptions {} (visitDatabase "visits") = .ok plan ∧
        plan.changes.length = 4 := ⟨_, rfl, rfl⟩
  obtain ⟨reached, hrun, _, hempty⟩ :=
    (make_converges visits visitOptions {} visitDatabase hnames).1 plan hplan
  exact ⟨hnames, plan, reached, hplan, hlength, hrun, hempty⟩

end TableMapper
