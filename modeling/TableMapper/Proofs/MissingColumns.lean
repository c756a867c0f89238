import TableMapper.Proofs.Attempt
import TableMapper.Proofs.TableExecution

/-!
# Missing columns

The plan of an existing table goes through the fields of the record type and
keeps the names of the columns that are there by then.  This file follows that
walk next to the execution of what it plans.

* `missingColumns_cons_ok` — what the walk does at a field;
* `Completed` — how the columns grow while the walk's changes are executed, one
  field of the record type after the other;
* `exists_completed` — the changes are accepted, and the columns grow that way,
  because the names that the walk keeps are those of the columns;
* `missingColumns_eq_error_iff` — when the walk fails.
-/

namespace TableMapper

/-- A field whose column is there is passed over; the column of another one is
added, and counts as there from then on. -/
theorem missingColumns_cons_ok {table : String} {predecessor : Option String}
    {present : List String} {f : Field} {fs : List Field} {changes : List TableChange}
    (h : SchemaPlan.missingColumns table predecessor present (f :: fs) = .ok changes) :
    (f.name ∈ present ∧
        SchemaPlan.missingColumns table (some f.name) present fs = .ok changes) ∨
      (f.name ∉ present ∧ ∃ rest,
        SchemaPlan.missingColumns table (some f.name) (f.name :: present) fs = .ok rest ∧
          changes = .addColumn table f predecessor :: rest) := by
  rw [SchemaPlan.missingColumns] at h
  split at h
  · rename_i hpresent
    exact .inl ⟨List.contains_iff_mem.mp hpresent, h⟩
  · rename_i hmissing
    split at h
    · cases h
    · obtain ⟨rest, hrest, rfl⟩ := map_eq_ok.mp h
      exact .inr ⟨fun hmem => hmissing (List.contains_iff_mem.mpr hmem), rest, hrest, rfl⟩

/-- Nothing is missing where every field has a column. -/
theorem missingColumns_of_present {table : String} {present : List String} {fs : List Field}
    (hfs : ∀ f ∈ fs, f.name ∈ present) (predecessor : Option String) :
    SchemaPlan.missingColumns table predecessor present fs = .ok [] := by
  induction fs generalizing predecessor with
  | nil => rfl
  | cons f fs ih =>
      have hf : present.contains f.name = true :=
        List.contains_iff_mem.mpr (hfs f List.mem_cons_self)
      rw [SchemaPlan.missingColumns, if_pos hf]
      exact ih (fun g hg => hfs g (List.mem_cons_of_mem _ hg)) (some f.name)

/-- The column that a change adds, if it adds one. -/
def TableChange.addedColumn? : TableChange → Option Field
  | addColumn _ f _ => some f
  | _ => none

/-- The walk plans nothing but new columns of its table, for fields it has met. -/
theorem exists_eq_addColumn {table : String} {predecessor : Option String}
    {present : List String} {fs : List Field} {changes : List TableChange}
    (h : SchemaPlan.missingColumns table predecessor present fs = .ok changes) :
    ∀ c ∈ changes, ∃ f p, c = .addColumn table f p ∧ f ∈ fs := by
  induction fs generalizing predecessor present changes with
  | nil =>
      cases h
      exact fun _ hc => absurd hc List.not_mem_nil
  | cons f fs ih =>
      have hlater {rest : List TableChange}
          (hrest : ∀ c ∈ rest, ∃ g p, c = .addColumn table g p ∧ g ∈ fs) :
          ∀ c ∈ rest, ∃ g p, c = .addColumn table g p ∧ g ∈ f :: fs := fun c hc =>
        let ⟨g, p, heq, hg⟩ := hrest c hc
        ⟨g, p, heq, List.mem_cons_of_mem f hg⟩
      rcases missingColumns_cons_ok h with ⟨_, hrest⟩ | ⟨_, rest, hrest, rfl⟩
      · exact hlater (ih hrest)
      · exact List.forall_mem_cons.mpr
          ⟨⟨f, predecessor, rfl, List.mem_cons_self⟩, hlater (ih hrest)⟩

/-- Each field without a column is added once, in order. -/
theorem filterMap_addedColumn? {table : String} {predecessor : Option String}
    {present : List String} {fs : List Field} {changes : List TableChange}
    (hnames : (fs.map (·.name)).Nodup)
    (h : SchemaPlan.missingColumns table predecessor present fs = .ok changes) :
    changes.filterMap TableChange.addedColumn? = fs.filter (fun f => f.name ∉ present) := by
  induction fs generalizing predecessor present changes with
  | nil =>
      cases h
      rfl
  | cons f fs ih =>
      obtain ⟨hf, hfs⟩ := List.nodup_cons.mp hnames
      rcases missingColumns_cons_ok h with ⟨hpresent, hrest⟩ | ⟨hmissing, rest, hrest, rfl⟩
      · rw [ih hfs hrest, List.filter_cons_of_neg (by simpa using hpresent)]
      · have hsame : fs.filter (fun g => g.name ∉ f.name :: present) =
            fs.filter (fun g => g.name ∉ present) := by
          apply List.filter_congr
          intro g hg
          have hne : g.name ≠ f.name := by
            intro heq
            exact hf (List.mem_map.mpr ⟨g, hg, heq⟩)
          simp [hne]
        rw [List.filter_cons_of_pos (by simpa using hmissing), ← hsame, ← ih hfs hrest]
        rfl

/-- How columns grow along the fields of a record type: the fields are those
behind `predecessor`, a field with a column changes nothing, and another one
gets its column at its place. -/
inductive Completed : Option String → List Field → List Field → List Field → Prop
  | done (predecessor : Option String) (columns : List Field) :
      Completed predecessor [] columns columns
  | present {predecessor : Option String} {f : Field} {fs columns final : List Field}
      (hf : f.name ∈ columns.map (·.name)) (hrest : Completed (some f.name) fs columns final) :
      Completed predecessor (f :: fs) columns final
  | added {predecessor : Option String} {f : Field} {fs columns next final : List Field}
      (hf : f.name ∉ columns.map (·.name)) (hplaced : PlacedColumn f predecessor columns next)
      (hrest : Completed (some f.name) fs next final) :
      Completed predecessor (f :: fs) columns final

/-- What the walk plans is accepted, and the columns grow along its fields. -/
theorem exists_completed {table : String} {predecessor : Option String} {present : List String}
    {fs columns : List Field} {changes : List TableChange}
    (h : SchemaPlan.missingColumns table predecessor present fs = .ok changes)
    (hpresent : ∀ n, n ∈ present ↔ n ∈ columns.map (·.name))
    (hpredecessor : ∀ p ∈ predecessor, p ∈ columns.map (·.name)) :
    ∃ final, runColumns? columns changes = some final ∧
      Completed predecessor fs columns final := by
  induction fs generalizing predecessor present columns changes with
  | nil =>
      cases h
      exact ⟨columns, rfl, Completed.done predecessor columns⟩
  | cons f fs ih =>
      rcases missingColumns_cons_ok h with ⟨hf, hrest⟩ | ⟨hf, rest, hrest, rfl⟩
      · have hcolumn := (hpresent f.name).mp hf
        have hnext : ∀ p ∈ some f.name, p ∈ columns.map (·.name) := by
          rintro p ⟨⟩
          exact hcolumn
        obtain ⟨final, hrun, hcompleted⟩ := ih hrest hpresent hnext
        exact ⟨final, hrun, Completed.present hcolumn hcompleted⟩
      · have hnew : f.name ∉ columns.map (·.name) := mt (hpresent f.name).mpr hf
        obtain ⟨next, hstep, hplaced⟩ := exists_placeColumn? hnew hpredecessor
        -- The names kept by the walk stay those of the columns.
        have hkept : ∀ n, n ∈ f.name :: present ↔ n ∈ next.map (·.name) := by
          intro n
          rw [List.mem_cons, hpresent, hplaced.mem_names]
        have hnext : ∀ p ∈ some f.name, p ∈ next.map (·.name) := by
          rintro p ⟨⟩
          exact hplaced.mem_names.mpr (.inl rfl)
        obtain ⟨final, hrun, hcompleted⟩ := ih hrest hkept hnext
        refine ⟨final, ?_, Completed.added hnew hplaced hcompleted⟩
        rw [runColumns?, List.foldlM_cons]
        exact Option.bind_eq_some_iff.mpr ⟨next, hstep, hrun⟩

namespace Completed

variable {predecessor : Option String} {fs columns final : List Field}

/-- In the end there are the columns that were there and those of the fields. -/
theorem mem_names (h : Completed predecessor fs columns final) {n : String} :
    n ∈ final.map (·.name) ↔ n ∈ columns.map (·.name) ∨ n ∈ fs.map (·.name) := by
  induction h with
  | done => simp
  | present hf _ ih =>
      rw [ih, List.map_cons, List.mem_cons]
      constructor
      · exact Or.imp_right .inr
      · rintro (hmem | rfl | hmem)
        · exact .inl hmem
        · exact .inl hf
        · exact .inr hmem
  | added _ hplaced _ ih =>
      rw [ih, hplaced.mem_names, List.map_cons, List.mem_cons, or_assoc]
      exact or_left_comm

end Completed

/-- `f` counts, and its name is neither among those that are there nor that of
a field in front of it. -/
def IsNewKey (present : List String) (fs : List Field) (f : Field) : Prop :=
  ∃ before after, fs = before ++ f :: after ∧ f.autoIncrement = true ∧ f.name ∉ present ∧
    f.name ∉ before.map (·.name)

/-- The first field is the new key, or it counts as there from then on. -/
theorem isNewKey_cons {present : List String} {g : Field} {fs : List Field} {f : Field} :
    IsNewKey present (g :: fs) f ↔
      (f = g ∧ g.autoIncrement = true ∧ g.name ∉ present) ∨
        IsNewKey (g.name :: present) fs f := by
  constructor
  · rintro ⟨before, after, heq, hcounts, hpresent, hbefore⟩
    cases before with
    | nil =>
        cases heq
        exact .inl ⟨rfl, hcounts, hpresent⟩
    | cons b before =>
        cases heq
        rw [List.map_cons, List.mem_cons, not_or] at hbefore
        refine .inr ⟨before, after, rfl, hcounts, ?_, hbefore.2⟩
        rw [List.mem_cons, not_or]
        exact ⟨hbefore.1, hpresent⟩
  · rintro (⟨rfl, hcounts, hpresent⟩ | ⟨before, after, rfl, hcounts, hpresent, hbefore⟩)
    · exact ⟨[], fs, rfl, hcounts, hpresent, List.not_mem_nil⟩
    · rw [List.mem_cons, not_or] at hpresent
      refine ⟨g :: before, after, rfl, hcounts, hpresent.2, ?_⟩
      rw [List.map_cons, List.mem_cons, not_or]
      exact ⟨hpresent.1, hbefore⟩

/-- A name that is there once may as well be there twice. -/
theorem isNewKey_cons_of_mem {present : List String} {n : String} (hn : n ∈ present)
    {fs : List Field} {f : Field} : IsNewKey (n :: present) fs f ↔ IsNewKey present fs f := by
  have hsame : f.name ∉ n :: present ↔ f.name ∉ present := by
    rw [List.mem_cons, not_or]
    exact and_iff_right_of_imp fun hf heq => hf (heq ▸ hn)
  unfold IsNewKey
  rw [hsame]

/-- Along fields of which at most one counts, the walk fails exactly at a field
that counts and has no column by then. -/
theorem missingColumns_eq_error_iff {table : String} (predecessor : Option String)
    {present : List String} {fs : List Field} {e : Error}
    (hone : (fs.filter (·.autoIncrement)).length ≤ 1) :
    SchemaPlan.missingColumns table predecessor present fs = .error e ↔
      ∃ f, IsNewKey present fs f ∧ e = .newPrimaryKeyNotAllowed table f.name := by
  induction fs generalizing predecessor present with
  | nil =>
      constructor
      · intro h
        cases h
      · rintro ⟨f, ⟨before, after, heq, _⟩, _⟩
        exact absurd heq (by simp)
  | cons g fs ih =>
      have hrest : (fs.filter (·.autoIncrement)).length ≤ 1 :=
        Nat.le_trans (List.Sublist.filter _ (List.sublist_cons_self g fs)).length_le hone
      simp only [isNewKey_cons]
      rw [SchemaPlan.missingColumns]
      split
      · rename_i hcontains
        have hpresent := List.contains_iff_mem.mp hcontains
        rw [ih _ hrest]
        simp only [isNewKey_cons_of_mem hpresent, hpresent, not_true_eq_false, and_false,
          false_or]
      · rename_i hcontains
        have hmissing : g.name ∉ present := mt List.contains_iff_mem.mpr hcontains
        split
        · rename_i hcounts
          have hnone : ∀ f, ¬ IsNewKey (g.name :: present) fs f := by
            rintro f ⟨before, after, rfl, hf, _⟩
            simp [hcounts, hf] at hone
          simp [hnone, hmissing, hcounts, eq_comm]
        · rename_i hcounts
          rw [map_eq_error, ih _ hrest]
          simp [hcounts]

end TableMapper
