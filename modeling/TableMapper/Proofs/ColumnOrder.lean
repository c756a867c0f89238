import Mathlib.Data.List.Basic
import TableMapper.Proofs.Convergence

/-!
# The order of columns

Columns that are added to an existing table stand where the record type has
them, as far as the columns that are there allow it.

* `Completed.filter_eq` — the columns that were there stay, in their order;
* `Completed.adjacent` — an added column stands directly behind its neighbour in
  the record type: what is added later goes behind later fields, so it does not
  come between the two;
* `Completed.names_eq` — if the columns that were there are in the order of the
  record type, then all are in the end;
* `additions_keep_order` — the law about a whole plan.
-/

namespace TableMapper

/-- Two neighbours in a list stay neighbours when something is put behind another
element than the first of them. -/
theorem infix_pair_insert {α : Type} {a b x : α} (hne : x ≠ a) (y : α)
    {before after : List α} (h : [a, b] <:+: before ++ x :: after) :
    [a, b] <:+: before ++ x :: y :: after := by
  induction before with
  | nil =>
      rcases List.infix_cons_iff.mp h with hstart | hinside
      · exact absurd (List.cons_prefix_cons.mp hstart).1.symm hne
      · exact List.infix_cons (List.infix_cons hinside)
  | cons z before ih =>
      rcases List.infix_cons_iff.mp h with hstart | hinside
      · obtain ⟨rfl, hsecond⟩ := List.cons_prefix_cons.mp hstart
        apply List.IsPrefix.isInfix
        rw [List.cons_append, List.cons_prefix_cons]
        refine ⟨rfl, ?_⟩
        cases before with
        | nil =>
            obtain ⟨rfl, _⟩ := List.cons_prefix_cons.mp hsecond
            exact List.cons_prefix_cons.mpr ⟨rfl, List.nil_prefix⟩
        | cons w before =>
            obtain ⟨rfl, _⟩ := List.cons_prefix_cons.mp hsecond
            exact List.cons_prefix_cons.mpr ⟨rfl, List.nil_prefix⟩
      · exact List.infix_cons (ih hinside)

namespace PlacedColumn

variable {f : Field} {predecessor : Option String} {columns next : List Field}

/-- A property that the new column does not have picks the same columns. -/
theorem filter_eq (h : PlacedColumn f predecessor columns next) {q : Field → Bool}
    (hq : q f = false) : next.filter q = columns.filter q := by
  cases h with
  | first => rw [List.filter_cons_of_neg (by simp [hq])]
  | @behind before g hfirst after =>
      simp [List.filter_cons, hq]

/-- A column behind another one does not become the first. -/
theorem head?_eq {p : String} (h : PlacedColumn f (some p) columns next) :
    next.head? = columns.head? := by
  cases h with
  | @behind before g hfirst after => cases before <;> rfl

/-- The new column is directly behind its predecessor. -/
theorem adjacent {p : String} (h : PlacedColumn f (some p) columns next) :
    [p, f.name] <:+: next.map (·.name) := by
  cases h with
  | @behind before g hfirst after =>
      exact ⟨before.map (·.name), after.map (·.name), by simp⟩

/-- Two neighbours stay neighbours unless the new column goes between them. -/
theorem keeps_adjacent (h : PlacedColumn f predecessor columns next) {a b : String}
    (hadjacent : [a, b] <:+: columns.map (·.name)) (ha : ∀ p ∈ predecessor, p ≠ a) :
    [a, b] <:+: next.map (·.name) := by
  cases h with
  | first => exact List.infix_cons hadjacent
  | @behind before g hfirst after =>
      rw [List.map_append, List.map_cons] at hadjacent ⊢
      exact infix_pair_insert (ha g.name rfl) f.name hadjacent

/-- A column behind the last of `front` comes between that and the rest. -/
theorem names_eq (h : PlacedColumn f predecessor columns next) {front remaining : List String}
    (hcolumns : columns.map (·.name) = front ++ remaining) (hlast : front.getLast? = predecessor)
    (hnodup : (front ++ remaining).Nodup) :
    next.map (·.name) = front ++ f.name :: remaining := by
  cases h with
  | first =>
      have hnil : front = [] := List.getLast?_eq_none_iff.mp hlast
      rw [hnil, List.nil_append] at hcolumns
      rw [hnil, List.map_cons, hcolumns]
      rfl
  | @behind before g hfirst after =>
      obtain ⟨front', rfl⟩ := List.getLast?_eq_some_iff.mp hlast
      obtain ⟨hfront, _, hapart⟩ := List.nodup_append.mp hnodup
      have hbefore : g.name ∉ front' := by
        intro hmem
        exact (List.nodup_append.mp hfront).2.2 g.name hmem g.name (by simp) rfl
      have hafter : g.name ∉ remaining := by
        intro hmem
        exact hapart g.name (by simp) g.name hmem rfl
      have hsplit : front' ++ g.name :: remaining =
          before.map (·.name) ++ g.name :: after.map (·.name) := by
        simpa using hcolumns.symm
      obtain ⟨hleft, _, hright⟩ := (List.append_cons_inj_of_notMem hbefore hafter).mp hsplit
      simp [hleft, hright]

end PlacedColumn

namespace Completed

variable {predecessor : Option String} {fs columns final : List Field}

/-- A property that no new column has picks the same columns in the end. -/
theorem filter_eq (h : Completed predecessor fs columns final) {q : Field → Bool}
    (hq : ∀ f ∈ fs, f.name ∉ columns.map (·.name) → q f = false) :
    final.filter q = columns.filter q := by
  induction h with
  | done => rfl
  | present _ _ ih => exact ih fun g hg => hq g (List.mem_cons_of_mem _ hg)
  | added hf hplaced _ ih =>
      rw [ih, hplaced.filter_eq (hq _ List.mem_cons_self hf)]
      intro g hg hmissing
      refine hq g (List.mem_cons_of_mem _ hg) fun hmem => hmissing ?_
      exact hplaced.mem_names.mpr (.inr hmem)

/-- Columns of different names get different names in the end. -/
theorem nodup_names (h : Completed predecessor fs columns final)
    (hcolumns : (columns.map (·.name)).Nodup) : (final.map (·.name)).Nodup := by
  induction h with
  | done => exact hcolumns
  | present _ _ ih => exact ih hcolumns
  | added hf hplaced _ ih =>
      have hperm := hplaced.perm.map (·.name)
      exact ih (hperm.nodup_iff.mpr (List.nodup_cons.mpr ⟨hf, hcolumns⟩))

/-- Behind the first field no column becomes the first. -/
theorem head?_eq (h : Completed predecessor fs columns final) (hsome : predecessor ≠ none) :
    final.head? = columns.head? := by
  induction h with
  | done => rfl
  | present _ _ ih => exact ih (Option.some_ne_none _)
  | @added predecessor _ _ _ _ _ _ hplaced _ ih =>
      cases predecessor with
      | none => exact absurd rfl hsome
      | some p => rw [ih (Option.some_ne_none _), hplaced.head?_eq]

/-- Two neighbours stay neighbours if the first of them is neither the
predecessor nor a field to come. -/
theorem keeps_adjacent (h : Completed predecessor fs columns final) {a b : String}
    (hadjacent : [a, b] <:+: columns.map (·.name)) (ha : ∀ p ∈ predecessor, p ≠ a)
    (hfs : a ∉ fs.map (·.name)) : [a, b] <:+: final.map (·.name) := by
  induction h with
  | done => exact hadjacent
  | @present _ f _ _ _ _ _ ih =>
      rw [List.map_cons, List.mem_cons, not_or] at hfs
      refine ih hadjacent ?_ hfs.2
      rintro p ⟨⟩
      exact Ne.symm hfs.1
  | @added _ f _ _ _ _ _ hplaced _ ih =>
      rw [List.map_cons, List.mem_cons, not_or] at hfs
      refine ih (hplaced.keeps_adjacent hadjacent ha) ?_ hfs.2
      rintro p ⟨⟩
      exact Ne.symm hfs.1

/-- Behind one field there is its column beside those that were there. -/
theorem exists_next {f : Field} (h : Completed predecessor (f :: fs) columns final) :
    ∃ next, Completed (some f.name) fs next final ∧
      ∀ n, n ∈ next.map (·.name) ↔ n = f.name ∨ n ∈ columns.map (·.name) := by
  cases h with
  | present hf hrest =>
      refine ⟨columns, hrest, fun n => ⟨.inr, ?_⟩⟩
      rintro (rfl | hmem)
      · exact hf
      · exact hmem
  | added _ hplaced hrest => exact ⟨_, hrest, fun n => hplaced.mem_names⟩

/-- The column of the first field goes directly behind the predecessor and stays
there. -/
theorem adjacent_first {p : String} {f : Field}
    (h : Completed (some p) (f :: fs) columns final) (hf : f.name ∉ columns.map (·.name))
    (hnames : (p :: f.name :: fs.map (·.name)).Nodup) :
    [p, f.name] <:+: final.map (·.name) := by
  obtain ⟨hp, _⟩ := List.nodup_cons.mp hnames
  rw [List.mem_cons, not_or] at hp
  cases h with
  | present hpresent _ => exact absurd hpresent hf
  | added _ hplaced hrest =>
      refine hrest.keeps_adjacent hplaced.adjacent ?_ hp.2
      rintro q ⟨⟩
      exact Ne.symm hp.1

/-- The column of a field that had none ends up directly behind that of the field
in front of it. -/
theorem adjacent {before after : List Field} {p f : Field}
    (h : Completed predecessor (before ++ p :: f :: after) columns final)
    (hf : f.name ∉ columns.map (·.name))
    (hnames : ((before ++ p :: f :: after).map (·.name)).Nodup) :
    [p.name, f.name] <:+: final.map (·.name) := by
  induction before generalizing predecessor columns with
  | nil =>
      obtain ⟨next, hrest, hnext⟩ := h.exists_next
      have hp := (List.nodup_cons.mp hnames).1
      rw [List.map_cons, List.mem_cons, not_or] at hp
      have hmissing : f.name ∉ next.map (·.name) := by
        rw [hnext, not_or]
        exact ⟨Ne.symm hp.1, hf⟩
      exact hrest.adjacent_first hmissing hnames
  | cons b before ih =>
      obtain ⟨next, hrest, hnext⟩ := h.exists_next
      obtain ⟨hb, hothers⟩ := List.nodup_cons.mp hnames
      have hne : f.name ≠ b.name := by
        intro heq
        exact hb (List.mem_map.mpr ⟨f, by simp, heq⟩)
      have hmissing : f.name ∉ next.map (·.name) := by
        rw [hnext, not_or]
        exact ⟨hne, hf⟩
      exact ih hrest hmissing hothers

/-- The column of the first field of all becomes the first column. -/
theorem head?_eq_first {f : Field} (h : Completed none (f :: fs) columns final)
    (hf : f.name ∉ columns.map (·.name)) : final.head? = some f := by
  cases h with
  | present hpresent _ => exact absurd hpresent hf
  | added _ hplaced hrest =>
      rw [hrest.head?_eq (Option.some_ne_none _)]
      cases hplaced
      rfl

/-- If the columns are the fields up to the predecessor and then some of the
fields to come, in order, then all fields are there in order in the end. -/
theorem names_eq (h : Completed predecessor fs columns final) {front remaining : List String}
    (hcolumns : columns.map (·.name) = front ++ remaining)
    (hlast : front.getLast? = predecessor) (hnames : (front ++ fs.map (·.name)).Nodup)
    (hremaining : remaining.Sublist (fs.map (·.name))) :
    final.map (·.name) = front ++ fs.map (·.name) := by
  induction h generalizing front remaining with
  | done =>
      rw [List.map_nil, List.sublist_nil] at hremaining
      rw [hcolumns, hremaining, List.map_nil]
  | @present _ f fs columns _ hf _ ih =>
      have hfront : f.name ∉ front := by
        intro hmem
        exact (List.nodup_append.mp hnames).2.2 _ hmem _ List.mem_cons_self rfl
      have hfs : f.name ∉ fs.map (·.name) :=
        (List.nodup_cons.mp (List.nodup_append.mp hnames).2.1).1
      rw [hcolumns, List.mem_append] at hf
      have hmem := hf.resolve_left hfront
      rw [List.map_cons] at hremaining hnames
      cases hremaining with
      | cons _ hsub => exact absurd (hsub.subset hmem) hfs
      | cons_cons _ hsub =>
          rw [List.append_cons] at hcolumns hnames
          rw [List.map_cons, List.append_cons]
          exact ih hcolumns (by simp) hnames hsub
  | @added _ f fs columns _ _ hf hplaced _ ih =>
      rw [hcolumns, List.mem_append, not_or] at hf
      rw [List.map_cons] at hremaining hnames
      have hnodup : (front ++ remaining).Nodup :=
        hnames.sublist ((List.Sublist.refl front).append hremaining)
      have hnext := hplaced.names_eq hcolumns hlast hnodup
      cases hremaining with
      | cons_cons _ hsub => exact absurd List.mem_cons_self hf.2
      | cons _ hsub =>
          rw [List.append_cons] at hnext hnames
          rw [List.map_cons, List.append_cons]
          exact ih hnext (by simp) hnames hsub

end Completed

/-- New keys add no column. -/
theorem addedColumn?_missingKeys (table : String) (kind : KeyKind) (live : LiveKeys)
    (keys : List Key) :
    (SchemaPlan.missingKeys table kind live keys).filterMap TableChange.addedColumn? = [] := by
  rw [List.filterMap_eq_nil_iff]
  intro c hc
  obtain ⟨k, _, rfl⟩ := List.mem_map.mp hc
  rfl

/-- A plan for an existing table adds the columns that the walk adds. -/
theorem exists_addedColumns {schema : Schema} {options : TableOptions} {live : LiveTable}
    {changes : List TableChange} (h : SchemaPlan.additions schema options live = .ok changes) :
    ∃ columns, SchemaPlan.missingColumns options.tableName none (live.fields.map (·.name))
        schema.fields = .ok columns ∧
      changes.filterMap TableChange.addedColumn? = columns.filterMap TableChange.addedColumn? := by
  obtain ⟨columns, hcolumns, rfl⟩ := exists_of_additions_eq_ok h
  refine ⟨columns, hcolumns, ?_⟩
  rw [List.filterMap_append, List.filterMap_append, addedColumn?_missingKeys,
    addedColumn?_missingKeys, List.append_nil, List.append_nil]

/-- A plan for an existing table adds the columns that are missing, each once and
in the order of the record type, and otherwise only keys. -/
theorem addedColumns_additions {schema : Schema} {options : TableOptions} {live : LiveTable}
    {changes : List TableChange} (hschema : schema.names.Nodup)
    (h : SchemaPlan.additions schema options live = .ok changes) :
    changes.filterMap TableChange.addedColumn? =
        schema.fields.filter (fun f => f.name ∉ live.fields.map (·.name)) ∧
      ∀ c ∈ changes, c.addedColumn? = none →
        ∃ kind key, c = .addKey options.tableName kind key := by
  constructor
  · obtain ⟨columns, hcolumns, hadded⟩ := exists_addedColumns h
    rw [hadded]
    exact filterMap_addedColumn? hschema hcolumns
  · obtain ⟨columns, hcolumns, rfl⟩ := exists_of_additions_eq_ok h
    intro c hc hnone
    rcases List.mem_append.mp hc with hc | hc
    · rcases List.mem_append.mp hc with hc | hc
      · obtain ⟨f, p, rfl, _⟩ := exists_eq_addColumn hcolumns c hc
        cases hnone
      · obtain ⟨k, _, rfl⟩ := List.mem_map.mp hc
        exact ⟨.index, k, rfl⟩
    · obtain ⟨k, _, rfl⟩ := List.mem_map.mp hc
      exact ⟨.unique, k, rfl⟩

/-- **Columns keep their order.**  A plan for an existing table adds each missing
column once, in the order of the record type, and no other change of it is about
columns.  Behind it the columns that were there are in their old order and names
that were different still are; an added column is directly behind its neighbour
in the record type, or the first of all if it is the first there; and if the
columns that were there are in the order of the record type and known to it, the
table has exactly its columns in its order. -/
theorem additions_keep_order {schema : Schema} {options : TableOptions} {live : LiveTable}
    {changes : List TableChange} (hschema : schema.names.Nodup)
    (h : SchemaPlan.additions schema options live = .ok changes) :
    (changes.filterMap TableChange.addedColumn? =
        schema.fields.filter (fun f => f.name ∉ live.fields.map (·.name)) ∧
      ∀ c ∈ changes, c.addedColumn? = none →
        ∃ kind key, c = .addKey options.tableName kind key) ∧
    ∃ final, runColumns? live.fields changes = some final ∧
      final.filter (fun f => f.name ∈ live.fields.map (·.name)) = live.fields ∧
      ((live.fields.map (·.name)).Nodup → (final.map (·.name)).Nodup) ∧
      (∀ before p f after, schema.fields = before ++ p :: f :: after →
        f.name ∉ live.fields.map (·.name) → [p.name, f.name] <:+: final.map (·.name)) ∧
      (∀ f after, schema.fields = f :: after → f.name ∉ live.fields.map (·.name) →
        final.head? = some f) ∧
      ((live.fields.map (·.name)).Sublist schema.names →
        final.map (·.name) = schema.names) := by
  refine ⟨addedColumns_additions hschema h, ?_⟩
  obtain ⟨final, hrun, hcompleted⟩ := exists_runColumns?_additions h
  refine ⟨final, hrun, ?_, hcompleted.nodup_names, ?_, ?_, ?_⟩
  · rw [hcompleted.filter_eq fun f _ hmissing => by simpa using hmissing]
    rw [List.filter_eq_self]
    intro f hf
    simpa using ⟨f, hf, rfl⟩
  · intro before p f after heq hmissing
    rw [heq] at hcompleted
    rw [Schema.names, heq] at hschema
    exact hcompleted.adjacent hmissing hschema
  · intro f after heq hmissing
    rw [heq] at hcompleted
    exact hcompleted.head?_eq_first hmissing
  · intro hsub
    have hstart : live.fields.map (·.name) = [] ++ live.fields.map (·.name) := rfl
    exact hcompleted.names_eq hstart rfl hschema hsub

/-- The law at the table of visits: the two new columns stand together, between
two columns that were there. -/
theorem additions_keep_order_visits :
    visits.names.Nodup ∧ ∃ changes final,
      SchemaPlan.additions visits visitOptions visitTable = .ok changes ∧
        runColumns? visitTable.fields changes = some final ∧
        ["id", "page"] <:+: final.map (·.name) ∧ ["page", "agent"] <:+: final.map (·.name) := by
  have hnames : visits.names.Nodup := by decide
  obtain ⟨changes, hchanges⟩ : ∃ changes,
      SchemaPlan.additions visits visitOptions visitTable = .ok changes := ⟨_, rfl⟩
  obtain ⟨_, final, hrun, _, _, hadjacent, _, _⟩ := additions_keep_order hnames hchanges
  refine ⟨hnames, changes, final, hchanges, hrun, ?_, ?_⟩
  · exact hadjacent [] _ _ _ rfl (by decide)
  · exact hadjacent [_] _ _ _ rfl (by decide)

end TableMapper
