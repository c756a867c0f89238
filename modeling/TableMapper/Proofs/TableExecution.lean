import Mathlib.Data.List.Induction
import Mathlib.Logic.Function.Basic
import Mathlib.Tactic.SplitIfs
import TableMapper.Reconcile.Plan

/-!
# Executing changes

What the database does with the changes of a table.  A new table has the columns
and the keys it is created with; if there is a table of the name already, its
creation does nothing.  A column goes to its place, unless there is one of its
name already or the column that it is to stand behind is missing.  A key is
added unless there is one of its name.  Names are equal only if they are the
same text.

* `Database.run?` — the database behind a list of statements, none if one of
  them is rejected;
* `PlacedColumn` — what adding a column does to the columns;
* `LiveTable.run?_eq_some` — columns and keys do not depend on each other.
-/

namespace TableMapper

namespace Dict

variable {α : Type} {k : String}

/-- A dictionary contains the keys of its entries. -/
theorem contains_iff {d : Dict α} : d.contains k = true ↔ k ∈ d.entries.map (·.1) := by
  simp [contains, find?]

/-- An insertion adds one key to those of the entries. -/
theorem mem_insertEntry_names {k' : String} {v : α} {es : List (String × α)} :
    k' ∈ (insertEntry k v es).map (·.1) ↔ k' = k ∨ k' ∈ es.map (·.1) := by
  induction es with
  | nil => simp [insertEntry]
  | cons e es ih =>
      unfold insertEntry
      split_ifs with hless heq
      · rw [List.map_cons, List.mem_cons]
      · rw [List.map_cons, List.map_cons, List.mem_cons, List.mem_cons, heq]
        simp
      · rw [List.map_cons, List.mem_cons, ih, List.map_cons, List.mem_cons]
        exact or_left_comm

/-- An insertion adds one key. -/
theorem contains_insert {d : Dict α} {k' : String} {v : α} :
    (d.insert k v).contains k' = true ↔ k' = k ∨ d.contains k' = true := by
  rw [contains_iff, contains_iff]
  exact mem_insertEntry_names

/-- The last entry of a list is inserted last. -/
theorem ofList_append_singleton (es : List (String × α)) (e : String × α) :
    ofList (es ++ [e]) = (ofList es).insert e.1 e.2 := by
  rw [ofList, List.foldl_append]
  rfl

/-- A dictionary of a list contains the keys of the list. -/
theorem contains_ofList {es : List (String × α)} :
    (ofList es).contains k = true ↔ k ∈ es.map (·.1) := by
  induction es using List.reverseRecOn with
  | nil => simp [ofList, contains, find?, empty]
  | append_singleton es e ih =>
      rw [ofList_append_singleton, contains_insert, ih, List.map_append, List.mem_append,
        List.map_singleton, List.mem_singleton]
      exact or_comm

end Dict

/-- The columns with `f` directly behind the column `p`. -/
def insertBehind (p : String) (f : Field) : List Field → Option (List Field)
  | [] => none
  | g :: gs => if g.name = p then some (g :: f :: gs) else (insertBehind p f gs).map (g :: ·)

/-- The columns with `f` behind its predecessor, or else in front of all. -/
def placeColumn? (f : Field) (predecessor : Option String) (columns : List Field) :
    Option (List Field) :=
  if f.name ∈ columns.map (·.name) then none
  else
    match predecessor with
    | none => some (f :: columns)
    | some p => insertBehind p f columns

/-- The second columns are the first ones with `f` at its place. -/
inductive PlacedColumn (f : Field) : Option String → List Field → List Field → Prop
  | first (columns : List Field) : PlacedColumn f none columns (f :: columns)
  | behind (before : List Field) {g : Field} (hfirst : g.name ∉ before.map (·.name))
      (after : List Field) :
      PlacedColumn f (some g.name) (before ++ g :: after) (before ++ g :: f :: after)

/-- Behind a column that is there a new one gets its place. -/
theorem exists_insertBehind {p : String} {columns : List Field}
    (hp : p ∈ columns.map (·.name)) (f : Field) :
    ∃ columns', insertBehind p f columns = some columns' ∧
      PlacedColumn f (some p) columns columns' := by
  induction columns with
  | nil => exact absurd hp List.not_mem_nil
  | cons g gs ih =>
      by_cases hg : g.name = p
      · subst hg
        exact ⟨g :: f :: gs, if_pos rfl, PlacedColumn.behind [] List.not_mem_nil gs⟩
      · have hgs : p ∈ gs.map (·.name) := (List.mem_cons.mp hp).resolve_left (Ne.symm hg)
        obtain ⟨columns', heq, hplaced⟩ := ih hgs
        refine ⟨g :: columns', by rw [insertBehind, if_neg hg, heq]; rfl, ?_⟩
        cases hplaced with
        | @behind before h hfirst after =>
            refine PlacedColumn.behind (g :: before) ?_ after
            rw [List.map_cons, List.mem_cons, not_or]
            exact ⟨Ne.symm hg, hfirst⟩

/-- A new column whose predecessor is there gets its place. -/
theorem exists_placeColumn? {f : Field} {predecessor : Option String} {columns : List Field}
    (hnew : f.name ∉ columns.map (·.name))
    (hpredecessor : ∀ p ∈ predecessor, p ∈ columns.map (·.name)) :
    ∃ columns', placeColumn? f predecessor columns = some columns' ∧
      PlacedColumn f predecessor columns columns' := by
  unfold placeColumn?
  rw [if_neg hnew]
  cases predecessor with
  | none => exact ⟨f :: columns, rfl, PlacedColumn.first columns⟩
  | some p => exact exists_insertBehind (hpredecessor p rfl) f

/-- Placing a column brings in this one and moves no other out. -/
theorem PlacedColumn.perm {f : Field} {predecessor : Option String} {columns columns' : List Field}
    (h : PlacedColumn f predecessor columns columns') : columns'.Perm (f :: columns) := by
  cases h with
  | first => exact List.Perm.refl _
  | @behind before g hfirst after =>
      rw [List.append_cons before g (f :: after), List.append_cons before g after]
      exact List.perm_middle

/-- The names behind a placing are those before, and the new one. -/
theorem PlacedColumn.mem_names {f : Field} {predecessor : Option String}
    {columns columns' : List Field} (h : PlacedColumn f predecessor columns columns') {n : String} :
    n ∈ columns'.map (·.name) ↔ n = f.name ∨ n ∈ columns.map (·.name) := by
  rw [(h.perm.map (·.name)).mem_iff, List.map_cons, List.mem_cons]

namespace LiveKeys

/-- The keys with one more. -/
def insert (keys : LiveKeys) (key : Key) : KeyKind → LiveKeys
  | .index => { keys with indexes := keys.indexes.insert key.name key }
  | .unique => { keys with uniques := keys.uniques.insert key.name key }

/-- The keys with one more, whose name no other may have. -/
def add? (keys : LiveKeys) (kind : KeyKind) (key : Key) : Option LiveKeys :=
  if keys.contains key.name then none else some (keys.insert key kind)

/-- A new key adds its name to those of the live keys. -/
theorem contains_insert (keys : LiveKeys) (kind : KeyKind) (key : Key) {n : String} :
    (keys.insert key kind).contains n = true ↔ n = key.name ∨ keys.contains n = true := by
  cases kind with
  | index => simp only [contains, insert, Bool.or_eq_true, Dict.contains_insert, or_assoc]
  | unique =>
      simp only [contains, insert, Bool.or_eq_true, Dict.contains_insert]
      exact or_left_comm

end LiveKeys

namespace TableChange

/-- The table that a change is about. -/
def table : TableChange → String
  | create c => c.table
  | addColumn table _ _ => table
  | addKey table _ _ => table

/-- The columns of an existing table behind a change. -/
def columns? (columns : List Field) : TableChange → Option (List Field)
  | addColumn _ f predecessor => placeColumn? f predecessor columns
  | _ => some columns

/-- The keys of an existing table behind a change. -/
def keys? (keys : LiveKeys) : TableChange → Option LiveKeys
  | addKey _ kind key => keys.add? kind key
  | _ => some keys

end TableChange

/-- A table as it has been created. -/
def Creation.liveTable (c : Creation) : LiveTable where
  fields := c.fields
  keys :=
    { indexes := .ofList (c.indexes.map fun k => (k.name, k))
      uniques := .ofList (c.uniques.map fun k => (k.name, k)) }

/-- The columns behind several changes. -/
def runColumns? (columns : List Field) (cs : List TableChange) : Option (List Field) :=
  cs.foldlM TableChange.columns? columns

/-- The keys behind several changes. -/
def runKeys? (keys : LiveKeys) (cs : List TableChange) : Option LiveKeys :=
  cs.foldlM TableChange.keys? keys

namespace LiveTable

/-- An existing table behind a change. -/
def alter? (t : LiveTable) (c : TableChange) : Option LiveTable := do
  return { fields := ← c.columns? t.fields, keys := ← c.keys? t.keys }

/-- An existing table behind several changes. -/
def run? (t : LiveTable) (cs : List TableChange) : Option LiveTable :=
  cs.foldlM alter? t

/-- Columns and keys do not depend on each other. -/
theorem run?_eq_some {t : LiveTable} {cs : List TableChange} {fields : List Field}
    {keys : LiveKeys} (hfields : runColumns? t.fields cs = some fields)
    (hkeys : runKeys? t.keys cs = some keys) : t.run? cs = some ⟨fields, keys⟩ := by
  induction cs generalizing t with
  | nil =>
      cases hfields
      cases hkeys
      rfl
  | cons c cs ih =>
      rw [runColumns?, List.foldlM_cons] at hfields
      rw [runKeys?, List.foldlM_cons] at hkeys
      obtain ⟨nextFields, hstepFields, hrestFields⟩ := Option.bind_eq_some_iff.mp hfields
      obtain ⟨nextKeys, hstepKeys, hrestKeys⟩ := Option.bind_eq_some_iff.mp hkeys
      have hstep : t.alter? c = some ⟨nextFields, nextKeys⟩ := by
        rw [alter?, hstepFields, hstepKeys]
        rfl
      rw [run?, List.foldlM_cons, hstep]
      exact ih hrestFields hrestKeys

end LiveTable

/-- Tables by their names. -/
abbrev Database :=
  String → Option LiveTable

namespace Database

/-- What becomes of a table that may exist, if the change is accepted. -/
def change? : Option LiveTable → TableChange → Option LiveTable
  | some t, c => t.alter? c
  | none, .create c => some c.liveTable
  | none, _ => none

/-- The database behind a statement. -/
def execute? (db : Database) (c : TableChange) : Option Database :=
  (change? (db c.table) c).map fun t => Function.update db c.table (some t)

/-- The database behind several statements. -/
def run? (db : Database) (cs : List TableChange) : Option Database :=
  cs.foldlM execute? db

/-- Changes of one existing table leave the others alone. -/
theorem run?_eq_some {db : Database} {name : String} {t t' : LiveTable} {cs : List TableChange}
    (ht : db name = some t) (hcs : ∀ c ∈ cs, c.table = name) (hrun : t.run? cs = some t') :
    db.run? cs = some (Function.update db name (some t')) := by
  induction cs generalizing db t with
  | nil =>
      cases hrun
      rw [← ht, Function.update_eq_self]
      rfl
  | cons c cs ih =>
      rw [LiveTable.run?, List.foldlM_cons] at hrun
      obtain ⟨next, hstep, hrest⟩ := Option.bind_eq_some_iff.mp hrun
      have hc := hcs c List.mem_cons_self
      have hexecute : db.execute? c = some (Function.update db name (some next)) := by
        rw [execute?, hc, ht, change?, hstep]
        rfl
      have hnext : Function.update db name (some next) name = some next :=
        Function.update_self name (some next) db
      have htail := ih hnext (fun d hd => hcs d (List.mem_cons_of_mem _ hd)) hrest
      rw [Function.update_idem] at htail
      rw [run?, List.foldlM_cons, hexecute]
      exact htail

end Database

end TableMapper
