import Mathlib.Algebra.Group.Int.Defs
import Mathlib.Algebra.Group.Nat.Defs
import Mathlib.Data.List.Forall2
import Mathlib.Data.List.Perm.Basic
import TableMapper.Proofs.Attempt
import TableMapper.Proofs.DictLaws

/-!
# Reading live keys

The rows of `SHOW INDEX` come in no promised order: those of one key may stand apart,
with rows of other keys and of the primary key between them.  Reading them takes
whether a key is unique from its first row, and its columns in the order of their
places.  Neither depends on the order of the rows.

* `Live.find?_ofParts` — the keys that any parts make up;
* `LiveKeys.ListedBy` — the rows that list the keys, in any order;
* `Live.keys_of_listing` — which are read as just these keys.
-/

namespace TableMapper

namespace LiveKeys

/-- The keys that are unique, or those that are not. -/
def those (live : LiveKeys) : Bool → Dict Key
  | true => live.uniques
  | false => live.indexes

/-- All keys, each with whether it is unique. -/
def all (live : LiveKeys) : List (Bool × Key) :=
  live.indexes.entries.map (fun e => (false, e.2)) ++
    live.uniques.entries.map (fun e => (true, e.2))

/-- The keys are kept by their own names, no name is one of two keys or that of the
primary key, and every key has columns. -/
structure WellNamed (live : LiveKeys) : Prop where
  named : ∀ unique, ∀ e ∈ (live.those unique).entries, e.2.name = e.1
  distinct : ∀ name, live.indexes.contains name = true → live.uniques.contains name = false
  notPrimary : ∀ k ∈ live.all, Text.upper k.2.name ≠ "PRIMARY"
  columns : ∀ k ∈ live.all, k.2.columns ≠ []

/-- Keys are the same if those of either kind are. -/
theorem ext_those {live live' : LiveKeys} (h : ∀ unique, live.those unique = live'.those unique) :
    live = live' := by
  obtain ⟨indexes, uniques⟩ := live
  obtain ⟨indexes', uniques'⟩ := live'
  obtain rfl : indexes = indexes' := h false
  obtain rfl : uniques = uniques' := h true
  rfl

/-- All keys are those of either kind. -/
theorem mem_all {live : LiveKeys} {unique : Bool} {key : Key} :
    (unique, key) ∈ live.all ↔ ∃ name, (name, key) ∈ (live.those unique).entries := by
  cases unique with
  | false => simp [all, those]
  | true => simp [all, those]

/-- Under its name a well-named key is found, and no other. -/
theorem WellNamed.find?_those {live : LiveKeys} (h : live.WellNamed) {unique : Bool}
    {name : String} {key : Key} :
    (live.those unique).find? name = some key ↔ (unique, key) ∈ live.all ∧ key.name = name := by
  rw [Dict.find?_eq_some_iff, mem_all]
  constructor
  · intro hmem
    exact ⟨⟨name, hmem⟩, h.named unique _ hmem⟩
  · rintro ⟨⟨name', hmem⟩, rfl⟩
    rwa [h.named unique _ hmem]

/-- The names of well-named keys are distinct. -/
theorem WellNamed.nodup_names {live : LiveKeys} (h : live.WellNamed) :
    (live.all.map (·.2.name)).Nodup := by
  have hindexes : live.indexes.entries.map (·.2.name) = live.indexes.entries.map (·.1) :=
    List.map_congr_left (h.named false)
  have huniques : live.uniques.entries.map (·.2.name) = live.uniques.entries.map (·.1) :=
    List.map_congr_left (h.named true)
  have hall : live.all.map (·.2.name) =
      live.indexes.entries.map (·.1) ++ live.uniques.entries.map (·.1) := by
    rw [all, List.map_append, List.map_map, List.map_map, ← hindexes, ← huniques]
    rfl
  rw [hall]
  refine live.indexes.nodup_names.append live.uniques.nodup_names ?_
  intro name hindex hunique
  have habsent := h.distinct name (Dict.contains_iff.mpr hindex)
  rw [Dict.contains_iff.mpr hunique] at habsent
  cases habsent

end LiveKeys

namespace Live

/-- The kind of a key is that of its first part. -/
theorem find?_kinds (parts : List KeyPart) (name : String) :
    (Dict.ofList (parts.reverse.map fun p => (p.key, p.unique))).find? name =
      (parts.find? (·.key == name)).map (·.unique) := by
  rw [Dict.find?_ofList, ← List.map_reverse, List.reverse_reverse, Dict.valueAt?, List.find?_map,
    Option.map_map]
  rfl

/-- **The keys of any parts.**  A key is made up of all its parts, among the unique ones
exactly if its first part is one of a unique key. -/
theorem find?_ofParts {parts : List KeyPart} {unique : Bool} {name : String} {key : Key} :
    ((ofParts parts).those unique).find? name = some key ↔
      (parts.find? (·.key == name)).map (·.unique) = some unique ∧
        key = ⟨name, keyColumns parts name⟩ := by
  have hthose : (ofParts parts).those unique =
      .ofList (((Dict.ofList (parts.reverse.map fun p => (p.key, p.unique))).entries.filter
        (·.2 == unique)).map fun e => (e.1, ⟨e.1, keyColumns parts e.1⟩)) := by
    cases unique with
    | false => rfl
    | true => rfl
  rw [hthose, Dict.find?_ofList_eq_some_iff, List.mem_map, ← find?_kinds, Dict.find?_eq_some_iff]
  · constructor
    · rintro ⟨⟨name', unique'⟩, hmem, heq⟩
      obtain ⟨hentry, hunique⟩ := List.mem_filter.mp hmem
      obtain ⟨rfl, rfl⟩ := Prod.ext_iff.mp heq
      obtain rfl : unique' = unique := by simpa using hunique
      exact ⟨hentry, rfl⟩
    · rintro ⟨hmem, rfl⟩
      exact ⟨(name, unique), List.mem_filter.mpr ⟨hmem, by simp⟩, rfl⟩
  · -- each text stands at most once among the kinds
    rw [List.map_map]
    exact (Dict.nodup_names _).sublist (List.filter_sublist.map _)

/-- The parts of a key: each says so, and their columns stand at increasing places. -/
structure PartsOf (unique : Bool) (key : Key) (parts : List KeyPart) : Prop where
  own : ∀ p ∈ parts, p.key = key.name ∧ p.unique = unique
  columns : parts.map (·.column) = key.columns
  increasing : parts.Pairwise (·.place < ·.place)

/-- All parts of a key are its own. -/
theorem PartsOf.filter_self {unique : Bool} {key : Key} {ps : List KeyPart}
    (h : PartsOf unique key ps) : ps.filter (·.key == key.name) = ps := by
  rw [List.filter_eq_self]
  intro p hp
  simpa using (h.own p hp).1

/-- No part of a key is one of another name. -/
theorem PartsOf.filter_of_ne {unique : Bool} {key : Key} {ps : List KeyPart}
    (h : PartsOf unique key ps) {name : String} (hname : name ≠ key.name) :
    ps.filter (·.key == name) = [] := by
  rw [List.filter_eq_nil_iff]
  intro p hp hkey
  have hkey : p.key = name := by simpa using hkey
  exact hname (hkey ▸ (h.own p hp).1)

/-- Parts in any order are put in the order of their places. -/
theorem keyColumns_of_perm {parts ps : List KeyPart} {unique : Bool} {key : Key}
    (hps : PartsOf unique key ps) (hperm : (parts.filter (·.key == key.name)).Perm ps) :
    keyColumns parts key.name = key.columns := by
  have hsort := (List.mergeSort_perm (parts.filter (·.key == key.name))
    fun a b => decide (a.place ≤ b.place)).trans hperm
  have hsorted : ((parts.filter (·.key == key.name)).mergeSort
      fun a b => decide (a.place ≤ b.place)).Pairwise (·.place ≤ ·.place) := by
    refine (List.pairwise_mergeSort ?_ ?_ _).imp of_decide_eq_true
    · intro a b c hab hbc
      exact decide_eq_true (le_trans (of_decide_eq_true hab) (of_decide_eq_true hbc))
    · intro a b
      simpa using le_total a.place b.place
  have hnodup : (ps.map (·.place)).Nodup := by
    rw [List.nodup_iff_pairwise_ne, List.pairwise_map]
    exact hps.increasing.imp ne_of_lt
  -- no two parts are at one place, so their order is the only one
  have hplace : ∀ a b, a ∈ ps → b ∈ ps → a.place ≤ b.place → b.place ≤ a.place → a = b :=
    fun a b ha hb hab hba => List.inj_on_of_nodup_map hnodup ha hb (le_antisymm hab hba)
  have heq := hsort.eq_of_pairwise (fun a b ha hb => hplace a b (hsort.subset ha) hb) hsorted
    (hps.increasing.imp le_of_lt)
  rw [keyColumns, heq, hps.columns]

section Parts

variable {ks : List (Bool × Key)} {pss : List (List KeyPart)} {name : String}

/-- No part is one of a key that is not there. -/
theorem filter_parts_of_absent (h : List.Forall₂ (fun k ps => PartsOf k.1 k.2 ps) ks pss)
    (hname : name ∉ ks.map (·.2.name)) : pss.flatten.filter (·.key == name) = [] := by
  induction h with
  | nil => rfl
  | @cons k ps ks pss hfirst _ ih =>
      rw [List.map_cons, List.mem_cons, not_or] at hname
      rw [List.flatten_cons, List.filter_append, hfirst.filter_of_ne hname.1, ih hname.2,
        List.append_nil]

/-- The parts under the name of a key are the parts of that key. -/
theorem filter_parts (h : List.Forall₂ (fun k ps => PartsOf k.1 k.2 ps) ks pss)
    (hnames : (ks.map (·.2.name)).Nodup) {k : Bool × Key} (hk : k ∈ ks) :
    PartsOf k.1 k.2 (pss.flatten.filter (·.key == k.2.name)) := by
  induction h with
  | nil => exact absurd hk List.not_mem_nil
  | @cons first ps ks pss hfirst hrest ih =>
      rw [List.map_cons, List.nodup_cons] at hnames
      rw [List.flatten_cons, List.filter_append]
      rcases List.mem_cons.mp hk with rfl | hk
      · rwa [hfirst.filter_self, filter_parts_of_absent hrest hnames.1, List.append_nil]
      · have hne : k.2.name ≠ first.2.name := by
          intro hname
          exact hnames.1 (hname ▸ List.mem_map_of_mem hk)
        rw [hfirst.filter_of_ne hne, List.nil_append]
        exact ih hnames.2 hk

/-- Parts in any order make up the keys that they are parts of. -/
theorem find?_ofParts_of_perm (h : List.Forall₂ (fun k ps => PartsOf k.1 k.2 ps) ks pss)
    (hnames : (ks.map (·.2.name)).Nodup) (hcolumns : ∀ k ∈ ks, k.2.columns ≠ [])
    {parts : List KeyPart} (hperm : parts.Perm pss.flatten) {unique : Bool} {key : Key} :
    ((ofParts parts).those unique).find? name = some key ↔
      (unique, key) ∈ ks ∧ key.name = name := by
  -- a key that is there has a first part, which is its own
  have hfirst : ∀ k ∈ ks,
      (parts.find? (·.key == k.2.name)).map (·.unique) = some k.1 ∧
        keyColumns parts k.2.name = k.2.columns := by
    intro k hk
    have hps := filter_parts h hnames hk
    have hown := hperm.filter (·.key == k.2.name)
    refine ⟨?_, keyColumns_of_perm hps hown⟩
    rw [← List.head?_filter]
    cases hparts : parts.filter (·.key == k.2.name) with
    | nil =>
        rw [hparts] at hown
        refine absurd ?_ (hcolumns k hk)
        rw [← hps.columns, ← hown.nil_eq, List.map_nil]
    | cons p ps =>
        have hp : p ∈ parts.filter (·.key == k.2.name) := hparts ▸ List.mem_cons_self
        exact congrArg some (hps.own p (hown.subset hp)).2
  rw [find?_ofParts]
  constructor
  · rintro ⟨hkind, rfl⟩
    have hname : name ∈ ks.map (·.2.name) := by
      by_contra habsent
      have hown := hperm.filter (·.key == name)
      rw [filter_parts_of_absent h habsent] at hown
      rw [← List.head?_filter, hown.eq_nil] at hkind
      cases hkind
    obtain ⟨k, hk, rfl⟩ := List.mem_map.mp hname
    obtain ⟨hunique, hkey⟩ := hfirst k hk
    rw [hunique] at hkind
    cases hkind
    rw [hkey]
    exact ⟨hk, rfl⟩
  · rintro ⟨hk, rfl⟩
    obtain ⟨hunique, hkey⟩ := hfirst _ hk
    exact ⟨hunique, by rw [hkey]⟩

end Parts

/-- What a row says: the key that it belongs to, whether that is unique, and the column
with its place in the key. -/
structure Says (row : Row) (part : KeyPart) : Prop where
  key : row.readText "Key_name" = .ok part.key
  unique : ∃ nonUnique, row.readInteger true .w64 "Non_unique" = .ok nonUnique ∧
    (nonUnique = 0 ↔ part.unique = true)
  column : row.readText "Column_name" = .ok part.column
  place : row.readInteger false .w32 "Seq_in_index" = .ok part.place

/-- The row of a part. -/
def KeyPart.row (p : KeyPart) : Row where
  entries :=
    [("Non_unique", .int (if p.unique then 0 else 1)), ("Key_name", .text p.key),
      ("Seq_in_index", .unsigned (UInt64.ofNat p.place.toNat)), ("Column_name", .text p.column)]

/-- An integer that a row has within its range is read. -/
theorem readInteger_eq_ok {row : Row} {signed : Bool} {width : Width} {column : String}
    {v : Value} {n : Int} (hget : row.get? column = some v)
    (hn : Scalar.integer? signed v = some n) (hrange : Scalar.inRange signed width n = true) :
    row.readInteger signed width column = .ok n := by
  have htake : (Scalar.integer? signed v).filter (Scalar.inRange signed width) = some n := by
    rw [hn, Option.filter_some, if_pos hrange]
  rw [Row.readInteger, Row.readAs, hget]
  simp only [htake]

/-- The row that is made for a part says the part. -/
theorem says_row {p : KeyPart} (hlow : 0 ≤ p.place) (hhigh : p.place < 2 ^ 32) :
    Says p.row p where
  key := rfl
  unique := by
    cases hunique : p.unique with
    | false =>
        refine ⟨1, readInteger_eq_ok (v := .int 1) ?_ rfl (by decide), by simp⟩
        simp [KeyPart.row, Row.get?, hunique]
    | true =>
        refine ⟨0, readInteger_eq_ok (v := .int 0) ?_ rfl (by decide), by simp⟩
        simp [KeyPart.row, Row.get?, hunique]
  column := rfl
  place := by
    have hplace : Scalar.integer? false (.unsigned (UInt64.ofNat p.place.toNat)) =
        some p.place := by
      have hsize : p.place.toNat < 2 ^ 64 := by omega
      simp only [Scalar.integer?, UInt64.toNat_ofNat_of_lt' hsize, Int.toNat_of_nonneg hlow]
    have hrange : Scalar.inRange false .w32 p.place = true := by
      rw [Scalar.inRange, if_neg Bool.false_ne_true, Bool.and_eq_true, decide_eq_true_iff,
        decide_eq_true_iff]
      exact ⟨hlow, hhigh⟩
    exact readInteger_eq_ok rfl hplace hrange

/-- A row of the primary key, however its name is written. -/
def OfPrimaryKey (row : Row) : Prop :=
  ∃ name, row.readText "Key_name" = .ok name ∧ Text.upper name = "PRIMARY"

/-- The rows list a key: one row for each of its columns, at increasing places. -/
def ListsKey (unique : Bool) (key : Key) (rows : List Row) : Prop :=
  ∃ parts, List.Forall₂ Says rows parts ∧ PartsOf unique key parts

/-- A row that says a part is read as it. -/
theorem Says.keyPart? {row : Row} {part : KeyPart} (h : Says row part)
    (hprimary : Text.upper part.key ≠ "PRIMARY") : keyPart? row = .ok (some part) := by
  obtain ⟨key, unique, place, column⟩ := part
  obtain ⟨nonUnique, hflag, hunique⟩ := h.unique
  have hdecide : decide (nonUnique = 0) = unique := by
    rw [Bool.eq_iff_iff, decide_eq_true_iff]
    exact hunique
  rw [Live.keyPart?, h.key, ok_bind, if_neg hprimary, hflag, h.column, h.place, ← hdecide]
  rfl

/-- A row of the primary key is passed over. -/
theorem OfPrimaryKey.keyPart? {row : Row} (h : OfPrimaryKey row) :
    Live.keyPart? row = .ok none := by
  obtain ⟨name, hname, hprimary⟩ := h
  rw [Live.keyPart?, hname, ok_bind, if_pos hprimary]
  rfl

/-- Steps along a list in another order give the results in another order. -/
theorem exists_mapM_of_perm {ε α β : Type} {f : α → Except ε β} {l l' : List α} {bs : List β}
    (hperm : l.Perm l') (h : l'.mapM f = .ok bs) :
    ∃ bs', l.mapM f = .ok bs' ∧ bs'.Perm bs := by
  obtain ⟨bs', hbs', hperm'⟩ := List.perm_comp_forall₂ hperm (mapM_eq_ok_iff.mp h)
  exact ⟨bs', mapM_eq_ok_iff.mpr hbs', hperm'⟩

/-- The rows that list keys are read as the parts of these keys. -/
theorem exists_parts {ks : List (Bool × Key)} {listed : List (List Row)}
    (h : List.Forall₂ (fun k keyRows => ListsKey k.1 k.2 keyRows) ks listed)
    (hprimary : ∀ k ∈ ks, Text.upper k.2.name ≠ "PRIMARY") :
    ∃ pss, List.Forall₂ (fun k ps => PartsOf k.1 k.2 ps) ks pss ∧
      List.Forall₂ (fun row part? => keyPart? row = .ok part?) listed.flatten
        (pss.flatten.map some) := by
  induction h with
  | nil => exact ⟨[], .nil, .nil⟩
  | @cons k keyRows ks listed hfirst _ ih =>
      obtain ⟨pss, hpss, hread⟩ := ih fun k' hk' => hprimary k' (List.mem_cons_of_mem k hk')
      obtain ⟨ps, hsays, hps⟩ := hfirst
      refine ⟨ps :: pss, .cons hps hpss, ?_⟩
      rw [List.flatten_cons, List.flatten_cons, List.map_append]
      refine List.rel_append ?_ hread
      rw [List.forall₂_map_right_iff]
      have hname : ∀ p ∈ ps, Text.upper p.key ≠ "PRIMARY" := by
        intro p hp
        rw [(hps.own p hp).1]
        exact hprimary k List.mem_cons_self
      refine ((List.forall₂_and_left ps keyRows).mpr ⟨hname, hsays.flip⟩).flip.imp ?_
      rintro row p ⟨hp, hrow⟩
      exact hrow.keyPart? hp

end Live

/-- The rows list the keys and perhaps the primary key, in any order. -/
def LiveKeys.ListedBy (live : LiveKeys) (rows : List Row) : Prop :=
  ∃ listed primary,
    List.Forall₂ (fun k keyRows => Live.ListsKey k.1 k.2 keyRows) live.all listed ∧
    (∀ row ∈ primary, Live.OfPrimaryKey row) ∧ rows.Perm (listed.flatten ++ primary)

namespace LiveKeys

/-- The rows of all keys, with the places of a key's columns counted from one. -/
def rows (live : LiveKeys) : List Row :=
  live.all.flatMap fun k =>
    (k.2.columns.zipIdx 1).map fun c => Live.KeyPart.row ⟨k.2.name, k.1, c.2, c.1⟩

/-- There are rows that list the keys, unless a key has too many columns to count. -/
theorem listedBy_rows {live : LiveKeys}
    (hshort : ∀ k ∈ live.all, k.2.columns.length < 2 ^ 32) : live.ListedBy live.rows := by
  refine ⟨live.all.map fun k => (k.2.columns.zipIdx 1).map fun c =>
    Live.KeyPart.row ⟨k.2.name, k.1, c.2, c.1⟩, [], ?_, by simp, ?_⟩
  · rw [List.forall₂_map_right_iff, List.forall₂_same]
    rintro ⟨unique, key⟩ hk
    refine ⟨(key.columns.zipIdx 1).map fun c => ⟨key.name, unique, c.2, c.1⟩, ?_, ?_, ?_, ?_⟩
    · rw [List.forall₂_map_left_iff, List.forall₂_map_right_iff, List.forall₂_same]
      rintro ⟨column, place⟩ hplace
      have hlast : place < key.columns.length + 1 := List.snd_lt_of_mem_zipIdx hplace
      have hkey : key.columns.length < 2 ^ 32 := hshort _ hk
      have hhigh : (place : Int) < 2 ^ 32 := by omega
      exact Live.says_row (Int.natCast_nonneg place) hhigh
    · intro p hp
      obtain ⟨c, _, rfl⟩ := List.mem_map.mp hp
      exact ⟨rfl, rfl⟩
    · rw [List.map_map]
      exact List.zipIdx_map_fst 1 key.columns
    · have hplaces : ((key.columns.zipIdx 1).map Prod.snd).Pairwise (· < ·) := by
        rw [List.zipIdx_map_snd]
        exact List.pairwise_lt_range'
      rw [List.pairwise_map] at hplaces ⊢
      exact hplaces.imp Int.ofNat_lt.mpr
  · rw [List.append_nil, ← List.flatMap_def]
    exact .refl _

/-- Rows list the same keys in any order. -/
theorem ListedBy.perm {live : LiveKeys} {rows rows' : List Row} (h : live.ListedBy rows)
    (hperm : rows'.Perm rows) : live.ListedBy rows' := by
  obtain ⟨listed, primary, hlisted, hprimary, hrows⟩ := h
  exact ⟨listed, primary, hlisted, hprimary, hperm.trans hrows⟩

/-- A row of the primary key lists nothing more. -/
theorem ListedBy.cons_primary {live : LiveKeys} {rows : List Row} (h : live.ListedBy rows)
    {row : Row} (hrow : Live.OfPrimaryKey row) : live.ListedBy (row :: rows) := by
  obtain ⟨listed, primary, hlisted, hprimary, hrows⟩ := h
  refine ⟨listed, row :: primary, hlisted, List.forall_mem_cons.mpr ⟨hrow, hprimary⟩, ?_⟩
  exact (hrows.cons row).trans List.perm_middle.symm

end LiveKeys

namespace Live

/-- **Live keys are read in any order of the rows.**  Whatever the order of the rows that
list the keys, and however many rows of the primary key stand between them, just these
keys are read. -/
theorem keys_of_listing {live : LiveKeys} {rows : List Row} (hlive : live.WellNamed)
    (hrows : live.ListedBy rows) : keys rows = .ok live := by
  obtain ⟨listed, primary, hlisted, hprimary, hperm⟩ := hrows
  obtain ⟨pss, hpss, hparts⟩ := exists_parts hlisted hlive.notPrimary
  have hskipped : List.Forall₂ (fun row part? => keyPart? row = .ok part?) primary
      (primary.map fun _ => none) := by
    rw [List.forall₂_map_right_iff, List.forall₂_same]
    exact fun row hrow => (hprimary row hrow).keyPart?
  obtain ⟨parts?, hread, hparts?⟩ := exists_mapM_of_perm hperm
    (mapM_eq_ok_iff.mpr (List.rel_append hparts hskipped))
  -- rows of the primary key leave no part
  have hall : (parts?.filterMap id).Perm pss.flatten := by
    have hkept : (pss.flatten.map some).filterMap id = pss.flatten := by
      rw [List.filterMap_map]
      exact List.filterMap_some
    have hnone : (primary.map fun _ => (none : Option KeyPart)).filterMap id = [] := by
      simp
    refine (hparts?.filterMap id).trans (.of_eq ?_)
    rw [List.filterMap_append, hkept, hnone, List.append_nil]
  rw [keys, hread, ok_bind]
  refine congrArg Except.ok (LiveKeys.ext_those fun unique => Dict.ext_find? fun name => ?_)
  refine Option.ext fun key => ?_
  rw [find?_ofParts_of_perm hpss hlive.nodup_names hlive.columns hall, hlive.find?_those]

/-- An index over two columns and a unique key. -/
def twoKeys : LiveKeys where
  indexes := .ofList [("idx_name_created", ⟨"idx_name_created", ["name", "created"]⟩)]
  uniques := .ofList [("uniq_email", ⟨"uniq_email", ["email"]⟩)]

/-- The second column of the index comes before its first one, with the unique key and
the primary key between them. -/
theorem keys_of_listing_interleaved :
    twoKeys.WellNamed ∧
      keys [KeyPart.row ⟨"idx_name_created", false, 2, "created"⟩,
        KeyPart.row ⟨"uniq_email", true, 1, "email"⟩,
        KeyPart.row ⟨"Primary", true, 1, "id"⟩,
        KeyPart.row ⟨"idx_name_created", false, 1, "name"⟩] = .ok twoKeys := by
  have hnames : ∀ k ∈ twoKeys.all, (Text.upper k.2.name).toList ≠ "PRIMARY".toList := by
    simp only [Text.upper, String.toList_map]
    decide
  have hprimary : Text.upper "Primary" = "PRIMARY" := by
    rw [← String.toList_inj, Text.upper, String.toList_map]
    decide
  have hnamed : twoKeys.WellNamed :=
    { named := by decide
      distinct := by
        intro name hname
        rw [Dict.contains_iff] at hname
        obtain rfl : name = "idx_name_created" := List.mem_singleton.mp hname
        decide
      notPrimary := fun k hk hname => hnames k hk (congrArg String.toList hname)
      columns := by decide }
  have hlisted : twoKeys.ListedBy (KeyPart.row ⟨"Primary", true, 1, "id"⟩ :: twoKeys.rows) :=
    (LiveKeys.listedBy_rows (by decide)).cons_primary ⟨"Primary", rfl, hprimary⟩
  exact ⟨hnamed, keys_of_listing hnamed (hlisted.perm (by decide))⟩

end Live

end TableMapper
