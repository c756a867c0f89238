import TableMapper.Proofs.CheckedOptions
import TableMapper.Proofs.Convergence

/-!
# Names of unnamed keys

A key that is declared without a name gets one that is made of the names of its columns,
with underscores between them.  A column may have underscores of its own, so the name
only tells which pieces between underscores the columns are made of, not where one column
ends.  This file says which keys are told apart by such names.

* `splitOn_joined`, `intercalate_eq_iff` — joined texts and the pieces they are cut
  into;
* `KeyKind.madeName_eq_iff` — two names that are made up are the same;
* `SchemaPlan.definedKeys_sublist` — the keys that a plan defines;
* `unnamed_keys_apart` — the names of unnamed keys and the keys that a plan defines;
* `underscores_collide` — different keys of one name.
-/

namespace TableMapper

section Joined

variable {α : Type} [BEq α] [LawfulBEq α] {sep : α} {ws vs : List (List α)}

/-- Joined texts are cut into the pieces of each. -/
theorem splitOn_joined (hws : ws ≠ []) :
    ([sep].intercalate ws).splitOn sep = ws.flatMap (·.splitOn sep) := by
  induction ws with
  | nil => exact absurd rfl hws
  | cons w ws ih =>
      cases ws with
      | nil => simp
      | cons v ws =>
          have hcut : (w ++ sep :: [sep].intercalate (v :: ws)).splitOn sep =
              w.splitOn sep ++ ([sep].intercalate (v :: ws)).splitOn sep :=
            List.splitOnP_append_cons w _ (by simp)
          rw [List.intercalate_cons_cons, List.append_assoc, List.singleton_append, hcut,
            ih (List.cons_ne_nil v ws)]
          rfl

/-- Lists of texts are joined to one text exactly if they have the same pieces. -/
theorem intercalate_eq_iff (hws : ws ≠ []) (hvs : vs ≠ []) :
    [sep].intercalate ws = [sep].intercalate vs ↔
      ws.flatMap (·.splitOn sep) = vs.flatMap (·.splitOn sep) := by
  rw [← splitOn_joined hws, ← splitOn_joined hvs]
  constructor
  · intro h
    rw [h]
  · intro h
    calc [sep].intercalate ws
        = [sep].intercalate (([sep].intercalate ws).splitOn sep) :=
          (List.intercalate_splitOn sep).symm
      _ = [sep].intercalate (([sep].intercalate vs).splitOn sep) := by rw [h]
      _ = [sep].intercalate vs := List.intercalate_splitOn sep

/-- Texts without the separator are their own pieces. -/
theorem flatMap_splitOn_of_not_mem (hws : ∀ w ∈ ws, sep ∉ w) :
    ws.flatMap (·.splitOn sep) = ws := by
  cases ws with
  | nil => rfl
  | cons w ws =>
      rw [← splitOn_joined (List.cons_ne_nil w ws),
        List.splitOn_intercalate sep hws (List.cons_ne_nil w ws)]

end Joined

/-- The pieces between underscores that columns are made of. -/
def columnPieces (columns : List String) : List (List Char) :=
  (columns.map String.toList).flatMap (·.splitOn '_')

/-- A column without underscores. -/
def PlainColumn (column : String) : Prop :=
  '_' ∉ column.toList

instance (column : String) : Decidable (PlainColumn column) :=
  inferInstanceAs (Decidable (¬_))

/-- Columns without underscores are told by their pieces. -/
theorem columnPieces_eq_iff {columns columns' : List String}
    (h : ∀ c ∈ columns, PlainColumn c) (h' : ∀ c ∈ columns', PlainColumn c) :
    columnPieces columns = columnPieces columns' ↔ columns = columns' := by
  have hplain {cs : List String} (hcs : ∀ c ∈ cs, PlainColumn c) :
      columnPieces cs = cs.map String.toList :=
    flatMap_splitOn_of_not_mem (List.forall_mem_map.mpr hcs)
  rw [hplain h, hplain h']
  exact List.map_inj_right fun _ _ h => String.toList_injective h

namespace KeyKind

/-- A made name as characters: its beginning, and the columns with underscores. -/
theorem toList_madeName (kind : KeyKind) (columns : List String) :
    (kind.madeName columns).toList =
      kind.nameStart.toList ++ ['_'].intercalate (columns.map String.toList) := by
  rw [madeName, String.toList_append, String.toList_intercalate]
  rfl

/-- Names that are made up tell the kinds apart by their first letter. -/
theorem eq_of_madeName {kind kind' : KeyKind} {columns columns' : List String}
    (h : kind.madeName columns = kind'.madeName columns') : kind = kind' := by
  have hhead := congrArg (fun s : String => s.toList.head?) h
  simp only [toList_madeName] at hhead
  cases kind <;> cases kind' <;> simp [nameStart] at hhead ⊢

/-- Two names that are made up are the same exactly for keys of one kind whose columns
are made of the same pieces. -/
theorem madeName_eq_iff {kind kind' : KeyKind} {columns columns' : List String}
    (h : columns ≠ []) (h' : columns' ≠ []) :
    kind.madeName columns = kind'.madeName columns' ↔
      kind = kind' ∧ columnPieces columns = columnPieces columns' := by
  have hjoined : kind.madeName columns = kind.madeName columns' ↔
      columnPieces columns = columnPieces columns' := by
    rw [← String.toList_inj, toList_madeName, toList_madeName, List.append_cancel_left_eq]
    exact intercalate_eq_iff (by simpa using h) (by simpa using h')
  constructor
  · intro heq
    have hkind := eq_of_madeName heq
    subst hkind
    exact ⟨rfl, hjoined.mp heq⟩
  · rintro ⟨rfl, hpieces⟩
    exact hjoined.mpr hpieces

end KeyKind

/-- The keys that a change defines, each with its kind. -/
def TableChange.definedKeys : TableChange → List KindedKey
  | create c => c.indexes.map (⟨.index, ·⟩) ++ c.uniques.map (⟨.unique, ·⟩)
  | addColumn _ _ _ => []
  | addKey _ kind key => [⟨kind, key⟩]

/-- The keys that a plan defines, in order. -/
def SchemaPlan.definedKeys (p : SchemaPlan) : List KindedKey :=
  p.changes.flatMap TableChange.definedKeys

/-- The keys that are added are declared ones, in their order. -/
theorem definedKeys_missingKeys (table : String) (kind : KeyKind) (live : LiveKeys)
    (keys : List Key) :
    ((SchemaPlan.missingKeys table kind live keys).flatMap TableChange.definedKeys).Sublist
      (keys.map (⟨kind, ·⟩)) := by
  have hone : (SchemaPlan.missingKeys table kind live keys).flatMap TableChange.definedKeys =
      (keys.filter fun k => !live.contains k.name).map (⟨kind, ·⟩) := by
    rw [SchemaPlan.missingKeys, List.flatMap_map, List.map_eq_flatMap]
    rfl
  rw [hone]
  exact List.filter_sublist.map _

/-- A plan defines declared keys only, each once, and in their order. -/
theorem SchemaPlan.definedKeys_sublist {schema : Schema} {o : TableOptions}
    {defaults : TableDefaults} {live : Option LiveTable} {p : SchemaPlan}
    (h : SchemaPlan.make schema o defaults live = .ok p) : p.definedKeys.Sublist o.keys := by
  cases live with
  | none =>
      cases h
      rw [definedKeys, List.flatMap_singleton]
      exact List.Sublist.refl _
  | some live =>
      obtain ⟨changes, hchanges, rfl⟩ := map_eq_ok.mp h
      obtain ⟨columns, hcolumns, rfl⟩ := exists_of_additions_eq_ok hchanges
      have hnone : columns.flatMap TableChange.definedKeys = [] := by
        refine List.flatMap_eq_nil_iff.mpr fun c hc => ?_
        obtain ⟨f, q, rfl, _⟩ := exists_eq_addColumn hcolumns c hc
        rfl
      rw [definedKeys, List.flatMap_append, List.flatMap_append, hnone, List.nil_append]
      exact (definedKeys_missingKeys _ _ _ _).append (definedKeys_missingKeys _ _ _ _)

namespace KindedKey

/-- The name of the key is the one that is made for its columns. -/
def HasMadeName (x : KindedKey) : Prop :=
  x.key.name = x.kind.madeName x.key.columns

/-- The keys are of one kind, and their columns are made of the same pieces. -/
def SamePieces (x y : KindedKey) : Prop :=
  x.kind = y.kind ∧ columnPieces x.key.columns = columnPieces y.key.columns

/-- The keys are of one kind and on the same columns. -/
def SameColumns (x y : KindedKey) : Prop :=
  x.kind = y.kind ∧ x.key.columns = y.key.columns

/-- No column of the key has an underscore. -/
def IsPlain (x : KindedKey) : Prop :=
  ∀ c ∈ x.key.columns, PlainColumn c

instance (x y : KindedKey) : Decidable (x.SamePieces y) :=
  inferInstanceAs (Decidable (_ ∧ _))

/-- Columns without underscores are their own pieces. -/
theorem samePieces_iff {x y : KindedKey} (hx : x.IsPlain) (hy : y.IsPlain) :
    x.SamePieces y ↔ x.SameColumns y := by
  rw [SamePieces, SameColumns, columnPieces_eq_iff hx hy]

end KindedKey

/-- **Unnamed keys are told apart by the pieces of their columns.**  Two keys without
names get the same name exactly if they are of one kind and their columns, cut at all
underscores, are the same pieces in the same order; where no column has an underscore,
exactly if they have the same columns.  A plan defines no other keys than the declared
ones, each once, and if the names of two of these are made up and the same, they are such
keys. -/
theorem unnamed_keys_apart {o settled : TableOptions} (h : o.check = .ok settled) :
    (∀ (i j : Nat) (x y : KindedKey), o.keys[i]? = some x → o.keys[j]? = some y →
      x.key.name = "" → y.key.name = "" →
      ∃ n m, settled.keys[i]? = some ⟨x.kind, n, x.key.columns⟩ ∧
        settled.keys[j]? = some ⟨y.kind, m, y.key.columns⟩ ∧
        (n = m ↔ x.SamePieces y) ∧
        (x.IsPlain → y.IsPlain → (n = m ↔ x.SameColumns y))) ∧
    ∀ schema defaults live p, SchemaPlan.make schema settled defaults live = .ok p →
      p.definedKeys.Sublist settled.keys ∧
      ∀ x ∈ p.definedKeys, ∀ y ∈ p.definedKeys, x.HasMadeName → y.HasMadeName →
        (x.key.name = y.key.name ↔ x.SamePieces y) ∧
        (x.IsPlain → y.IsPlain → (x.key.name = y.key.name ↔ x = y)) := by
  obtain ⟨_, hkeys, hcolumns⟩ := TableOptions.check_eq_ok h
  constructor
  · intro i j x y hx hy hxName hyName
    have hsettled {k : Nat} {z : KindedKey} (hz : o.keys[k]? = some z) (hname : z.key.name = "") :
        settled.keys[k]? = some ⟨z.kind, z.kind.madeName z.key.columns, z.key.columns⟩ := by
      rw [hkeys, List.getElem?_map, hz, Option.map_some, KeyKind.named, if_pos hname]
    have hnames : x.kind.madeName x.key.columns = y.kind.madeName y.key.columns ↔
        x.SamePieces y :=
      KeyKind.madeName_eq_iff (hcolumns x (List.mem_of_getElem? hx))
        (hcolumns y (List.mem_of_getElem? hy))
    refine ⟨_, _, hsettled hx hxName, hsettled hy hyName, hnames, ?_⟩
    intro hxPlain hyPlain
    rw [hnames, KindedKey.samePieces_iff hxPlain hyPlain]
  · intro schema defaults live p hp
    have hsublist := SchemaPlan.definedKeys_sublist hp
    refine ⟨hsublist, ?_⟩
    intro x hx y hy hxName hyName
    have hdefined : ∀ z ∈ p.definedKeys, z.key.columns ≠ [] := by
      intro z hz
      have hmem := hsublist.mem hz
      rw [hkeys] at hmem
      obtain ⟨declared, hdeclared, rfl⟩ := List.mem_map.mp hmem
      rw [KeyKind.columns_named]
      exact hcolumns declared hdeclared
    have hnames : x.key.name = y.key.name ↔ x.SamePieces y := by
      rw [hxName, hyName]
      exact KeyKind.madeName_eq_iff (hdefined x hx) (hdefined y hy)
    refine ⟨hnames, ?_⟩
    intro hxPlain hyPlain
    constructor
    · intro hsame
      obtain ⟨hkind, hkeyColumns⟩ :=
        (KindedKey.samePieces_iff hxPlain hyPlain).mp (hnames.mp hsame)
      obtain ⟨kind, name, columns⟩ := x
      obtain ⟨kind', name', columns'⟩ := y
      cases hkind
      cases hkeyColumns
      cases hsame
      rfl
    · rintro rfl
      rfl

/-- Keys of visits: two of them have underscores in other places, and one has a name. -/
def visitKeys : TableOptions where
  tableName := "visits"
  indexes := [⟨"", ["user_id", "at"]⟩, ⟨"", ["user", "at_id"]⟩, ⟨"by_page", ["page"]⟩]
  uniques := [⟨"", ["user_id", "at"]⟩]

/-- The keys of visits with their names. -/
def namedVisitKeys : TableOptions :=
  { visitKeys with
    indexes := [⟨"index_user_id_at", ["user_id", "at"]⟩, ⟨"index_user_at_id", ["user", "at_id"]⟩,
      ⟨"by_page", ["page"]⟩]
    uniques := [⟨"uniq_user_id_at", ["user_id", "at"]⟩] }

/-- The underscores leave other pieces of the first two indexes, and the name of the
unique key is made up in another way. -/
theorem unnamed_keys_apart_visits :
    visitKeys.check = .ok namedVisitKeys ∧
    (∃ n m, namedVisitKeys.keys[0]? = some ⟨.index, n, ["user_id", "at"]⟩ ∧
      namedVisitKeys.keys[1]? = some ⟨.index, m, ["user", "at_id"]⟩ ∧ n ≠ m) ∧
    ∃ p, SchemaPlan.make visits namedVisitKeys {} none = .ok p ∧
      ∃ x ∈ p.definedKeys, ∃ y ∈ p.definedKeys, x.HasMadeName ∧ y.HasMadeName ∧
        x.key.columns = y.key.columns ∧ x.key.name ≠ y.key.name := by
  have hcheck : visitKeys.check = .ok namedVisitKeys := rfl
  obtain ⟨hnames, hplans⟩ := unnamed_keys_apart hcheck
  obtain ⟨n, m, hn, hm, hsame, _⟩ := hnames 0 1 _ _ rfl rfl rfl rfl
  obtain ⟨p, hp⟩ : ∃ p, SchemaPlan.make visits namedVisitKeys {} none = .ok p := ⟨_, rfl⟩
  obtain ⟨_, hdefined⟩ := hplans visits {} none p hp
  have hkeys : p.definedKeys = namedVisitKeys.keys := by
    cases hp
    rfl
  have hindex : (⟨.index, "index_user_id_at", ["user_id", "at"]⟩ : KindedKey) ∈ p.definedKeys := by
    rw [hkeys]
    decide
  have hunique : (⟨.unique, "uniq_user_id_at", ["user_id", "at"]⟩ : KindedKey) ∈
      p.definedKeys := by
    rw [hkeys]
    decide
  obtain ⟨hmade, _⟩ := hdefined _ hindex _ hunique rfl rfl
  exact ⟨hcheck, ⟨n, m, hn, hm, hsame.not.mpr (by decide)⟩, p, hp, _, hindex, _, hunique, rfl, rfl,
    rfl, hmade.not.mpr (by decide)⟩

/-- Two indexes without names, on one column and on two. -/
def pointKeys : TableOptions where
  tableName := "points"
  indexes := [⟨"", ["a_b"]⟩, ⟨"", ["a", "b"]⟩]

/-- A point has a column with an underscore and columns that make up its name. -/
def pointSchema : Schema where
  fields :=
    [⟨"a_b", "int", false, "0", false, "", none⟩, ⟨"a", "int", false, "0", false, "", none⟩,
      ⟨"b", "int", false, "0", false, "", none⟩]
  increment_le_one := by decide

/-- A table of points without keys. -/
def keylessPoints : LiveTable where
  fields := pointSchema.fields
  keys := {}

/-- Both indexes get one name.  A new table of points would have two keys of that name, and
in an existing one the second key is refused. -/
theorem underscores_collide :
    ∃ settled, pointKeys.check = .ok settled ∧
      pointKeys.indexes.map (·.name) = ["", ""] ∧
      pointKeys.indexes.map (·.columns) = [["a_b"], ["a", "b"]] ∧
      settled.indexes.map (·.name) = ["index_a_b", "index_a_b"] ∧
      (∃ p, SchemaPlan.make pointSchema settled {} none = .ok p ∧
        p.definedKeys = [⟨.index, "index_a_b", ["a_b"]⟩, ⟨.index, "index_a_b", ["a", "b"]⟩]) ∧
      ∃ p, SchemaPlan.make pointSchema settled {} (some keylessPoints) = .ok p ∧
        p.definedKeys = [⟨.index, "index_a_b", ["a_b"]⟩, ⟨.index, "index_a_b", ["a", "b"]⟩] ∧
        runKeys? keylessPoints.keys p.changes = none :=
  ⟨_, rfl, rfl, rfl, rfl, ⟨_, rfl, rfl⟩, _, rfl, rfl, rfl⟩

end TableMapper
