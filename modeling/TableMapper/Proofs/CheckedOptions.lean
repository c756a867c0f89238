import Mathlib.Data.List.Basic
import Mathlib.Tactic.SplitIfs
import TableMapper.TableOptions

/-!
# Checked options

Options pass their check if they have a table and every declared key has columns; a key
without a name is then given one.  This file says what options are like behind a check.

* `KeyKind.madeName`, `KeyKind.named` — the name that is made for a key, and the key with
  a name;
* `TableOptions.keys` — the declared keys, each with its kind;
* `TableOptions.check_eq_ok` — the keys of options that have passed;
* `TableOptions.isSettled_of_check` — each has a name and columns.
-/

namespace TableMapper

/-- The name that is made for a key of these columns. -/
def KeyKind.madeName (kind : KeyKind) (columns : List String) : String :=
  kind.nameStart ++ "_".intercalate columns

/-- A key and the kind it is of. -/
structure KindedKey where
  kind : KeyKind
  key : Key
  deriving DecidableEq, Repr

/-- A key with a name: its own, or the one that is made for it. -/
def KeyKind.named (kind : KeyKind) (k : Key) : Key :=
  if k.name = "" then { k with name := kind.madeName k.columns } else k

/-- Naming a key leaves its columns alone. -/
@[simp] theorem KeyKind.columns_named (kind : KeyKind) (k : Key) :
    (kind.named k).columns = k.columns := by
  rw [named]
  split_ifs
  · rfl
  · rfl

/-- The declared keys, each with its kind. -/
def TableOptions.keys (o : TableOptions) : List KindedKey :=
  o.indexes.map (⟨.index, ·⟩) ++ o.uniques.map (⟨.unique, ·⟩)

/-- A named key has a name: one that is made begins with the label of its kind. -/
theorem KeyKind.name_named (kind : KeyKind) (k : Key) : (kind.named k).name ≠ "" := by
  rw [named]
  split_ifs with hname
  · intro hempty
    have htext := congrArg String.toList hempty
    cases kind <;> simp [madeName, nameStart] at htext
  · exact hname

/-- A key that is accepted has columns, and its own name or a made one. -/
theorem Key.settle_eq_ok {kind : KeyKind} {k settled : Key} (h : k.settle kind = .ok settled) :
    settled = kind.named k ∧ k.columns ≠ [] := by
  unfold settle at h
  split at h
  · cases h
  · rename_i hcolumns
    refine ⟨?_, fun hnil => hcolumns (List.isEmpty_iff.mpr hnil)⟩
    rw [KeyKind.named]
    split at h
    · rename_i hname
      rw [if_pos (String.isEmpty_iff.mp hname)]
      exact (Except.ok.inj h).symm
    · rename_i hname
      rw [if_neg (mt String.isEmpty_iff.mpr hname)]
      exact (Except.ok.inj h).symm

/-- Keys that are all accepted have columns, and each is named by itself. -/
theorem Key.settleAll_eq_ok {kind : KeyKind} {ks settled : List Key}
    (h : Key.settleAll kind ks = (settled, none)) :
    settled = ks.map kind.named ∧ ∀ k ∈ ks, k.columns ≠ [] := by
  induction ks generalizing settled with
  | nil =>
      cases h
      exact ⟨rfl, fun _ hk => absurd hk List.not_mem_nil⟩
  | cons k ks ih =>
      rw [Key.settleAll] at h
      split at h
      · cases h
      · rename_i first hfirst
        obtain ⟨rfl, hcolumns⟩ := Key.settle_eq_ok hfirst
        obtain ⟨hsettled, hnone⟩ := Prod.ext_iff.mp h
        have hrest : Key.settleAll kind ks = ((Key.settleAll kind ks).1, none) :=
          Prod.ext rfl hnone
        obtain ⟨hnamed, htail⟩ := ih hrest
        refine ⟨?_, List.forall_mem_cons.mpr ⟨hcolumns, htail⟩⟩
        rw [List.map_cons, ← hnamed]
        exact hsettled.symm

/-- Checked options have a table and the declared keys in their order, each with a name,
and every declared key has columns. -/
theorem TableOptions.check_eq_ok {o settled : TableOptions} (h : o.check = .ok settled) :
    settled.tableName ≠ "" ∧
      settled.keys = o.keys.map (fun x => ⟨x.kind, x.kind.named x.key⟩) ∧
      ∀ x ∈ o.keys, x.key.columns ≠ [] := by
  have hsettle : o.settle = (settled, none) := by
    unfold check at h
    split at h
    · rename_i hsettle
      cases h
      exact hsettle
    · cases h
  unfold settle at hsettle
  split at hsettle
  · cases hsettle
  · rename_i hname
    split at hsettle
    · cases hsettle
    · rename_i indexes hindexes
      obtain ⟨hsettled, hnone⟩ := Prod.ext_iff.mp hsettle
      subst hsettled
      have huniques : Key.settleAll .unique o.uniques =
          ((Key.settleAll .unique o.uniques).1, none) := Prod.ext rfl hnone
      obtain ⟨hindexNames, hindexColumns⟩ := Key.settleAll_eq_ok hindexes
      obtain ⟨huniqueNames, huniqueColumns⟩ := Key.settleAll_eq_ok huniques
      refine ⟨fun hempty => hname (String.isEmpty_iff.mpr hempty), ?_, ?_⟩
      · dsimp only [keys]
        rw [hindexNames, huniqueNames]
        simp only [List.map_append, List.map_map]
        rfl
      · exact List.forall_mem_append.mpr
          ⟨List.forall_mem_map.mpr hindexColumns, List.forall_mem_map.mpr huniqueColumns⟩

/-- A settled key has a name and columns. -/
def Key.IsSettled (k : Key) : Prop :=
  k.name ≠ "" ∧ k.columns ≠ []

/-- The keys of checked options are settled. -/
theorem TableOptions.isSettled_of_check {o settled : TableOptions} (h : o.check = .ok settled) :
    settled.tableName ≠ "" ∧ ∀ k ∈ settled.indexes ++ settled.uniques, k.IsSettled := by
  obtain ⟨htable, hkeys, hcolumns⟩ := check_eq_ok h
  have hsettled : ∀ x ∈ settled.keys, x.key.IsSettled := by
    intro x hx
    rw [hkeys] at hx
    obtain ⟨declared, hdeclared, rfl⟩ := List.mem_map.mp hx
    refine ⟨declared.kind.name_named declared.key, ?_⟩
    rw [KeyKind.columns_named]
    exact hcolumns declared hdeclared
  refine ⟨htable, List.forall_mem_append.mpr ⟨?_, ?_⟩⟩
  · intro k hk
    exact hsettled ⟨.index, k⟩ (List.mem_append_left _ (List.mem_map_of_mem hk))
  · intro k hk
    exact hsettled ⟨.unique, k⟩ (List.mem_append_right _ (List.mem_map_of_mem hk))

end TableMapper
