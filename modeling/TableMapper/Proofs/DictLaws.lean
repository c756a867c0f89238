import Mathlib.Data.List.Nodup
import Mathlib.Data.List.Sort
import TableMapper.Proofs.TableExecution

/-!
# Dictionaries by what is found in them

A dictionary is what it gives at each text, so its laws are laws of `Dict.find?`.
Behind an insertion, the entries of another dictionary or those of a list, the value
at a text is the last one that was put there.

* `Dict.ext_find?` — dictionaries that give the same are the same;
* `Dict.find?_insert`, `Dict.find?_erase`, `Dict.find?_overlay`, `Dict.find?_ofList` — what
  is found;
* `Dict.filter_entries` — the entries of one text;
* `Dict.overlay_assoc`, `Dict.overlay_self` — entries put on each other.
-/

namespace TableMapper

namespace Dict

variable {α : Type} {k : String} {v : α}

/-- The value at `k` in a list of entries. -/
def valueAt? (k : String) (es : List (String × α)) : Option α :=
  (es.find? (·.1 == k)).map (·.2)

@[simp] theorem valueAt?_nil : valueAt? k ([] : List (String × α)) = none := rfl

/-- An entry in front decides about its own name only. -/
theorem valueAt?_cons (e : String × α) (es : List (String × α)) :
    valueAt? k (e :: es) = if k = e.1 then some e.2 else valueAt? k es := by
  rw [valueAt?, List.find?_cons]
  by_cases hk : k = e.1
  · simp [hk]
  · have hne : (e.1 == k) = false := by simpa using Ne.symm hk
    rw [hne, if_neg hk]
    rfl

/-- Where each text has one entry, the value at a text is that of its entry. -/
theorem valueAt?_eq_some_iff {es : List (String × α)} (hes : (es.map (·.1)).Nodup) :
    valueAt? k es = some v ↔ (k, v) ∈ es := by
  induction es with
  | nil => simp
  | cons e es ih =>
      rw [List.map_cons, List.nodup_cons] at hes
      rw [valueAt?_cons, List.mem_cons]
      split_ifs with hk
      · subst hk
        have hnew : (e.1, v) ∉ es := fun hmem => hes.1 (List.mem_map.mpr ⟨_, hmem, rfl⟩)
        simp [hnew, Prod.ext_iff, eq_comm]
      · have hne : (k, v) ≠ e := fun he => hk (congrArg Prod.fst he)
        rw [ih hes.2]
        simp [hne]

/-- Where names are distinct, the order of entries does not matter. -/
theorem valueAt?_reverse {es : List (String × α)} (hes : (es.map (·.1)).Nodup) :
    valueAt? k es.reverse = valueAt? k es := by
  have hrev : (es.reverse.map (·.1)).Nodup := by
    rw [List.map_reverse]
    exact List.nodup_reverse.mpr hes
  refine Option.ext fun v => ?_
  rw [valueAt?_eq_some_iff hrev, valueAt?_eq_some_iff hes, List.mem_reverse]

/-- No name stands in a dictionary twice. -/
theorem nodup_names (d : Dict α) : (d.entries.map (·.1)).Nodup := by
  rw [List.nodup_iff_pairwise_ne, List.pairwise_map]
  refine d.sorted.imp ?_
  intro a b hab hname
  exact String.lt_irrefl _ (hname ▸ hab)

/-- What is found at a text is the value of its entry. -/
theorem find?_eq_some_iff {d : Dict α} : d.find? k = some v ↔ (k, v) ∈ d.entries :=
  valueAt?_eq_some_iff d.nodup_names

@[simp] theorem find?_empty (k : String) : (empty : Dict α).find? k = none := rfl

/-- Dictionaries that give the same at every text are the same. -/
theorem ext_find? {d e : Dict α} (h : ∀ k, d.find? k = e.find? k) : d = e := by
  have hmem : ∀ entry, entry ∈ d.entries ↔ entry ∈ e.entries := by
    rintro ⟨k, v⟩
    rw [← find?_eq_some_iff, ← find?_eq_some_iff, h k]
  obtain ⟨ds, hds⟩ := d
  obtain ⟨es, hes⟩ := e
  have hirrefl : Std.Irrefl fun a b : String × α => a.1 < b.1 := ⟨fun a => String.lt_irrefl a.1⟩
  have hantisymm : Std.Antisymm fun a b : String × α => a.1 < b.1 :=
    ⟨fun _ _ hab hba => absurd hab (String.lt_asymm hba)⟩
  obtain rfl : ds = es := hds.eq_of_mem_iff hes hmem
  rfl

/-- Entries of another text are no value at a text. -/
theorem valueAt?_filter (k' : String) (es : List (String × α)) :
    valueAt? k' (es.filter (·.1 != k)) = if k' = k then none else valueAt? k' es := by
  induction es with
  | nil => simp
  | cons e es ih =>
      by_cases he : e.1 = k
      · rw [List.filter_cons_of_neg (by simp [he]), ih, valueAt?_cons, he]
        split_ifs
        · rfl
        · rfl
      · rw [List.filter_cons_of_pos (by simp [he]), valueAt?_cons, ih, valueAt?_cons]
        by_cases hk : k' = k
        · rw [if_pos hk, if_pos hk, if_neg (fun h => he (h.symm.trans hk))]
        · rw [if_neg hk, if_neg hk]

/-- What is left without a text is found as before. -/
theorem find?_erase (d : Dict α) (k k' : String) :
    (d.erase k).find? k' = if k' = k then none else d.find? k' :=
  valueAt?_filter k' d.entries

/-- A text has at most one entry, the one with what is found at it. -/
theorem filter_entries (d : Dict α) (k : String) :
    d.entries.filter (fun e => e.1 = k) = (d.find? k).toList.map (k, ·) := by
  have hone (es : List (String × α)) (hes : (es.map (·.1)).Nodup) :
      es.filter (fun e => e.1 = k) = (valueAt? k es).toList.map (k, ·) := by
    induction es with
    | nil => rfl
    | cons e es ih =>
        rw [List.map_cons, List.nodup_cons] at hes
        rw [valueAt?_cons]
        by_cases he : e.1 = k
        · have hrest : es.filter (fun e => e.1 = k) = [] := by
            rw [List.filter_eq_nil_iff]
            intro d hd hname
            exact hes.1 (List.mem_map.mpr ⟨d, hd, (of_decide_eq_true hname).trans he.symm⟩)
          rw [List.filter_cons_of_pos (by simp [he]), hrest, if_pos he.symm, ← he]
          rfl
        · rw [List.filter_cons_of_neg (by simp [he]), if_neg (Ne.symm he), ih hes.2]
  exact hone d.entries d.nodup_names

/-- What has been inserted last is found under its name, and nothing else has changed. -/
theorem valueAt?_insertEntry (k' : String) (es : List (String × α)) :
    valueAt? k' (insertEntry k v es) = if k' = k then some v else valueAt? k' es := by
  induction es with
  | nil => exact valueAt?_cons (k, v) []
  | cons e es ih =>
      rw [insertEntry]
      by_cases hless : k < e.1
      · rw [if_pos hless, valueAt?_cons]
      · rw [if_neg hless]
        by_cases heq : k = e.1
        · rw [if_pos heq, valueAt?_cons, valueAt?_cons, ← heq]
          split_ifs
          · rfl
          · rfl
        · rw [if_neg heq, valueAt?_cons, ih, valueAt?_cons]
          by_cases hk : k' = k
          · rw [if_pos hk, if_pos hk, if_neg (hk ▸ heq)]
          · rw [if_neg hk, if_neg hk]

/-- An insertion changes what is found at its text. -/
theorem find?_insert (d : Dict α) (k : String) (v : α) (k' : String) :
    (d.insert k v).find? k' = if k' = k then some v else d.find? k' :=
  valueAt?_insertEntry k' d.entries

/-- What is found behind several insertions was put there last. -/
theorem find?_foldl_insert (d : Dict α) (es : List (String × α)) (k : String) :
    (es.foldl (fun acc (k, v) => acc.insert k v) d).find? k =
      (valueAt? k es.reverse).or (d.find? k) := by
  induction es using List.reverseRecOn with
  | nil => rfl
  | append_singleton es e ih =>
      rw [List.foldl_append, List.foldl_cons, List.foldl_nil, find?_insert, ih,
        List.reverse_append, List.reverse_singleton, List.singleton_append, valueAt?_cons]
      split_ifs
      · rfl
      · rfl

/-- What is found in the dictionary of a list is the last one there. -/
theorem find?_ofList (es : List (String × α)) (k : String) :
    (ofList es).find? k = valueAt? k es.reverse := by
  rw [ofList, find?_foldl_insert, find?_empty, Option.or_none]

/-- Entries with distinct names are found, and no others. -/
theorem find?_ofList_eq_some_iff {es : List (String × α)} (hes : (es.map (·.1)).Nodup) :
    (ofList es).find? k = some v ↔ (k, v) ∈ es := by
  rw [find?_ofList, valueAt?_reverse hes, valueAt?_eq_some_iff hes]

/-- The second dictionary wins where both give something. -/
theorem find?_overlay (d e : Dict α) (k : String) :
    (d.overlay e).find? k = (e.find? k).or (d.find? k) := by
  rw [overlay, find?_foldl_insert, valueAt?_reverse e.nodup_names]
  rfl

theorem overlay_empty (d : Dict α) : d.overlay empty = d := rfl

/-- Laid over nothing, a dictionary stays what it is. -/
theorem empty_overlay (d : Dict α) : empty.overlay d = d :=
  ext_find? fun k => by rw [find?_overlay, find?_empty, Option.or_none]

/-- Laid over itself, a dictionary stays what it is. -/
theorem overlay_self (d : Dict α) : d.overlay d = d :=
  ext_find? fun k => by rw [find?_overlay, Option.or_self]

/-- Dictionaries are laid over each other in any grouping. -/
theorem overlay_assoc (d e f : Dict α) : (d.overlay e).overlay f = d.overlay (e.overlay f) :=
  ext_find? fun k => by simp only [find?_overlay, Option.or_assoc]

end Dict

end TableMapper
