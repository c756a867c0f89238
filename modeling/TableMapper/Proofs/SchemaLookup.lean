import Mathlib.Data.List.Nodup
import TableMapper.Schema

/-!
# Looking fields up

What a schema answers when it is asked for a field.  A name may be that of several fields,
of which the last one answers to it; where the names differ it is that of one position
only.  At most one field counts up by itself, and that is the one which a statement can
have for its key.

* `Schema.field?_eq_some_iff`, `Schema.exists_field?_iff` — the field of a name;
* `Schema.eq_of_name`, `Schema.field?_of_nodup` — names that differ;
* `Schema.increment?_eq_some_iff`, `Schema.increment_eq_ok_iff` — the field that counts up.
-/

namespace TableMapper

/-- No two elements satisfy `P` exactly if at most one is left when the others are left out. -/
theorem pairwise_not_both_iff {α : Type} {P : α → Prop} [DecidablePred P] {l : List α} :
    (l.Pairwise fun a b => ¬(P a ∧ P b)) ↔ (l.filter fun a => decide (P a)).length ≤ 1 := by
  induction l with
  | nil => simp
  | cons a l ih =>
      rw [List.pairwise_cons, ih]
      by_cases ha : P a
      · have hnone : (l.filter fun b => decide (P b)).length ≤ 0 ↔ ∀ b ∈ l, ¬P b := by simp
        rw [List.filter_cons, if_pos (by simpa), List.length_cons, Nat.succ_le_succ_iff, hnone]
        constructor
        · rintro ⟨hfirst, _⟩ b hb hPb
          exact hfirst b hb ⟨ha, hPb⟩
        · intro hrest
          exact ⟨fun b hb hboth => hrest b hb hboth.2, Nat.le_succ_of_le (hnone.mpr hrest)⟩
      · simp [ha]

namespace Schema

variable {schema : Schema} {name table : String} {f g : Field}

/-- The field of a name is the last one that has it. -/
theorem field?_eq_some_iff :
    schema.field? name = some f ↔
      ∃ before after, schema.fields = before ++ f :: after ∧ f.name = name ∧
        ∀ g ∈ after, g.name ≠ name := by
  rw [field?, List.find?_eq_some_iff_append]
  constructor
  · rintro ⟨hname, after, before, hfields, hafter⟩
    refine ⟨before.reverse, after.reverse, ?_, by simpa using hname, ?_⟩
    · rw [← List.reverse_reverse schema.fields, hfields]
      simp
    · intro g hg
      simpa using hafter g (List.mem_reverse.mp hg)
  · rintro ⟨before, after, hfields, hname, hafter⟩
    refine ⟨by simpa using hname, after.reverse, before.reverse, ?_, ?_⟩
    · rw [hfields]
      simp
    · intro g hg
      simpa using hafter g (List.mem_reverse.mp hg)

/-- There is a field of a name exactly if the name occurs. -/
theorem exists_field?_iff : (∃ f, schema.field? name = some f) ↔ name ∈ schema.names := by
  rw [← Option.isSome_iff_exists, field?, List.find?_isSome, names, List.mem_map]
  simp

/-- Exactly the names that occur have a type. -/
theorem mem_names_iff : name ∈ schema.names ↔ ∃ type, schema.sqlType? name = some type := by
  rw [← exists_field?_iff, sqlType?]
  simp

/-- No field is found exactly for a name that does not occur. -/
theorem field?_eq_none_iff : schema.field? name = none ↔ name ∉ schema.names := by
  rw [← exists_field?_iff, Option.eq_none_iff_forall_ne_some, not_exists]

/-- No type is found exactly for a name that does not occur. -/
theorem sqlType?_eq_none_iff : schema.sqlType? name = none ↔ name ∉ schema.names := by
  rw [sqlType?, Option.map_eq_none_iff, field?_eq_none_iff]

/-- Where names differ, a name is that of one position. -/
theorem eq_of_name (hnames : schema.names.Nodup) {i j : Nat} (hi : schema.fields[i]? = some f)
    (hj : schema.fields[j]? = some g) (hname : f.name = g.name) : i = j := by
  obtain ⟨hi', rfl⟩ := List.getElem?_eq_some_iff.mp hi
  obtain ⟨hj', rfl⟩ := List.getElem?_eq_some_iff.mp hj
  have hlength : schema.names.length = schema.fields.length := List.length_map _
  have hi'' : i < schema.names.length := by omega
  have hj'' : j < schema.names.length := by omega
  have hsame : schema.names[i] = schema.names[j] := by simpa [names] using hname
  exact hnames.getElem_inj_iff.mp hsame

/-- Where names differ, a field answers to its name. -/
theorem field?_of_nodup (hnames : schema.names.Nodup) {i : Nat}
    (hi : schema.fields[i]? = some f) : schema.field? f.name = some f := by
  obtain ⟨hi', rfl⟩ := List.getElem?_eq_some_iff.mp hi
  refine field?_eq_some_iff.mpr ⟨schema.fields.take i, schema.fields.drop (i + 1), by simp, rfl, ?_⟩
  intro g hg hname
  obtain ⟨k, hk, rfl⟩ := List.getElem_of_mem hg
  have hlater : schema.fields[i + 1 + k]? = some (schema.fields.drop (i + 1))[k] := by
    rw [← List.getElem?_drop, List.getElem?_eq_getElem hk]
  have hsame := eq_of_name hnames hlater hi hname
  omega

/-- The counting field of a schema is the only one of its fields that counts. -/
theorem increment?_eq_some_iff (schema : Schema) {f : Field} :
    schema.increment? = some f ↔ f ∈ schema.fields ∧ f.autoIncrement = true := by
  constructor
  · intro h
    exact ⟨List.mem_of_find?_eq_some h, List.find?_some h⟩
  · rintro ⟨hmem, hcounts⟩
    have hf : f ∈ schema.fields.filter (·.autoIncrement) := List.mem_filter.mpr ⟨hmem, hcounts⟩
    have hone := schema.increment_le_one
    rw [increment?, ← List.head?_filter]
    cases hfilter : schema.fields.filter (·.autoIncrement) with
    | nil =>
        rw [hfilter] at hf
        exact absurd hf List.not_mem_nil
    | cons g rest =>
        rw [hfilter, List.length_cons] at hone
        have hrest : rest = [] := List.eq_nil_of_length_eq_zero (by omega)
        rw [hfilter, hrest] at hf
        rw [List.eq_of_mem_singleton hf]
        rfl

/-- No two fields count up. -/
theorem pairwise_autoIncrement (schema : Schema) :
    schema.fields.Pairwise fun f g => ¬(f.autoIncrement = true ∧ g.autoIncrement = true) := by
  rw [pairwise_not_both_iff]
  simpa using schema.increment_le_one

/-- A statement can have exactly the field that counts up for its key. -/
theorem increment_eq_ok_iff : schema.increment table = .ok f ↔ schema.increment? = some f := by
  unfold increment
  cases schema.increment? with
  | none => simp
  | some g => simp

/-- A statement that needs a key and has none says so. -/
theorem increment_eq_error_iff {e : Error} :
    schema.increment table = .error e ↔ schema.increment? = none ∧ e = .noIncrementField table := by
  unfold increment
  cases schema.increment? with
  | none => simp [eq_comm]
  | some g => simp

end Schema

end TableMapper
