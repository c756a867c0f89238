import TableMapper.Condition
import TableMapper.Proofs.Attempt

/-!
# Elements of sets

A set is made into literals as a whole, each kind of list in a way of its own: the numbers
are looked through for one that is not finite, and moments are refused at once where the
column has no type.  A single value is made into a literal by itself.  This file shows that
both ways agree, so that a column is compared with a value alike whether the value stands
alone or is an element of a set.

* `ValueList.literals_eq_mapM` — the literals of a set are those of its elements;
* `Criterion.resolveSet_list` — the set that an operator has behind it;
* `Criterion.resolveSet_elementwise` — when there is a set, its text, and why there is
  none.
-/

namespace TableMapper

section

variable (column : String) (sqlType : Option String)

/-- Numbers that are looked through together are refused exactly if the first one that is
not finite is refused on its own. -/
theorem mapM_literal_floats (xs : List Binary64) :
    (xs.map Value.float).mapM (Value.literal column sqlType) =
      if xs.any fun x => !x.isFinite then .error (.unsupportedValueType column .nonFinite)
      else .ok (xs.map .fixed) := by
  induction xs with
  | nil => rfl
  | cons x xs ih =>
      rw [List.map_cons, List.mapM_cons, List.any_cons]
      cases hx : x.isFinite with
      | false =>
          have hrefused : (Value.float x).literal column sqlType =
              .error (.unsupportedValueType column .nonFinite) := if_neg (by simp [hx])
          rw [hrefused]
          rfl
      | true =>
          have hwritten : (Value.float x).literal column sqlType = .ok (.fixed x) := if_pos hx
          rw [hwritten, ok_bind, ih]
          -- the others decide
          cases xs.any fun x => !x.isFinite <;> rfl

/-- The literals of a set are those of its elements. -/
theorem ValueList.literals_eq_mapM {xs : ValueList} (hne : xs.length ≠ 0) :
    xs.literals column sqlType = xs.elements.mapM (Value.literal column sqlType) := by
  symm
  cases xs with
  | ints ns => exact mapM_map_eq_ok fun _ _ => rfl
  | unsigneds ns => exact mapM_map_eq_ok fun _ _ => rfl
  | floats xs => exact mapM_literal_floats column sqlType xs
  | texts ss => exact mapM_map_eq_ok fun _ _ => rfl
  | moments ms =>
      cases sqlType with
      | some type => exact mapM_map_eq_ok fun _ _ => rfl
      | none =>
          -- there is a first moment, and it is refused
          cases ms with
          | nil => exact absurd rfl hne
          | cons m ms => rfl

end

namespace Criterion

variable (column : String) (sqlType : Option String)

/-- A list that is not empty makes a set, element by element. -/
theorem resolveSet_list {xs : ValueList} (hne : xs.length ≠ 0) :
    resolveSet column sqlType (.list xs) =
      (xs.elements.mapM (Value.literal column sqlType)).map .set := by
  rw [resolveSet, if_neg hne, ValueList.literals_eq_mapM column sqlType hne]

/-- **Sets are made element by element.**  A set that is not empty can be written exactly
if each of its elements can be written in the column on its own.  Its text is made of the
literals that the elements have on their own, in their order, with commas between them and
brackets around them.  Otherwise the error is that of the first element that cannot be
written on its own. -/
theorem resolveSet_elementwise {xs : ValueList} (hne : xs.length ≠ 0) :
    ((∃ operand, resolveSet column sqlType (.list xs) = .ok operand) ↔
      ∀ v ∈ xs.elements, ∃ l, v.literal column sqlType = .ok l) ∧
    (∀ operand, resolveSet column sqlType (.list xs) = .ok operand →
      ∃ ls, List.Forall₂ (fun v l => v.literal column sqlType = .ok l) xs.elements ls ∧
        operand.text = "(" ++ ", ".intercalate (ls.map Literal.text) ++ ")") ∧
    ∀ e, resolveSet column sqlType (.list xs) = .error e ↔
      FirstFails (fun v => ∃ l, v.literal column sqlType = .ok l)
        (fun v e => v.literal column sqlType = .error e) xs.elements e := by
  rw [resolveSet_list column sqlType hne]
  refine ⟨?_, ?_, ?_⟩
  · rw [← exists_mapM_iff]
    constructor
    · rintro ⟨operand, hoperand⟩
      obtain ⟨ls, hls, _⟩ := map_eq_ok.mp hoperand
      exact ⟨ls, hls⟩
    · rintro ⟨ls, hls⟩
      exact ⟨.set ls, map_eq_ok.mpr ⟨ls, hls, rfl⟩⟩
  · intro operand hoperand
    obtain ⟨ls, hls, rfl⟩ := map_eq_ok.mp hoperand
    exact ⟨ls, mapM_eq_ok_iff.mp hls, rfl⟩
  · intro e
    rw [map_eq_error, mapM_eq_error_iff]

/-- A number that is not finite among levels is refused as it would be on its own, and
without it the levels are written. -/
theorem resolveSet_elementwise_levels :
    (ValueList.floats [⟨0x3ff8000000000000⟩, .notANumber]).length ≠ 0 ∧
    resolveSet "level" (some "double") (.list (.floats [⟨0x3ff8000000000000⟩, .notANumber])) =
      .error (.unsupportedValueType "level" .nonFinite) ∧
    ∃ operand,
      resolveSet "level" (some "double") (.list (.floats [⟨0x3ff8000000000000⟩])) =
        .ok operand := by
  have hne : (ValueList.floats [⟨0x3ff8000000000000⟩, .notANumber]).length ≠ 0 := by decide
  have hone : (ValueList.floats [⟨0x3ff8000000000000⟩]).length ≠ 0 := by decide
  have hwritten : (Value.float ⟨0x3ff8000000000000⟩).literal "level" (some "double") =
      .ok (.fixed ⟨0x3ff8000000000000⟩) := by decide +kernel
  have hrefused : (Value.float .notANumber).literal "level" (some "double") =
      .error (.unsupportedValueType "level" .nonFinite) := by decide +kernel
  obtain ⟨_, _, herror⟩ := resolveSet_elementwise "level" (some "double") hne
  obtain ⟨hexists, _⟩ := resolveSet_elementwise "level" (some "double") hone
  refine ⟨hne, (herror _).mpr ?_, hexists.mpr ?_⟩
  · exact FirstFails.cons_iff.mpr (.inr ⟨⟨_, hwritten⟩, FirstFails.cons_iff.mpr (.inl hrefused)⟩)
  · intro v hv
    rw [List.mem_singleton.mp hv]
    exact ⟨_, hwritten⟩

end Criterion

end TableMapper
