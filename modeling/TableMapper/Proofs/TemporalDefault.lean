import TableMapper.Field
import TableMapper.Proofs.TemporalLiteral

/-!
# Defaults of temporal columns

A column that may not be null and has no default of its own gets the first moment of its
type.  A literal of a moment is written for the type that the declaration spells, with or
without digits of the second's fraction; the first moment is looked up under the bare name
of the type.  This file says what that makes of the default of every spelling.

* `Column.LeavesDefault`, `Column.declaredAs` — the columns in question;
* `Field.expandUnsigned_spelled`, `Field.epoch_spelled` — what becomes of a spelling;
* `impliedDefault_of_spelling` — the default of a column of a spelled type;
* `impliedDefault_of_time` — a column of clock readings whose default is a day.
-/

namespace TableMapper

open TemporalType (ofBase? ofSqlType? isAlpha_of_ofBase? ofBase?_eq_some spells_iff)

/-- A column of moments that may not be null and for which no default is given. -/
structure Column.LeavesDefault (c : Column) : Prop where
  scalar : c.storage.scalar = .moment
  default : c.annotations.default = none
  nullable : c.annotations.nullable.getD c.storage.optional = false

/-- The column with another declared type. -/
def Column.declaredAs (c : Column) (sqlType : String) : Column :=
  { c with annotations := { c.annotations with sqlType := some sqlType } }

/-- The default of a day, and of every type without a first moment of its own. -/
def Field.firstDay : String :=
  "'1970-01-01'"

/-- The names of the types that may carry a digit are in small letters. -/
theorem TemporalType.map_toLower_of_ofBase? {cs : List Char} {make : Nat → TemporalType}
    (h : ofBase? cs = some make) : cs.map Char.toLower = cs := by
  rcases ofBase?_eq_some h with ⟨_, hcs | hcs⟩ | ⟨_, hcs⟩ <;> rw [hcs] <;> decide

/-- Every name spells itself. -/
theorem spelledWith_self {name : String} {make : Nat → TemporalType}
    (h : ofBase? name.toList = some make) : SpelledWith name [] name :=
  ⟨[], name.toList, [], Text.Blanks.nil, Text.Blanks.nil,
    TemporalType.map_toLower_of_ofBase? h, by simp⟩

namespace Field

/-- A type that begins with another letter than `u` is left as it is. -/
theorem expandUnsigned_of_head {sqlType : String}
    (h : ∀ c ∈ sqlType.toList.head?, c.toLower ≠ 'u') : expandUnsigned sqlType = sqlType := by
  unfold expandUnsigned
  split
  · rename_i c rest hcs
    have hc : c.toLower ≠ 'u' := h c (by rw [hcs]; rfl)
    have hne : (c = 'u' || c = 'U') = false := by
      rw [Bool.or_eq_false_iff, decide_eq_false_iff_not, decide_eq_false_iff_not]
      refine ⟨?_, ?_⟩
      · rintro rfl
        exact hc (by decide)
      · rintro rfl
        exact hc (by decide)
    rw [if_neg (by simp [hne])]
  · rfl

section Spelled

variable {name s : String} {make : Nat → TemporalType} {n : Nat} {precision : List Char}

/-- A spelling of a temporal type begins with the letter that the type begins with. -/
theorem expandUnsigned_spelled (hname : ofBase? name.toList = some make)
    (h : Precision n precision) (hs : SpelledWith name precision s) :
    expandUnsigned (Text.trim s) = Text.trim s := by
  have hlower := (spells_iff hname h).mp hs
  apply expandUnsigned_of_head
  intro c hc
  have hhead : c.toLower ∈ (name.toList ++ precision).head? := by
    rw [← hlower, Text.lower, String.toList_map, List.head?_map, Option.mem_def.mp hc]
    rfl
  rcases ofBase?_eq_some hname with ⟨_, hcs | hcs⟩ | ⟨_, hcs⟩ <;>
    rw [hcs] at hhead <;> rw [← Option.some.inj hhead] <;> decide

/-- A spelled type is not all blanks. -/
theorem trim_ne_empty (hname : ofBase? name.toList = some make) (h : Precision n precision)
    (hs : SpelledWith name precision s) : (Text.trim s).isEmpty = false := by
  have hlower := (spells_iff hname h).mp hs
  refine Bool.eq_false_iff.mpr fun hempty => ?_
  rw [String.isEmpty_iff.mp hempty, Text.lower, String.toList_map] at hlower
  have hnil : name.toList ++ precision = [] := hlower.symm
  exact TemporalType.ne_nil_of_ofBase? hname (List.append_eq_nil_iff.mp hnil).1

/-- The first moment is found under the bare name only; with anything behind it the
spelling gets the default of a day. -/
theorem epoch_spelled (hname : ofBase? name.toList = some make) (h : Precision n precision)
    (hs : SpelledWith name precision s) :
    epoch (Text.trim s) = if precision = [] then epoch name else firstDay := by
  have hlower := (spells_iff hname h).mp hs
  split
  · rename_i hnil
    rw [hnil, List.append_nil] at hlower
    have hself : Text.lower name = name := by
      apply String.toList_injective
      rw [Text.lower, String.toList_map, TemporalType.map_toLower_of_ofBase? hname]
    rw [epoch, String.toList_injective hlower, epoch, hself]
  · rename_i hnil
    have hother {other : String} (ho : other.toList.all Char.isAlpha = true) :
        Text.lower (Text.trim s) ≠ other := by
      rintro rfl
      exact TemporalType.append_precision_ne h hnil (isAlpha_of_ofBase? hname)
        (List.all_eq_true.mp ho) hlower.symm
    rw [epoch, if_neg (hother (by decide)), if_neg (hother (by decide)),
      if_neg (hother (by decide)), firstDay]

end Spelled

/-- The field of a column that takes the default of its type. -/
theorem ofColumn_declaredAs {c : Column} (hc : c.LeavesDefault) {sqlType : String}
    (hne : (Text.trim sqlType).isEmpty = false) :
    ∃ f, ofColumn (c.declaredAs sqlType) = .ok f ∧
      f.default = epoch (expandUnsigned (Text.trim sqlType)) := by
  have htype : typeOf (c.declaredAs sqlType) = .ok (expandUnsigned (Text.trim sqlType)) := by
    simp [typeOf, Column.declaredAs, hne]
  have hcategory : (c.declaredAs sqlType).storage.scalar.category = .moment := by
    rw [Column.declaredAs, hc.scalar]
    rfl
  have hdefault : (c.declaredAs sqlType).annotations.default = none := hc.default
  have hnullable : (c.declaredAs sqlType).annotations.nullable.getD
      (c.declaredAs sqlType).storage.optional = false := hc.nullable
  rw [ofColumn, htype]
  refine ⟨_, rfl, ?_⟩
  dsimp only
  rw [hdefault, hcategory, hnullable]
  rfl

end Field

/-- A moment that is shown with a clock reading is shown with a colon. -/
theorem TemporalType.colon_mem_text {base : List Char} {make : Nat → TemporalType}
    (hmake : ofBase? base = some make) (n : Nat) (m : Moment) :
    ':' ∈ ((make n).text m).toList := by
  have hclock : ':' ∈ (m.clock.textWith n).toList := by
    simp [Clock.textWith, Clock.text]
  rcases ofBase?_eq_some hmake with ⟨rfl, _⟩ | ⟨rfl, _⟩
  · rw [TemporalType.text, Moment.textWith, String.toList_append]
    exact List.mem_append_right _ hclock
  · exact hclock

/-- The default of the bare type is a literal of it. -/
theorem Field.exists_epoch_eq {name : String} {make : Nat → TemporalType}
    (hname : ofBase? name.toList = some make) :
    ∃ m, epoch name = "'" ++ (make 0).text m ++ "'" := by
  rcases ofBase?_eq_some hname with ⟨rfl, hcs | hcs⟩ | ⟨rfl, hcs⟩
  · rw [String.toList_injective hcs]
    exact ⟨⟨⟨1970, 1, 1, by decide⟩, .midnight⟩, by decide +kernel⟩
  · rw [String.toList_injective hcs]
    exact ⟨⟨⟨1970, 1, 2, by decide⟩, ⟨0, 0, 1, 0, by decide⟩⟩, by decide +kernel⟩
  · rw [String.toList_injective hcs]
    exact ⟨⟨⟨1970, 1, 1, by decide⟩, .midnight⟩, by decide +kernel⟩

/-- The default of a day is no literal of a type with a clock reading. -/
theorem Field.firstDay_ne {base : List Char} {make : Nat → TemporalType}
    (hmake : ofBase? base = some make) (n : Nat) (m : Moment) :
    firstDay ≠ "'" ++ (make n).text m ++ "'" := by
  intro heq
  have hcolon : ':' ∈ firstDay.toList := by
    rw [heq, String.toList_append, String.toList_append]
    exact List.mem_append_left _ (List.mem_append_right _ (TemporalType.colon_mem_text hmake n m))
  revert hcolon
  decide

/-- **The default of a temporal type belongs to its bare spellings.**  A declared type is
taken for one that may carry a digit exactly if it spells its name, with or without the
digit.  A column that takes the default of such a type gets that of the bare name if the
spelling has no digit, and otherwise, whatever the name, the first day; so the default is
that of the bare type, and is a literal of the declared type, exactly for the spellings
without a digit. -/
theorem impliedDefault_of_spelling {c : Column} (hc : c.LeavesDefault) (sqlType : String) :
    (∀ base make n, ofBase? base = some make →
      (ofSqlType? sqlType = some (make n) ↔
        ∃ name, ofBase? name.toList = some make ∧ Spells name n sqlType)) ∧
    ∀ name make n precision, ofBase? name.toList = some make → Precision n precision →
      SpelledWith name precision sqlType →
      ∃ f bare, Field.ofColumn (c.declaredAs sqlType) = .ok f ∧
        Field.ofColumn (c.declaredAs name) = .ok bare ∧
        bare.default = Field.epoch name ∧
        f.default = (if precision = [] then Field.epoch name else Field.firstDay) ∧
        (f.default = bare.default ↔ precision = []) ∧
        ((∃ m, f.default = "'" ++ (make n).text m ++ "'") ↔ precision = []) := by
  refine ⟨fun base make n hbase => TemporalType.ofSqlType?_eq_base_iff hbase, ?_⟩
  intro name make n precision hname hprecision hspelled
  -- what a spelling of the name with or without a digit makes of the column
  have hfield {s : String} {k : Nat} {p : List Char} (hp : Precision k p)
      (hs : SpelledWith name p s) : ∃ f, Field.ofColumn (c.declaredAs s) = .ok f ∧
        f.default = if p = [] then Field.epoch name else Field.firstDay := by
    obtain ⟨f, hf, hdefault⟩ := Field.ofColumn_declaredAs hc (Field.trim_ne_empty hname hp hs)
    refine ⟨f, hf, ?_⟩
    rw [hdefault, Field.expandUnsigned_spelled hname hp hs, Field.epoch_spelled hname hp hs]
  obtain ⟨f, hf, hdefault⟩ := hfield hprecision hspelled
  obtain ⟨bare, hbare, hbareDefault⟩ := hfield .absent (spelledWith_self hname)
  rw [if_pos rfl] at hbareDefault
  obtain ⟨first, hfirst⟩ := Field.exists_epoch_eq hname
  refine ⟨f, bare, hf, hbare, hbareDefault, hdefault, ?_, ?_⟩
  · rw [hdefault, hbareDefault]
    by_cases hnil : precision = []
    · rw [if_pos hnil]
      exact iff_of_true rfl hnil
    · rw [if_neg hnil, hfirst]
      exact iff_of_false (Field.firstDay_ne hname 0 first) hnil
  · rw [hdefault]
    by_cases hnil : precision = []
    · rw [if_pos hnil, hprecision.eq_zero hnil]
      exact iff_of_true ⟨first, hfirst⟩ hnil
    · rw [if_neg hnil]
      exact iff_of_false (fun ⟨m, hm⟩ => Field.firstDay_ne hname n m hm) hnil

/-- When a run began; the column is never null. -/
def startColumn : Column where
  name := "start"
  storage := { scalar := .moment, optional := false }
  annotations := {}

/-- A bracket is left out and the name is in capitals; six digits are no bare type. -/
theorem impliedDefault_of_spelling_start :
    startColumn.LeavesDefault ∧ Spells "timestamp" 6 " TIMESTAMP ( 6" ∧
    ∃ f, Field.ofColumn (startColumn.declaredAs " TIMESTAMP ( 6") = .ok f ∧
      f.default = Field.firstDay ∧ f.default ≠ Field.epoch "timestamp" := by
  have hcolumn : startColumn.LeavesDefault := ⟨rfl, rfl, rfl⟩
  have hblank : Text.Blanks [' '] := by decide
  have hdigit : StandsFor 6 '6' := .inl (by decide)
  have hprecision : Precision 6 " ( 6".toList :=
    .digit hblank hblank (.inr rfl) (.inl rfl) hdigit
  have hspelled : SpelledWith "timestamp" " ( 6".toList " TIMESTAMP ( 6" :=
    ⟨[' '], "TIMESTAMP".toList, [], by decide, by decide, by decide, by decide⟩
  obtain ⟨_, hspellings⟩ := impliedDefault_of_spelling hcolumn " TIMESTAMP ( 6"
  obtain ⟨f, bare, hf, _, hbare, hdefault, hsame, _⟩ :=
    hspellings "timestamp" _ 6 _ rfl hprecision hspelled
  refine ⟨hcolumn, ⟨_, hprecision, hspelled⟩, f, hf, hdefault, ?_⟩
  intro heq
  have hnil := hsame.mp (heq.trans hbare.symm)
  revert hnil
  decide

/-- A column of clock readings with three digits gets a day for its default, and a
`timestamp` column with six digits one that is read as a moment before its bare type's. -/
theorem impliedDefault_of_time :
    ofSqlType? "time(3)" = some (.clock 3) ∧
    (Field.ofColumn (startColumn.declaredAs "time(3)")).map Field.default = .ok "'1970-01-01'" ∧
    (Field.ofColumn (startColumn.declaredAs "time")).map Field.default = .ok "'00:00:00'" ∧
    ofSqlType? "timestamp(6)" = some (.moment 6) ∧
    (Field.ofColumn (startColumn.declaredAs "timestamp(6)")).map Field.default =
      .ok "'1970-01-01'" ∧
    (Field.ofColumn (startColumn.declaredAs "timestamp")).map Field.default =
      .ok "'1970-01-02 00:00:01'" := by
  decide +kernel

end TableMapper
