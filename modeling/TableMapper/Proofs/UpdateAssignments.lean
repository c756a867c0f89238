import Mathlib.Data.List.Forall2
import TableMapper.Proofs.BatchRows
import TableMapper.Proofs.ComparisonGrammar

/-!
# Assignments of an update

A plain insert leaves out what has no literal; an update does not.  The assignments that
name a column are made one by one, each as often as it is there, and the first that is not
possible is the error of them all.  This file says which assignments are possible, how
they are written, and that a column is set to what a plain insert would write there.

* `Assignment.WrittenAs`, `Assignment.Refused` — the text of an assignment, and why it has
  none; `Assignment.WrittenAll` — the text of several;
* `InsertedAs` — what a plain insert writes of a value;
* `Assignment.resolve_eq_ok_iff`, `Assignment.resolve_eq_error_iff` — one assignment;
* `Assignment.resolveAll_all_or_none` — all of them, and the update that is made of them.
-/

namespace TableMapper

/-- A plain insert writes this literal of a value in a column: it stands in the record's
row under the column's name, which is there unless the column counts up. -/
def InsertedAs (schema : Schema) (column : String) (v : Value) (l : Literal) : Prop :=
  ∀ (table : String) (values : List Value) (i : Nat) (f : Field),
    schema.fields[i]? = some f → f.name = column → values[i]? = some v →
      ∃ columns row, Statement.ofInsert schema table values = .insert table ⟨columns, [row]⟩ ∧
        (column ∈ columns ↔ f.autoIncrement = false) ∧
        ∀ j : Nat, columns[j]? = some column → row[j]? = some l

/-- Where names differ, a plain insert writes the literal that a value has in its column. -/
theorem insertedAs_of_literal {schema : Schema} {column : String} {v : Value} {l : Literal}
    (hnames : schema.names.Nodup) (hl : v.literal column (schema.sqlType? column) = .ok l) :
    InsertedAs schema column v l := by
  intro table values i f hfield hname hvalue
  have hliteral : f.literal v = .ok l := by
    rw [← hname, Schema.sqlType?, Schema.field?_of_nodup hnames hfield] at hl
    exact hl
  -- whatever is written under this name is written of the field at `i`
  have hplace : ∀ p ∈ Batch.placed schema values, p.field.name = column →
      p.place = i ∧ p.field = f := by
    intro p hp hpname
    obtain ⟨hpfield, _⟩ := Batch.mem_placed_iff.mp hp
    have hi := Schema.eq_of_name hnames hpfield hfield (hpname.trans hname.symm)
    rw [hi, hfield] at hpfield
    exact ⟨hi, (Option.some.inj hpfield).symm⟩
  refine ⟨_, _, rfl, ?_, ?_⟩
  · rw [List.mem_map]
    constructor
    · rintro ⟨p, hp, hpname⟩
      obtain ⟨_, rfl⟩ := hplace p hp hpname
      obtain ⟨_, hauto, _⟩ := Batch.mem_placed_iff.mp hp
      exact hauto
    · intro hauto
      exact ⟨⟨i, f, l⟩, Batch.mem_placed_iff.mpr ⟨hfield, hauto, v, hvalue, hliteral⟩, hname⟩
  · intro j hj
    rw [List.getElem?_map, Option.map_eq_some_iff] at hj ⊢
    obtain ⟨p, hj, hpname⟩ := hj
    have hp := List.mem_of_getElem? hj
    obtain ⟨hi, rfl⟩ := hplace p hp hpname
    obtain ⟨_, _, w, hw, hwritten⟩ := Batch.mem_placed_iff.mp hp
    rw [hi, hvalue] at hw
    cases hw
    exact ⟨p, hj, Except.ok.inj (hwritten.symm.trans hliteral)⟩

namespace Assignment

section

variable (schema : Schema)

/-- The text of an assignment to a field of the schema. -/
inductive WrittenAs : Assignment → String → Prop
  | raw {column : String} (sql : String) (hcolumn : column ∈ schema.names) :
      WrittenAs ⟨column, .raw sql⟩ (Text.quoteName column ++ " " ++ sql)
  | value {column : String} {v : Value} {s : String} (hcolumn : column ∈ schema.names)
      (hv : v.WrittenAs schema column s) :
      WrittenAs ⟨column, v⟩ (Text.quoteName column ++ " = " ++ s)

/-- The text of assignments: that of each, with commas between them. -/
inductive WrittenAll : List Assignment → String → Prop
  | last {a : Assignment} {s : String} (ha : WrittenAs schema a s) : WrittenAll [a] s
  | cons {a : Assignment} {as : List Assignment} {s t : String} (ha : WrittenAs schema a s)
      (has : WrittenAll as t) : WrittenAll (a :: as) (s ++ ", " ++ t)

/-- Why an assignment is not possible. -/
inductive Refused : Assignment → Error → Prop
  | unknown {column : String} (v : Value) (hcolumn : column ∉ schema.names) :
      Refused ⟨column, v⟩ (.unrecognizedField column)
  | value {column : String} {v : Value} {e : Error} (hcolumn : column ∈ schema.names)
      (hraw : ∀ sql, v ≠ .raw sql) (hv : v.Unwritten schema column e) : Refused ⟨column, v⟩ e

/-- An assignment is possible if it names a field of the schema, and has statement text or
a value with a literal for it. -/
def IsPossible (a : Assignment) : Prop :=
  a.column ∈ schema.names ∧
    ((∃ sql, a.value = .raw sql) ∨
      ∃ l, a.value.literal a.column (schema.sqlType? a.column) = .ok l)

end

section

variable {schema : Schema} {column : String} {v : Value} {a : Assignment} {u : Update} {e : Error}

/-- An assignment to an unknown column is refused. -/
theorem resolve_of_unknown (h : column ∉ schema.names) :
    resolve schema ⟨column, v⟩ = .error (.unrecognizedField column) := by
  rw [resolve, Schema.field?_eq_none_iff.mpr h]

/-- Statement text is taken as it is. -/
theorem resolve_raw (h : column ∈ schema.names) (sql : String) :
    resolve schema ⟨column, .raw sql⟩ = .ok (.raw column sql) := by
  obtain ⟨f, hf⟩ := Schema.exists_field?_iff.mpr h
  rw [resolve, hf]

/-- A value is set to its literal under the type of the column. -/
theorem resolve_value (h : column ∈ schema.names) (hraw : ∀ sql, v ≠ .raw sql) :
    resolve schema ⟨column, v⟩ =
      (v.literal column (schema.sqlType? column)).map (.set column) := by
  obtain ⟨f, hf⟩ := Schema.exists_field?_iff.mpr h
  have htype : schema.sqlType? column = some f.sqlType := by
    rw [Schema.sqlType?, hf, Option.map_some]
  rw [resolve, hf, htype]
  cases v with
  | raw sql => exact absurd rfl (hraw sql)
  | _ => rfl

/-- Statement text has no literal. -/
theorem ne_raw_of_literal {type : Option String} {l : Literal}
    (h : v.literal column type = .ok l) (sql : String) : v ≠ .raw sql := by
  rintro rfl
  cases h

/-- An assignment is made of statement text as it is, or of the literal of its value. -/
theorem resolve_eq_ok_iff :
    a.resolve schema = .ok u ↔
      a.column ∈ schema.names ∧
        ((∃ sql, a.value = .raw sql ∧ u = .raw a.column sql) ∨
          ∃ l, a.value.literal a.column (schema.sqlType? a.column) = .ok l ∧
            u = .set a.column l) := by
  obtain ⟨column, v⟩ := a
  constructor
  · intro h
    by_cases hcolumn : column ∈ schema.names
    · refine ⟨hcolumn, ?_⟩
      by_cases hraw : ∃ sql, v = .raw sql
      · obtain ⟨sql, rfl⟩ := hraw
        rw [resolve_raw hcolumn] at h
        exact .inl ⟨sql, rfl, (Except.ok.inj h).symm⟩
      · rw [resolve_value hcolumn (not_exists.mp hraw)] at h
        obtain ⟨l, hl, hu⟩ := map_eq_ok.mp h
        exact .inr ⟨l, hl, hu.symm⟩
    · rw [resolve_of_unknown hcolumn] at h
      cases h
  · rintro ⟨hcolumn, ⟨sql, rfl, rfl⟩ | ⟨l, hl, rfl⟩⟩
    · exact resolve_raw hcolumn sql
    · rw [resolve_value hcolumn (ne_raw_of_literal hl), map_eq_ok]
      exact ⟨l, hl, rfl⟩

/-- An assignment is refused for these reasons and no others. -/
theorem resolve_eq_error_iff : a.resolve schema = .error e ↔ a.Refused schema e := by
  obtain ⟨column, v⟩ := a
  constructor
  · intro h
    by_cases hcolumn : column ∈ schema.names
    · by_cases hraw : ∃ sql, v = .raw sql
      · obtain ⟨sql, rfl⟩ := hraw
        rw [resolve_raw hcolumn] at h
        cases h
      · rw [resolve_value hcolumn (not_exists.mp hraw), map_eq_error] at h
        exact .value hcolumn (not_exists.mp hraw) (Value.literal_eq_error_iff.mp h)
    · rw [resolve_of_unknown hcolumn] at h
      cases h
      exact .unknown v hcolumn
  · intro h
    cases h with
    | unknown v hcolumn => exact resolve_of_unknown hcolumn
    | value hcolumn hraw hv => rw [resolve_value hcolumn hraw, map_eq_error, hv.literal]

/-- The possible assignments are those that resolve. -/
theorem exists_resolve_iff : (∃ u, a.resolve schema = .ok u) ↔ a.IsPossible schema := by
  simp only [resolve_eq_ok_iff, IsPossible]
  constructor
  · rintro ⟨_, hcolumn, ⟨sql, hraw, _⟩ | ⟨l, hl, _⟩⟩
    · exact ⟨hcolumn, .inl ⟨sql, hraw⟩⟩
    · exact ⟨hcolumn, .inr ⟨l, hl⟩⟩
  · rintro ⟨hcolumn, ⟨sql, hraw⟩ | ⟨l, hl⟩⟩
    · exact ⟨_, hcolumn, .inl ⟨sql, hraw, rfl⟩⟩
    · exact ⟨_, hcolumn, .inr ⟨l, hl, rfl⟩⟩

/-- An assignment that resolves is written as it should be. -/
theorem writtenAs_of_resolve (h : a.resolve schema = .ok u) : a.WrittenAs schema u.text := by
  obtain ⟨column, v⟩ := a
  obtain ⟨hcolumn, ⟨sql, rfl, rfl⟩ | ⟨l, hl, rfl⟩⟩ := resolve_eq_ok_iff.mp h
  · exact .raw sql hcolumn
  · exact .value hcolumn (Value.writtenAs_of_literal hl)

/-- Where names differ, a column is set to what a plain insert writes there. -/
theorem insertedAs_of_resolve {l : Literal} (hnames : schema.names.Nodup)
    (h : a.resolve schema = .ok (.set column l)) :
    column = a.column ∧ InsertedAs schema column a.value l := by
  obtain ⟨_, ⟨sql, _, heq⟩ | ⟨l', hl, heq⟩⟩ := resolve_eq_ok_iff.mp h
  · cases heq
  · cases heq
    exact ⟨rfl, insertedAs_of_literal hnames hl⟩

end

section

variable {schema : Schema} {as : List Assignment} {us : List Update} {e : Error}

/-- The named assignments are those with a column. -/
theorem named_eq (as : List Assignment) :
    named as = as.filter fun a => decide (a.column ≠ "") := by
  refine List.filter_congr fun a _ => ?_
  rw [Bool.eq_iff_iff]
  simp

/-- What it takes to be one of the named assignments. -/
theorem mem_named_iff {a : Assignment} : a ∈ named as ↔ a ∈ as ∧ a.column ≠ "" := by
  simp [named]

/-- No assignment is named exactly if none has a column. -/
theorem named_eq_nil_iff : named as = [] ↔ ∀ a ∈ as, a.column = "" := by
  simp [named]

/-- The named assignments resolve one by one, and there is at least one of them. -/
theorem resolveAll_eq_ok_iff :
    resolveAll schema as = .ok us ↔
      us ≠ [] ∧ List.Forall₂ (fun a u => a.resolve schema = .ok u) (named as) us := by
  rw [resolveAll, bind_eq_ok, ← mapM_eq_ok_iff]
  constructor
  · rintro ⟨made, hmade, h⟩
    cases made with
    | nil => cases h
    | cons u made =>
        cases h
        exact ⟨List.cons_ne_nil u made, hmade⟩
  · rintro ⟨hne, hmade⟩
    refine ⟨us, hmade, ?_⟩
    cases us with
    | nil => exact absurd rfl hne
    | cons u us => rfl

/-- The texts of what is made of assignments are joined in their order. -/
theorem writtenAll_of_forall₂ (hne : us ≠ [])
    (hmade : List.Forall₂ (fun a u => a.resolve schema = .ok u) as us) :
    WrittenAll schema as (Update.textAll us) := by
  induction hmade with
  | nil => exact absurd rfl hne
  | @cons a u as us hu htail ih =>
      have ha := writtenAs_of_resolve hu
      rw [Update.textAll, List.map_cons]
      cases htail with
      | nil =>
          rw [List.map_nil, String.intercalate_singleton]
          exact .last ha
      | @cons b v as us hv htail =>
          rw [List.map_cons, String.intercalate_cons_cons]
          exact .cons ha (ih (List.cons_ne_nil v us))

/-- Assignments can be made exactly if all that name a column are possible, and one does. -/
theorem exists_resolveAll_iff :
    (∃ us, resolveAll schema as = .ok us) ↔
      (∃ a ∈ as, a.column ≠ "") ∧ ∀ a ∈ as, a.column ≠ "" → a.IsPossible schema := by
  have hpossible : (∃ us, List.Forall₂ (fun a u => a.resolve schema = .ok u) (named as) us) ↔
      ∀ a ∈ as, a.column ≠ "" → a.IsPossible schema := by
    simp only [← mapM_eq_ok_iff, exists_mapM_iff, exists_resolve_iff, mem_named_iff, and_imp]
  have hnamed : named as ≠ [] ↔ ∃ a ∈ as, a.column ≠ "" := by
    simp [named_eq_nil_iff]
  rw [← hpossible, ← hnamed]
  simp only [resolveAll_eq_ok_iff]
  constructor
  · rintro ⟨us, hne, hmade⟩
    refine ⟨?_, us, hmade⟩
    intro hnil
    rw [hnil, List.forall₂_nil_left_iff] at hmade
    exact hne hmade
  · rintro ⟨hne, us, hmade⟩
    refine ⟨us, ?_, hmade⟩
    rintro rfl
    exact hne (List.forall₂_nil_right_iff.mp hmade)

/-- The first assignment that is not possible is the error, or that there is none. -/
theorem resolveAll_eq_error_iff :
    resolveAll schema as = .error e ↔
      (∀ a ∈ as, a.column = "") ∧ e = .noValueSpecified ∨
        FirstFails (IsPossible schema) (Refused schema) (named as) e := by
  have hfirst : (named as).mapM (resolve schema) = .error e ↔
      FirstFails (IsPossible schema) (Refused schema) (named as) e := by
    rw [mapM_eq_error_iff]
    exact FirstFails.congr (fun _ _ => exists_resolve_iff) fun _ _ => resolve_eq_error_iff
  have hempty : (∀ a ∈ as, a.column = "") ↔ (named as).mapM (resolve schema) = .ok [] := by
    rw [mapM_eq_ok_iff, List.forall₂_nil_right_iff, named_eq_nil_iff]
  rw [resolveAll, bind_eq_error, hfirst, hempty, or_comm]
  refine or_congr_left ?_
  constructor
  · rintro ⟨made, hmade, h⟩
    cases made with
    | nil =>
        cases h
        exact ⟨hmade, rfl⟩
    | cons u made => cases h
  · rintro ⟨hmade, rfl⟩
    exact ⟨[], hmade, rfl⟩

/-- An update is made of its assignments, if they resolve, and its arguments. -/
theorem ofUpdate_eq_map (schema : Schema) (args : Arguments) (as : List Assignment) :
    Statement.ofUpdate schema args as =
      (resolveAll schema as).map fun us => .update us args := by
  rw [Statement.ofUpdate]
  cases resolveAll schema as <;> rfl

end

/-- **Assignments are made all or none.**  They can be made exactly if one of them names a
column and each that does is possible.  Then their text is one item for each of these, in
order, whether or not their columns repeat; and where the names of a schema differ, a
column is set to what a plain insert writes there.  Otherwise the error is that of the
first which is not possible, or that none names a column.  There is an update exactly if
there are assignments for it. -/
theorem resolveAll_all_or_none (schema : Schema) (as : List Assignment) :
    ((∃ us, resolveAll schema as = .ok us) ↔
      (∃ a ∈ as, a.column ≠ "") ∧ ∀ a ∈ as, a.column ≠ "" → a.IsPossible schema) ∧
    (∀ us, resolveAll schema as = .ok us →
      WrittenAll schema (as.filter fun a => decide (a.column ≠ "")) (Update.textAll us) ∧
      List.Forall₂ (fun a u => a.WrittenAs schema u.text ∧
          (schema.names.Nodup → ∀ column l, u = .set column l →
            column = a.column ∧ InsertedAs schema column a.value l))
        (as.filter fun a => decide (a.column ≠ "")) us) ∧
    (∀ e, resolveAll schema as = .error e ↔
      (∀ a ∈ as, a.column = "") ∧ e = .noValueSpecified ∨
        FirstFails (IsPossible schema) (Refused schema)
          (as.filter fun a => decide (a.column ≠ "")) e) ∧
    ∀ args : Arguments, Statement.ofUpdate schema args as =
      (resolveAll schema as).map fun us => .update us args := by
  rw [← named_eq as]
  refine ⟨exists_resolveAll_iff, ?_, fun e => resolveAll_eq_error_iff,
    fun args => ofUpdate_eq_map schema args as⟩
  intro us hus
  obtain ⟨hne, hmade⟩ := resolveAll_eq_ok_iff.mp hus
  refine ⟨writtenAll_of_forall₂ hne hmade, hmade.imp ?_⟩
  intro a u hu
  refine ⟨writtenAs_of_resolve hu, ?_⟩
  rintro hnames column l rfl
  exact insertedAs_of_resolve hnames hu

/-- A sensor renamed, with its level doubled and one assignment to no column, and renamed
again. -/
def renamings : List Assignment :=
  [⟨"sensor", .text "c"⟩, ⟨"level", .raw "= `level` * 2"⟩, ⟨"", .int 1⟩, ⟨"sensor", .text "d"⟩]

/-- Two assignments to one column and one of statement text, all written in order. -/
theorem resolveAll_all_or_none_renamings :
    resolveAll readings renamings =
        .ok [.set "sensor" (.quoted "c"), .raw "level" "= `level` * 2",
          .set "sensor" (.quoted "d")] ∧
      readings.names.Nodup ∧ InsertedAs readings "sensor" (.text "c") (.quoted "c") := by
  have hmade : resolveAll readings renamings =
      .ok [.set "sensor" (.quoted "c"), .raw "level" "= `level` * 2",
        .set "sensor" (.quoted "d")] := rfl
  have hnames : readings.names.Nodup := by decide
  obtain ⟨_, hall, _⟩ := resolveAll_all_or_none readings renamings
  obtain ⟨_, hbeside⟩ := hall _ hmade
  obtain ⟨_, hinserted⟩ := (List.forall₂_cons.mp hbeside).1
  obtain ⟨_, hfirst⟩ := hinserted hnames "sensor" (.quoted "c") rfl
  exact ⟨hmade, hnames, hfirst⟩

end Assignment

end TableMapper
