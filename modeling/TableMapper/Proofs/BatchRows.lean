import Mathlib.Data.List.Forall2
import TableMapper.Proofs.Attempt
import TableMapper.Statement

/-!
# Rows of a batch

Several records go into one statement under the columns of the first one.  Which these
are depends on the values of the first record, since a value without a literal is left
out of a plain insert; a later record has to have a literal in each of them.  This file
says what the rows of a batch are, column by column, and when there is no batch.

* `LiteralAt`, `NoLiteralAt` — whether a record has a literal in the column of a field;
* `Batch.positions` — where the fields stand that a plain insert of a record writes;
* `Batch.ofRecords_eq_ok_iff`, `Batch.ofRecords_eq_error_iff` — the rows of a batch, and
  why there is none;
* `batch_shape` — both together, and batches beside plain inserts;
* `batch_keeps_columns_of_first` — of each record a batch writes what a plain insert of it
  writes, in the columns that the first record has and in no other.
-/

namespace TableMapper

/-- A record has this literal in the column of the field at a position. -/
def LiteralAt (schema : Schema) (values : List Value) (i : Nat) (l : Literal) : Prop :=
  ∃ f v, schema.fields[i]? = some f ∧ values[i]? = some v ∧ f.literal v = .ok l

/-- A record has no literal in the column of the field at a position, for this reason. -/
def NoLiteralAt (schema : Schema) (values : List Value) (i : Nat) (e : Error) : Prop :=
  ∃ f, schema.fields[i]? = some f ∧
    ((∃ v, values[i]? = some v ∧ f.literal v = .error e) ∨
      values[i]? = none ∧ e = .unsupportedValueType f.name .missing)

/-- A record has at most one literal at a place. -/
theorem LiteralAt.eq {schema : Schema} {values : List Value} {i : Nat} {l l' : Literal}
    (h : LiteralAt schema values i l) (h' : LiteralAt schema values i l') : l = l' := by
  obtain ⟨f, v, hf, hv, hl⟩ := h
  obtain ⟨f', v', hf', hv', hl'⟩ := h'
  have hfield : f = f' := Option.some.inj (hf.symm.trans hf')
  have hvalue : v = v' := Option.some.inj (hv.symm.trans hv')
  subst hfield hvalue
  exact Except.ok.inj (hl.symm.trans hl')

namespace Batch

/-- The positions of the fields that a plain insert of a record writes. -/
def positions (schema : Schema) (values : List Value) : List Nat :=
  (placed schema values).map (·.place)

/-- What is written of one field. -/
def placedAt (place : Nat) (f : Field) (v : Value) : Option Placed :=
  if f.autoIncrement then none else (f.literal v).toOption.map fun l => ⟨place, f, l⟩

/-- A value is placed if its field does not count up and has a literal for it. -/
theorem placedAt_eq_some_iff {place : Nat} {f : Field} {v : Value} {p : Placed} :
    placedAt place f v = some p ↔
      p.place = place ∧ p.field = f ∧ f.autoIncrement = false ∧ f.literal v = .ok p.literal := by
  obtain ⟨place', f', l⟩ := p
  rw [placedAt]
  by_cases hauto : f.autoIncrement = true
  · simp [hauto]
  · cases h : f.literal v with
    | error e => simp [Except.toOption]
    | ok l' =>
        have hcount : f.autoIncrement = false := by simpa using hauto
        simp only [hcount, Except.toOption, Option.map_some, Bool.false_eq_true, if_false,
          Option.some.injEq, Placed.mk.injEq, Except.ok.injEq, true_and]
        exact and_congr eq_comm (and_congr eq_comm Iff.rfl)

/-- The first value is placed at its own place, and all others behind it. -/
theorem placedFrom_cons (place : Nat) (f : Field) (fields : List Field) (v : Value)
    (values : List Value) :
    placedFrom place (f :: fields) (v :: values) =
      (placedAt place f v).toList ++ placedFrom (place + 1) fields values := by
  rw [placedFrom, placedAt]
  by_cases hauto : f.autoIncrement = true
  · simp [hauto]
  · cases h : f.literal v with
    | error e => simp [hauto, Except.toOption]
    | ok l => simp [hauto, Except.toOption]

/-- The fields from a position on that are written: all that do not count up by themselves
and whose value has a literal. -/
theorem mem_placedFrom_iff {place : Nat} {fields : List Field} {values : List Value}
    {p : Placed} :
    p ∈ placedFrom place fields values ↔
      ∃ i v, p.place = place + i ∧ fields[i]? = some p.field ∧ values[i]? = some v ∧
        p.field.autoIncrement = false ∧ p.field.literal v = .ok p.literal := by
  induction fields generalizing place values with
  | nil => simp [placedFrom]
  | cons f fields ih =>
      cases values with
      | nil => simp [placedFrom]
      | cons v values =>
          rw [placedFrom_cons, List.mem_append, Option.mem_toList, placedAt_eq_some_iff, ih]
          constructor
          · rintro (⟨hplace, rfl, hauto, hliteral⟩ | ⟨i, w, hplace, hfield, hvalue, hwritten⟩)
            -- the first field is at `place` itself, the others are one behind it
            · exact ⟨0, v, hplace, rfl, rfl, hauto, hliteral⟩
            · exact ⟨i + 1, w, by omega, by simpa using hfield, by simpa using hvalue, hwritten⟩
          · rintro ⟨i, w, hplace, hfield, hvalue, hauto, hliteral⟩
            cases i with
            | zero =>
                cases hfield
                cases hvalue
                exact .inl ⟨hplace, rfl, hauto, hliteral⟩
            | succ i =>
                exact .inr ⟨i, w, by omega, by simpa using hfield, by simpa using hvalue, hauto,
                  hliteral⟩

/-- They stand in the order of the fields. -/
theorem pairwise_placedFrom (place : Nat) (fields : List Field) (values : List Value) :
    (placedFrom place fields values).Pairwise fun p q => p.place < q.place := by
  induction fields generalizing place values with
  | nil => simp [placedFrom]
  | cons f fields ih =>
      cases values with
      | nil => simp [placedFrom]
      | cons v values =>
          rw [placedFrom_cons]
          refine List.pairwise_append.mpr ⟨?_, ih (place + 1) values, ?_⟩
          · cases placedAt place f v <;> simp
          -- what is written later stands behind `place`
          · intro p hp q hq
            obtain ⟨hplace, _⟩ := placedAt_eq_some_iff.mp (Option.mem_toList.mp hp)
            obtain ⟨i, _, hplace', _⟩ := mem_placedFrom_iff.mp hq
            omega

section Placed

variable {schema : Schema} {values : List Value} {p : Placed}

/-- What a plain insert writes of a record. -/
theorem mem_placed_iff :
    p ∈ placed schema values ↔ schema.fields[p.place]? = some p.field ∧
      p.field.autoIncrement = false ∧
      ∃ v, values[p.place]? = some v ∧ p.field.literal v = .ok p.literal := by
  rw [placed, mem_placedFrom_iff]
  constructor
  · rintro ⟨i, v, hplace, hfield, hvalue, hauto, hliteral⟩
    rw [Nat.zero_add] at hplace
    rw [hplace]
    exact ⟨hfield, hauto, v, hvalue, hliteral⟩
  · rintro ⟨hfield, hauto, v, hvalue, hliteral⟩
    exact ⟨p.place, v, (Nat.zero_add _).symm, hfield, hvalue, hauto, hliteral⟩

/-- The places of a record go up. -/
theorem pairwise_positions (schema : Schema) (values : List Value) :
    (positions schema values).Pairwise (· < ·) := by
  rw [positions, List.pairwise_map]
  exact pairwise_placedFrom 0 schema.fields values

/-- A position is written exactly if its field does not count up by itself and the record
has a literal there. -/
theorem mem_positions_iff {i : Nat} :
    i ∈ positions schema values ↔
      ∃ f v l, schema.fields[i]? = some f ∧ f.autoIncrement = false ∧ values[i]? = some v ∧
        f.literal v = .ok l := by
  rw [positions, List.mem_map]
  constructor
  · rintro ⟨p, hp, rfl⟩
    obtain ⟨hfield, hauto, v, hvalue, hliteral⟩ := mem_placed_iff.mp hp
    exact ⟨p.field, v, p.literal, hfield, hauto, hvalue, hliteral⟩
  · rintro ⟨f, v, l, hfield, hauto, hvalue, hliteral⟩
    exact ⟨⟨i, f, l⟩, mem_placed_iff.mpr ⟨hfield, hauto, v, hvalue, hliteral⟩, rfl⟩

/-- A later record gives a literal at a place exactly if its value there has one. -/
theorem literalAt_eq_ok_iff (hp : p ∈ placed schema values) {other : List Value} {l : Literal} :
    literalAt other p = .ok l ↔ LiteralAt schema other p.place l := by
  obtain ⟨hfield, _⟩ := mem_placed_iff.mp hp
  unfold literalAt LiteralAt
  rw [hfield]
  cases other[p.place]? with
  | none => simp
  | some v => simp

/-- It fails there with the error of its value, or because it is too short. -/
theorem literalAt_eq_error_iff (hp : p ∈ placed schema values) {other : List Value} {e : Error} :
    literalAt other p = .error e ↔ NoLiteralAt schema other p.place e := by
  obtain ⟨hfield, _⟩ := mem_placed_iff.mp hp
  unfold literalAt NoLiteralAt
  rw [hfield]
  cases other[p.place]? with
  | none => simp [eq_comm]
  | some v => simp

/-- Literals of a record that stand in the columns of these positions. -/
def RowAt (schema : Schema) (places : List Nat) (values : List Value) (row : List Literal) :
    Prop :=
  List.Forall₂ (LiteralAt schema values) places row

/-- A record has a literal at each of these positions. -/
def CompleteAt (schema : Schema) (places : List Nat) (values : List Value) : Prop :=
  ∀ i ∈ places, ∃ l, LiteralAt schema values i l

/-- The first of these positions at which a record has no literal has none for this reason. -/
def FailsAt (schema : Schema) (places : List Nat) (values : List Value) (e : Error) : Prop :=
  FirstFails (fun i => ∃ l, LiteralAt schema values i l) (NoLiteralAt schema values) places e

/-- The row of a later record has one literal for each place of the first. -/
theorem row_eq_ok_iff {other : List Value} {ls : List Literal} :
    row (placed schema values) other = .ok ls ↔
      RowAt schema (positions schema values) other ls := by
  rw [row, mapM_eq_ok_iff, RowAt, positions, List.forall₂_map_left_iff]
  exact forall₂_congr_left fun p hp l => literalAt_eq_ok_iff hp

/-- The row of a later record fails at the first place where the record does. -/
theorem row_eq_error_iff {other : List Value} {e : Error} :
    row (placed schema values) other = .error e ↔
      FailsAt schema (positions schema values) other e := by
  rw [row, mapM_eq_error_iff, FailsAt, positions]
  refine (FirstFails.map_iff ?_ ?_).symm
  · intro p hp
    exact exists_congr fun l => (literalAt_eq_ok_iff hp).symm
  · intro p hp
    exact (literalAt_eq_error_iff hp).symm

/-- A later record has a row exactly if it is complete. -/
theorem exists_row_iff {other : List Value} :
    (∃ ls, row (placed schema values) other = .ok ls) ↔
      CompleteAt schema (positions schema values) other := by
  simp only [row, exists_mapM_iff, CompleteAt, positions, List.forall_mem_map]
  exact forall₂_congr fun p hp => exists_congr fun l => literalAt_eq_ok_iff hp

/-- The row of the first record is made like the later ones. -/
theorem row_self (schema : Schema) (values : List Value) :
    row (placed schema values) values = .ok ((placed schema values).map (·.literal)) := by
  rw [row, mapM_eq_ok_iff, List.forall₂_map_right_iff, List.forall₂_same]
  intro p hp
  obtain ⟨_, _, v, hvalue, hliteral⟩ := mem_placed_iff.mp hp
  rw [literalAt, hvalue]
  exact hliteral

/-- The row of the first record is what a plain insert writes for it. -/
theorem rowAt_self (schema : Schema) (values : List Value) :
    RowAt schema (positions schema values) values ((placed schema values).map (·.literal)) :=
  row_eq_ok_iff.mp (row_self schema values)

end Placed

/-- The names of the fields at these positions. -/
def NamesAt (schema : Schema) (places : List Nat) (columns : List String) : Prop :=
  List.Forall₂ (fun i name => schema.names[i]? = some name) places columns

section Whole

variable {schema : Schema} {first : List Value} {others : List (List Value)}

/-- The names of what a plain insert writes are those at its positions. -/
theorem namesAt_positions_iff {columns : List String} :
    NamesAt schema (positions schema first) columns ↔
      (placed schema first).map (·.field.name) = columns := by
  have hname : ∀ p ∈ placed schema first, ∀ name,
      schema.names[p.place]? = some name ↔ p.field.name = name := by
    intro p hp name
    obtain ⟨hfield, _⟩ := mem_placed_iff.mp hp
    simp [Schema.names, hfield]
  rw [NamesAt, positions, List.forall₂_map_left_iff, forall₂_congr_left hname,
    ← List.forall₂_map_left_iff, List.forall₂_eq_eq_eq]

/-- A batch has the columns of its first record and a row for each record. -/
theorem ofRecords_cons (schema : Schema) (first : List Value) (others : List (List Value)) :
    ofRecords schema (first :: others) =
      (others.mapM (row (placed schema first))).map fun rows =>
        ⟨(placed schema first).map (·.field.name),
          (placed schema first).map (·.literal) :: rows⟩ := by
  rw [ofRecords]
  cases others.mapM (row (placed schema first)) <;> rfl

/-- All rows of a batch are made alike. -/
theorem ofRecords_eq_mapM (schema : Schema) (first : List Value) (others : List (List Value)) :
    ofRecords schema (first :: others) =
      ((first :: others).mapM (row (placed schema first))).map
        (Batch.mk ((placed schema first).map (·.field.name))) := by
  rw [ofRecords_cons, List.mapM_cons, row_self, ok_bind]
  cases others.mapM (row (placed schema first)) <;> rfl

/-- The rows of a batch are those of the records in the columns of the first one. -/
theorem ofRecords_eq_ok_iff {b : Batch} :
    ofRecords schema (first :: others) = .ok b ↔
      NamesAt schema (positions schema first) b.columns ∧
        List.Forall₂ (RowAt schema (positions schema first)) (first :: others) b.rows := by
  have hrows {rows : List (List Literal)} :
      (first :: others).mapM (row (placed schema first)) = .ok rows ↔
        List.Forall₂ (RowAt schema (positions schema first)) (first :: others) rows := by
    rw [mapM_eq_ok_iff]
    exact forall₂_congr_left fun values _ ls => row_eq_ok_iff
  obtain ⟨columns, rows⟩ := b
  rw [ofRecords_eq_mapM, map_eq_ok, namesAt_positions_iff]
  constructor
  · rintro ⟨rows', hmade, heq⟩
    cases heq
    exact ⟨rfl, hrows.mp hmade⟩
  · rintro ⟨rfl, hmade⟩
    exact ⟨rows, hrows.mpr hmade, rfl⟩

/-- There is a batch exactly if every later record is complete. -/
theorem exists_ofRecords_iff :
    (∃ b, ofRecords schema (first :: others) = .ok b) ↔
      ∀ values ∈ others, CompleteAt schema (positions schema first) values := by
  have hrows : (∃ rows, others.mapM (row (placed schema first)) = .ok rows) ↔
      ∀ values ∈ others, CompleteAt schema (positions schema first) values := by
    rw [exists_mapM_iff]
    exact forall₂_congr fun values _ => exists_row_iff
  rw [← hrows]
  constructor
  · intro h
    obtain ⟨b, hb⟩ := h
    rw [ofRecords_cons] at hb
    obtain ⟨rows, hmade, _⟩ := map_eq_ok.mp hb
    exact ⟨rows, hmade⟩
  · intro h
    obtain ⟨rows, hmade⟩ := h
    rw [ofRecords_cons, hmade]
    exact ⟨_, rfl⟩

/-- Why there is no batch. -/
theorem ofRecords_eq_error_iff {e : Error} :
    ofRecords schema (first :: others) = .error e ↔
      FirstFails (CompleteAt schema (positions schema first))
        (FailsAt schema (positions schema first)) others e := by
  rw [ofRecords_cons, map_eq_error, mapM_eq_error_iff]
  exact FirstFails.congr (fun _ _ => exists_row_iff) fun _ _ => row_eq_error_iff

/-- Records that keep the same positions have the rows that they have alone. -/
theorem ofRecords_of_same_positions
    (h : ∀ values ∈ others, positions schema values = positions schema first) :
    ofRecords schema (first :: others) =
      .ok ⟨(placed schema first).map (·.field.name),
        (first :: others).map fun values => (placed schema values).map (·.literal)⟩ := by
  have hall : ∀ values ∈ first :: others, positions schema values = positions schema first :=
    List.forall_mem_cons.mpr ⟨rfl, h⟩
  have hrows : List.Forall₂ (RowAt schema (positions schema first)) (first :: others)
      ((first :: others).map fun values => (placed schema values).map (·.literal)) := by
    rw [List.forall₂_map_right_iff, List.forall₂_same]
    intro values hvalues
    rw [← hall values hvalues]
    exact rowAt_self schema values
  exact ofRecords_eq_ok_iff.mpr ⟨namesAt_positions_iff.mpr rfl, hrows⟩

end Whole

end Batch

section PlainInserts

open Batch

/-- The plain insert of a record has the columns of every record with the same positions. -/
theorem Statement.ofInsert_of_positions {schema : Schema} {first values : List Value}
    (h : positions schema values = positions schema first) (table : String) :
    ofInsert schema table values =
      insert table ⟨(placed schema first).map (·.field.name),
        [(placed schema values).map (·.literal)]⟩ := by
  have hnames : NamesAt schema (positions schema values)
      ((placed schema first).map (·.field.name)) := by
    rw [h]
    exact namesAt_positions_iff.mpr rfl
  rw [ofInsert, ofRecord, namesAt_positions_iff.mp hnames]

/-- **The shape of a batch.**  Its columns are those of the fields that a plain insert of
the first record writes, in the order of the fields and never one that counts up.  There
is a batch exactly if there is a record and each later one has a literal in all of these
columns; then there is one row a record, with the record's literal in each column.
Otherwise it is the first incomplete record, at its first column without a literal, that
says why.  The batch of one record is its plain insert, and records that keep the same
positions have the rows of their plain inserts. -/
theorem batch_shape (schema : Schema) (table : String) :
    ofRecords schema [] = .error .noRecordsProvided ∧
      ∀ (first : List Value) (others : List (List Value)),
        (positions schema first).Pairwise (· < ·) ∧
        (∀ i, i ∈ positions schema first ↔
          ∃ f v l, schema.fields[i]? = some f ∧ f.autoIncrement = false ∧
            first[i]? = some v ∧ f.literal v = .ok l) ∧
        (∀ i ∈ positions schema first, i < schema.fields.length ∧ i < first.length) ∧
        ((∃ b, ofRecords schema (first :: others) = .ok b) ↔
          ∀ values ∈ others, CompleteAt schema (positions schema first) values) ∧
        (∀ b, ofRecords schema (first :: others) = .ok b ↔
          NamesAt schema (positions schema first) b.columns ∧
            List.Forall₂ (RowAt schema (positions schema first)) (first :: others) b.rows) ∧
        (∀ e, ofRecords schema (first :: others) = .error e ↔
          FirstFails (CompleteAt schema (positions schema first))
            (FailsAt schema (positions schema first)) others e) ∧
        Statement.ofInsertMany schema table [first] = .ok (.ofInsert schema table first) ∧
        ((∀ values ∈ others, positions schema values = positions schema first) →
          ∃ columns rows,
            Statement.ofInsertMany schema table (first :: others) =
              .ok (.insert table ⟨columns, rows⟩) ∧
            List.Forall₂
              (fun values row =>
                Statement.ofInsert schema table values = .insert table ⟨columns, [row]⟩)
              (first :: others) rows) := by
  refine ⟨rfl, fun first others => ⟨pairwise_positions schema first, fun i => mem_positions_iff,
    ?_, exists_ofRecords_iff, fun b => ofRecords_eq_ok_iff, fun e => ofRecords_eq_error_iff,
    rfl, ?_⟩⟩
  · intro i hi
    obtain ⟨f, v, l, hfield, _, hvalue, _⟩ := mem_positions_iff.mp hi
    exact ⟨(List.getElem?_eq_some_iff.mp hfield).1, (List.getElem?_eq_some_iff.mp hvalue).1⟩
  · intro hsame
    have hall : ∀ values ∈ first :: others,
        positions schema values = positions schema first :=
      List.forall_mem_cons.mpr ⟨rfl, hsame⟩
    refine ⟨(placed schema first).map (·.field.name),
      (first :: others).map fun values => (placed schema values).map (·.literal), ?_, ?_⟩
    · rw [Statement.ofInsertMany, ofRecords_of_same_positions hsame]
      rfl
    · rw [List.forall₂_map_right_iff, List.forall₂_same]
      intro values hvalues
      exact Statement.ofInsert_of_positions (hall values hvalues) table

/-- What sensors have read: the numbers count up, and the level is a double. -/
def readings : Schema :=
  ⟨[⟨"id", "bigint unsigned", false, "0", true, "", none⟩,
    ⟨"sensor", "varchar(32)", false, "''", false, "", none⟩,
    ⟨"level", "double", false, "0", false, "", none⟩], by decide⟩

/-- A reading of sensor `a`. -/
def earlierReading (level : Binary64) : List Value :=
  [.unsigned 0, .text "a", .float level]

/-- A reading of sensor `b`, the level being one and a half. -/
def laterReading : List Value :=
  [.unsigned 0, .text "b", .float ⟨0x3ff8000000000000⟩]

/-- Two readings that keep the same positions. -/
theorem batch_shape_readings :
    positions readings laterReading = positions readings (earlierReading ⟨0⟩) ∧
      ∃ columns rows,
        Statement.ofInsertMany readings "readings" [earlierReading ⟨0⟩, laterReading] =
          .ok (.insert "readings" ⟨columns, rows⟩) ∧
        List.Forall₂
          (fun values row =>
            Statement.ofInsert readings "readings" values = .insert "readings" ⟨columns, [row]⟩)
          [earlierReading ⟨0⟩, laterReading] rows := by
  have hpositions : positions readings laterReading = positions readings (earlierReading ⟨0⟩) := by
    decide +kernel
  obtain ⟨_, hall⟩ := batch_shape readings "readings"
  obtain ⟨_, _, _, _, _, _, _, hsame⟩ := hall (earlierReading ⟨0⟩) [laterReading]
  refine ⟨hpositions, hsame ?_⟩
  intro values hvalues
  rw [List.mem_singleton.mp hvalues]
  exact hpositions

/-- Both statements of several records are made of their batch. -/
theorem Statement.exists_batch {schema : Schema} {table : String} {records : List (List Value)}
    {st : Statement} (h : ofInsertMany schema table records = .ok st ∨
      ∃ as, ofUpsert schema table records as = .ok st) :
    ∃ b, ofRecords schema records = .ok b ∧
      (st = insert table b ∨ ∃ updates, st = upsert table b updates) := by
  rcases h with hinsert | ⟨as, hupsert⟩
  · rw [ofInsertMany] at hinsert
    obtain ⟨b, hb, hst⟩ := bind_eq_ok.mp hinsert
    cases hst
    exact ⟨b, hb, .inl rfl⟩
  · rw [ofUpsert] at hupsert
    obtain ⟨b, hb, hst⟩ := bind_eq_ok.mp hupsert
    obtain ⟨updates, _, hst⟩ := bind_eq_ok.mp hst
    cases hst
    exact ⟨b, hb, .inr ⟨updates, rfl⟩⟩

/-- Of what a plain insert writes of a record, the record's row has the literals at the
positions of the batch. -/
theorem Batch.RowAt.getElem?_eq {schema : Schema} {places : List Nat} {values : List Value}
    {row : List Literal} (hrow : RowAt schema places values row) {p : Placed}
    (hp : p ∈ placed schema values) {j : Nat} (hj : places[j]? = some p.place) :
    row[j]? = some p.literal := by
  obtain ⟨hfield, _, v, hvalue, hliteral⟩ := mem_placed_iff.mp hp
  have hown : LiteralAt schema values p.place p.literal := ⟨p.field, v, hfield, hvalue, hliteral⟩
  obtain ⟨hlength, hbeside⟩ := List.forall₂_iff_get.mp hrow
  obtain ⟨hlt, hplace⟩ := List.getElem?_eq_some_iff.mp hj
  have hthere : LiteralAt schema values p.place row[j] := hplace ▸ hbeside j hlt (hlength ▸ hlt)
  exact List.getElem?_eq_some_iff.mpr ⟨hlength ▸ hlt, hthere.eq hown⟩

/-- The columns of a batch have the names of the fields at their positions. -/
theorem Batch.NamesAt.getElem?_eq {schema : Schema} {places : List Nat} {columns : List String}
    (hcolumns : NamesAt schema places columns) {place j : Nat} {f : Field}
    (hfield : schema.fields[place]? = some f) (hj : places[j]? = some place) :
    columns[j]? = some f.name := by
  obtain ⟨hlength, hbeside⟩ := List.forall₂_iff_get.mp hcolumns
  obtain ⟨hlt, rfl⟩ := List.getElem?_eq_some_iff.mp hj
  have hname : schema.names[places[j]]? = some columns[j] := hbeside j hlt (hlength ▸ hlt)
  rw [Schema.names, List.getElem?_map, hfield] at hname
  exact List.getElem?_eq_some_iff.mpr ⟨hlength ▸ hlt, (Option.some.inj hname).symm⟩

/-- **A batch writes the columns of its first record.**  Its columns are those of the plain
insert of this record, and every row has a literal in each of them.  What a plain insert
would write of any one of the records is in these columns exactly if a plain insert of the
first record would write it too, and then the record's row has the record's literal
there. -/
theorem batch_keeps_columns_of_first {schema : Schema} {table : String}
    {records : List (List Value)} {st : Statement}
    (hst : Statement.ofInsertMany schema table records = .ok st ∨
      ∃ as, Statement.ofUpsert schema table records as = .ok st) :
    ∃ first others columns rows, records = first :: others ∧
      (st = .insert table ⟨columns, rows⟩ ∨
        ∃ updates, st = .upsert table ⟨columns, rows⟩ updates) ∧
      (∃ row, Statement.ofInsert schema table first = .insert table ⟨columns, [row]⟩) ∧
      NamesAt schema (positions schema first) columns ∧ rows.length = records.length ∧
      ∀ (k : Nat) values row, records[k]? = some values → rows[k]? = some row →
        row.length = columns.length ∧
        ∀ p ∈ placed schema values,
          (p.place ∈ positions schema first ↔ ∃ q ∈ placed schema first, q.place = p.place) ∧
          ∀ j : Nat, (positions schema first)[j]? = some p.place →
            columns[j]? = some p.field.name ∧ row[j]? = some p.literal := by
  obtain ⟨⟨columns, rows⟩, hmade, hstatement⟩ := Statement.exists_batch hst
  cases records with
  | nil => cases hmade
  | cons first others =>
      obtain ⟨hcolumns, hrows⟩ := ofRecords_eq_ok_iff.mp hmade
      obtain ⟨hlength, hbeside⟩ := List.forall₂_iff_get.mp hrows
      have hplain : Statement.ofInsert schema table first =
          .insert table ⟨columns, [(placed schema first).map (·.literal)]⟩ := by
        have hnames : (placed schema first).map (·.field.name) = columns :=
          namesAt_positions_iff.mp hcolumns
        rw [← hnames]
        exact Statement.ofInsert_of_positions rfl table
      refine ⟨first, others, columns, rows, rfl, hstatement, ⟨_, hplain⟩, hcolumns,
        hlength.symm, ?_⟩
      intro k values row hvalues hrow
      obtain ⟨hk, rfl⟩ := List.getElem?_eq_some_iff.mp hvalues
      obtain ⟨hk', rfl⟩ := List.getElem?_eq_some_iff.mp hrow
      have hthere : RowAt schema (positions schema first) _ rows[k] := hbeside k hk hk'
      refine ⟨hthere.length_eq.symm.trans hcolumns.length_eq, ?_⟩
      intro p hp
      refine ⟨List.mem_map, ?_⟩
      intro j hj
      exact ⟨hcolumns.getElem?_eq (mem_placed_iff.mp hp).1 hj, hthere.getElem?_eq hp hj⟩

/-- The first reading has no level that could be written, and so the batch has no column for
the level of the second one, but its sensor is in its row. -/
theorem batch_keeps_columns_of_first_readings :
    ∃ batch,
      Statement.ofInsertMany readings "readings"
          [earlierReading .notANumber, laterReading] = .ok (.insert "readings" batch) ∧
      NamesAt readings (positions readings (earlierReading .notANumber)) batch.columns ∧
      ∀ row, batch.rows[1]? = some row →
        row.length = batch.columns.length ∧
        2 ∉ positions readings (earlierReading .notANumber) ∧
        ∀ j : Nat, (positions readings (earlierReading .notANumber))[j]? = some 1 →
          batch.columns[j]? = some "sensor" ∧ row[j]? = some (.quoted "b") := by
  obtain ⟨batch, hmade⟩ : ∃ batch, Statement.ofInsertMany readings "readings"
      [earlierReading .notANumber, laterReading] = .ok (.insert "readings" batch) := ⟨_, rfl⟩
  obtain ⟨first, others, columns, rows, hrecords, hst, _, hcolumns, _, hkept⟩ :=
    batch_keeps_columns_of_first (.inl hmade)
  cases hrecords
  obtain heq | ⟨updates, heq⟩ := hst
  · cases heq
    refine ⟨⟨columns, rows⟩, hmade, hcolumns, ?_⟩
    intro row hrow
    obtain ⟨hlength, hsecond⟩ := hkept 1 laterReading row rfl hrow
    obtain ⟨hlevel, _⟩ := hsecond ⟨2, readings.fields[2], .fixed ⟨0x3ff8000000000000⟩⟩
      (by decide +kernel)
    obtain ⟨_, hsensor⟩ := hsecond ⟨1, readings.fields[1], .quoted "b"⟩ (by decide +kernel)
    refine ⟨hlength, ?_, hsensor⟩
    intro hmem
    have hwritten := hlevel.mp hmem
    revert hwritten
    decide +kernel
  · cases heq

/-- A plain insert of the second reading writes its level, and the batch does not. -/
theorem batch_without_level :
    ∃ batch plain,
      Statement.ofInsertMany readings "readings"
          [earlierReading .notANumber, laterReading] = .ok (.insert "readings" batch) ∧
      Statement.ofInsert readings "readings" laterReading = .insert "readings" plain ∧
      "level" ∈ plain.columns ∧ "level" ∉ batch.columns :=
  ⟨_, _, rfl, rfl, by decide +kernel, by decide +kernel⟩

end PlainInserts

end TableMapper
