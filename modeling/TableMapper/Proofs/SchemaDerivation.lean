import Mathlib.Data.List.Forall2
import TableMapper.Proofs.Attempt
import TableMapper.Proofs.BlankText
import TableMapper.Proofs.QuotedReading
import TableMapper.Proofs.SchemaLookup

/-!
# Deriving schemas

The fields of a schema come from the columns of a record type, embedded records in their
place.  A column of texts or of floating point numbers needs a type, and at most one column
may count up; a missing type is found first, wherever it is, since columns are made into
fields before they are counted.  This file says in which order the columns stand, which
record types have a schema, and what the error is of the others.

* `Member.at?` — the column at an address, that is at a position, or at a position and at
  an address inside the record that is embedded there;
* `Member.exists_listing` — the columns stand in the order of their addresses;
* `Column.Untyped`, `Column.Counts` — what is looked for in columns;
* `Schema.ofMembers_eq_error_iff` — why a record type has no schema;
* `Schema.derivation` — both together, with what the schema answers about its fields.
-/

namespace TableMapper

/-- The column at an address. -/
def Member.at? : List Nat → List Member → Option Column
  | [], _ => none
  | i :: rest, ms =>
    match ms[i]? with
    | some (.column c) => if rest.isEmpty then some c else none
    | some (.embedded _ parts) => at? rest parts
    | _ => none

mutual

/-- The columns of the member at a position with their addresses. -/
def Member.addressedOf (i : Nat) : Member → List (List Nat × Column)
  | .column c => [([i], c)]
  | .embedded _ parts => (Member.addressed 0 parts).map fun (address, c) => (i :: address, c)
  | .skipped _ => []

/-- The columns of the members from a position on with their addresses. -/
def Member.addressed (i : Nat) : List Member → List (List Nat × Column)
  | [] => []
  | m :: ms => m.addressedOf i ++ Member.addressed (i + 1) ms

end

namespace Member

mutual

/-- Without the addresses, these are the columns of the member. -/
theorem map_addressedOf (i : Nat) : ∀ m : Member, (m.addressedOf i).map (·.2) = m.columnsOf
  | .column _ => rfl
  | .embedded _ parts => by
      have hparts := map_addressed 0 parts
      rw [addressedOf, columnsOf, List.map_map, ← hparts]
      rfl
  | .skipped _ => rfl

/-- Without the addresses, these are the columns of the members. -/
theorem map_addressed (i : Nat) : ∀ ms : List Member,
    (addressed i ms).map (·.2) = columns ms
  | [] => rfl
  | m :: ms => by
      have hfirst := map_addressedOf i m
      have hrest := map_addressed (i + 1) ms
      rw [addressed, columns, List.map_append, hfirst, hrest]

end

mutual

/-- The addresses of the columns of one member begin with its position. -/
theorem mem_addressedOf_iff (i : Nat) (address : List Nat) (c : Column) : ∀ m : Member,
    (address, c) ∈ m.addressedOf i ↔ ∃ rest, address = i :: rest ∧ at? (0 :: rest) [m] = some c
  | .column d => by
      constructor
      · intro h
        obtain ⟨rfl, rfl⟩ := Prod.mk.inj (List.mem_singleton.mp h)
        exact ⟨[], rfl, rfl⟩
      · rintro ⟨rest, rfl, hat⟩
        cases rest with
        | nil =>
            cases hat
            exact List.mem_singleton_self _
        | cons j rest => cases hat
  | .embedded name parts => by
      have hparts (a : List Nat) := mem_addressed_iff 0 a c parts
      have hinside (rest : List Nat) :
          at? (0 :: rest) [.embedded name parts] = at? rest parts := rfl
      rw [addressedOf, List.mem_map]
      constructor
      · rintro ⟨⟨a, d⟩, hmem, heq⟩
        cases heq
        obtain ⟨j, rest, rfl, hat⟩ := (hparts a).mp hmem
        exact ⟨_, rfl, by rwa [hinside, Nat.zero_add]⟩
      · rintro ⟨rest, rfl, hat⟩
        rw [hinside] at hat
        cases rest with
        | nil => cases hat
        | cons j rest =>
            exact ⟨(j :: rest, c), (hparts _).mpr ⟨j, rest, by rw [Nat.zero_add], hat⟩, rfl⟩
  | .skipped _ => by
      constructor
      · intro h
        exact absurd h List.not_mem_nil
      · rintro ⟨rest, _, hat⟩
        cases hat

/-- The addresses are exactly those at which there is a column. -/
theorem mem_addressed_iff (i : Nat) (address : List Nat) (c : Column) : ∀ ms : List Member,
    (address, c) ∈ addressed i ms ↔
      ∃ j rest, address = (i + j) :: rest ∧ at? (j :: rest) ms = some c
  | [] => by
      constructor
      · intro h
        exact absurd h List.not_mem_nil
      · rintro ⟨j, rest, _, hat⟩
        cases hat
  | m :: ms => by
      have hfirst := mem_addressedOf_iff i address c m
      have hrest := mem_addressed_iff (i + 1) address c ms
      rw [addressed, List.mem_append, hfirst, hrest]
      constructor
      · rintro (⟨rest, rfl, hat⟩ | ⟨j, rest, rfl, hat⟩)
        · exact ⟨0, rest, rfl, hat⟩
        · exact ⟨j + 1, rest, by rw [Nat.add_right_comm, Nat.add_assoc], hat⟩
      · rintro ⟨j, rest, rfl, hat⟩
        cases j with
        | zero => exact .inl ⟨rest, rfl, hat⟩
        | succ j => exact .inr ⟨j, rest, by rw [Nat.add_right_comm, Nat.add_assoc], hat⟩

end

mutual

/-- The columns of one member stand in the order of their addresses. -/
theorem pairwise_addressedOf (i : Nat) : ∀ m : Member,
    (m.addressedOf i).Pairwise fun a b => a.1 < b.1
  | .column _ => List.pairwise_singleton _ _
  | .embedded _ parts => by
      have hparts := pairwise_addressed 0 parts
      rw [addressedOf, List.pairwise_map]
      refine hparts.imp ?_
      rintro ⟨a, _⟩ ⟨b, _⟩ hlt
      exact List.cons_lt_cons_iff.mpr (.inr ⟨rfl, hlt⟩)
  | .skipped _ => .nil

/-- The columns stand in the order of their addresses. -/
theorem pairwise_addressed (i : Nat) : ∀ ms : List Member,
    (addressed i ms).Pairwise fun a b => a.1 < b.1
  | [] => .nil
  | m :: ms => by
      have hfirst := pairwise_addressedOf i m
      have hrest := pairwise_addressed (i + 1) ms
      rw [addressed]
      refine List.pairwise_append.mpr ⟨hfirst, hrest, ?_⟩
      -- the addresses of the first member begin with a smaller position
      rintro ⟨a, c⟩ ha ⟨b, d⟩ hb
      obtain ⟨rest, rfl, _⟩ := (mem_addressedOf_iff i a c m).mp ha
      obtain ⟨j, rest', rfl, _⟩ := (mem_addressed_iff (i + 1) b d ms).mp hb
      exact List.cons_lt_cons_iff.mpr (.inl (by omega))

end

/-- A record type with all its columns, in the order of their addresses. -/
structure Listing (ms : List Member) (listed : List (List Nat × Column)) : Prop where
  ordered : listed.Pairwise fun a b => a.1 < b.1
  complete : ∀ address c, (address, c) ∈ listed ↔ at? address ms = some c

/-- The columns of a record type stand in the order of their addresses, and every column
of it is among them. -/
theorem exists_listing (ms : List Member) :
    ∃ listed, Listing ms listed ∧ listed.map (·.2) = columns ms := by
  refine ⟨addressed 0 ms, ⟨pairwise_addressed 0 ms, ?_⟩, map_addressed 0 ms⟩
  intro address c
  rw [mem_addressed_iff]
  constructor
  · rintro ⟨j, rest, rfl, hat⟩
    rwa [Nat.zero_add]
  · intro hat
    cases address with
    | nil => cases hat
    | cons j rest => exact ⟨j, rest, by rw [Nat.zero_add], hat⟩

end Member

namespace Column

/-- A column that needs a type and is given none but blanks. -/
def Untyped (c : Column) : Prop :=
  (c.storage.scalar.category = .text ∨ c.storage.scalar.category = .float) ∧
    ∀ type, c.annotations.sqlType = some type → Text.Blanks type.toList

/-- A column that counts up by itself. -/
def Counts (c : Column) : Prop :=
  c.annotations.increment = true ∧ c.storage.scalar.category = .integer

instance (c : Column) : Decidable c.Counts :=
  inferInstanceAs (Decidable (_ ∧ _))

end Column

/-- Texts and floats have no column type of their own. -/
theorem Scalar.defaultType_eq_none_iff {s : Scalar} :
    s.defaultType = none ↔ s.category = .text ∨ s.category = .float := by
  cases s with
  | integer signed width => cases signed <;> cases width <;> simp [defaultType, category]
  | _ => simp [defaultType, category]

namespace Field

variable {c : Column} {f : Field} {e : Error}

/-- A given type counts only if it is not all blanks. -/
theorem isEmpty_trim_iff {given : Option String} :
    (Text.trim (given.getD "")).isEmpty = true ↔
      ∀ type, given = some type → Text.Blanks type.toList := by
  cases given with
  | none => simp [Text.trim, Text.trimChars, Text.stripBoth]
  | some type => simp [Text.trim, ← Text.trimChars_eq_nil_iff]

/-- Only an untyped column has no type. -/
theorem typeOf_eq_error_iff : typeOf c = .error e ↔ c.Untyped ∧ e = .untypedField c.name := by
  rw [Column.Untyped, ← isEmpty_trim_iff, ← Scalar.defaultType_eq_none_iff, typeOf]
  cases hgiven : (Text.trim (c.annotations.sqlType.getD "")).isEmpty with
  | false => simp
  | true =>
      cases hdefault : c.storage.scalar.defaultType with
      | none => simp [eq_comm]
      | some type => simp

/-- A column has no field exactly if it is untyped. -/
theorem ofColumn_eq_error_iff : ofColumn c = .error e ↔ c.Untyped ∧ e = .untypedField c.name := by
  rw [← typeOf_eq_error_iff, ofColumn, bind_eq_error]
  constructor
  · rintro (htype | ⟨type, _, hpure⟩)
    · exact htype
    · cases hpure
  · exact .inl

/-- Every other column has a field. -/
theorem exists_ofColumn_iff : (∃ f, ofColumn c = .ok f) ↔ ¬c.Untyped := by
  constructor
  · rintro ⟨f, hf⟩ huntyped
    rw [ofColumn_eq_error_iff.mpr ⟨huntyped, rfl⟩] at hf
    cases hf
  · intro htyped
    cases hof : ofColumn c with
    | ok f => exact ⟨f, rfl⟩
    | error e => exact absurd (ofColumn_eq_error_iff.mp hof).1 htyped

/-- A field has the name of its column. -/
theorem name_ofColumn (h : ofColumn c = .ok f) : f.name = c.name := by
  obtain ⟨type, _, heq⟩ := bind_eq_ok.mp h
  cases heq
  rfl

/-- Only a column that counts up is made into a field that does. -/
theorem autoIncrement_ofColumn (h : ofColumn c = .ok f) : f.autoIncrement = true ↔ c.Counts := by
  obtain ⟨type, _, heq⟩ := bind_eq_ok.mp h
  cases heq
  simp [Column.Counts]

/-- A field is that of a column. -/
structure Derived (c : Column) (f : Field) : Prop where
  of_column : ofColumn c = .ok f
  same_name : f.name = c.name
  counts_iff : f.autoIncrement = true ↔ c.Counts

/-- The field that is made of a column is that of the column. -/
theorem derived (h : ofColumn c = .ok f) : Derived c f :=
  ⟨h, name_ofColumn h, autoIncrement_ofColumn h⟩

/-- Fields have the names of their columns. -/
theorem names_of_derived {cs : List Column} {fs : List Field} (h : List.Forall₂ Derived cs fs) :
    fs.map (·.name) = cs.map Column.name := by
  have hbeside : List.Forall₂ Eq (cs.map Column.name) (fs.map (·.name)) :=
    List.forall₂_map_left_iff.mpr (List.forall₂_map_right_iff.mpr
      (h.imp fun _ _ hf => hf.same_name.symm))
  rw [List.forall₂_eq_eq_eq] at hbeside
  exact hbeside.symm

end Field

section FirstTwo

variable {α : Type} {P : α → Prop} {l : List α} {a b : α}

/-- Two elements of a list satisfy `P`, and up to the second one no other does. -/
def FirstTwo (P : α → Prop) (l : List α) (a b : α) : Prop :=
  ∃ before between after, l = before ++ a :: (between ++ b :: after) ∧ P a ∧ P b ∧
    ∀ x ∈ before ++ between, ¬P x

/-- The first two are the first two of the filtered list. -/
theorem firstTwo_iff [DecidablePred P] :
    FirstTwo P l a b ↔ ∃ rest, l.filter (fun x => decide (P x)) = a :: b :: rest := by
  simp only [FirstTwo, List.filter_eq_cons_iff, decide_eq_true_eq]
  constructor
  · rintro ⟨before, between, after, rfl, ha, hb, hothers⟩
    obtain ⟨hbefore, hbetween⟩ := List.forall_mem_append.mp hothers
    exact ⟨_, before, _, rfl, hbefore, ha, between, after, rfl, hbetween, hb, rfl⟩
  · rintro ⟨_, before, _, rfl, hbefore, ha, between, after, rfl, hbetween, hb, _⟩
    exact ⟨before, between, after, rfl, ha, hb, List.forall_mem_append.mpr ⟨hbefore, hbetween⟩⟩

end FirstTwo

namespace Schema

variable {ms : List Member} {fields : List Field} {schema : Schema} {e : Error}

/-- A schema of fields has these fields. -/
theorem fields_ofFields (h : ofFields fields = .ok schema) : schema.fields = fields := by
  unfold ofFields at h
  split at h
  · cases h
    rfl
  · cases h
    rfl
  · cases h

/-- Fields are refused exactly if two of them count up, and the first two are named. -/
theorem ofFields_eq_error_iff :
    ofFields fields = .error e ↔
      ∃ f g, FirstTwo (fun f => f.autoIncrement = true) fields f g ∧
        e = .multipleIncrementFields f.name g.name := by
  simp only [firstTwo_iff, Bool.decide_eq_true]
  unfold ofFields
  split
  next h => simp [h]
  next f h => simp [h]
  next first second rest h => simp [h, eq_comm]

/-- The fields of a schema are those of the columns, in order. -/
theorem fields_ofMembers (h : ofMembers ms = .ok schema) :
    (Member.columns ms).mapM Field.ofColumn = .ok schema.fields := by
  obtain ⟨fields, hfields, h⟩ := bind_eq_ok.mp h
  rw [fields_ofFields h, hfields]

/-- Fields are made column by column. -/
theorem forall₂_derived (h : (Member.columns ms).mapM Field.ofColumn = .ok fields) :
    List.Forall₂ Field.Derived (Member.columns ms) fields :=
  (forall₂_of_mapM h).imp fun _ _ => Field.derived

/-- The fields that count up are those of the columns that do. -/
theorem forall₂_counting (h : (Member.columns ms).mapM Field.ofColumn = .ok fields) :
    List.Forall₂ Field.Derived ((Member.columns ms).filter fun c => decide c.Counts)
      (fields.filter fun f => decide (f.autoIncrement = true)) := by
  refine List.rel_filter ?_ (forall₂_derived h)
  intro c f hderived
  simp [hderived.counts_iff]

/-- The first two fields that count up are those of the first two columns that do. -/
theorem firstTwo_counts_iff (h : (Member.columns ms).mapM Field.ofColumn = .ok fields) :
    (∃ f g, FirstTwo (fun f => f.autoIncrement = true) fields f g ∧
        e = .multipleIncrementFields f.name g.name) ↔
      ∃ c d, FirstTwo Column.Counts (Member.columns ms) c d ∧
        e = .multipleIncrementFields c.name d.name := by
  simp only [firstTwo_iff]
  have hcounting := forall₂_counting h
  constructor
  · rintro ⟨f, g, ⟨rest, hfields⟩, rfl⟩
    rw [hfields] at hcounting
    obtain ⟨c, _, hc, htail, hcolumns⟩ := List.forall₂_cons_right_iff.mp hcounting
    obtain ⟨d, rest', hd, _, rfl⟩ := List.forall₂_cons_right_iff.mp htail
    exact ⟨c, d, ⟨rest', hcolumns⟩, by rw [hc.same_name, hd.same_name]⟩
  · rintro ⟨c, d, ⟨rest, hcolumns⟩, rfl⟩
    rw [hcolumns] at hcounting
    obtain ⟨f, _, hf, htail, hfields⟩ := List.forall₂_cons_left_iff.mp hcounting
    obtain ⟨g, rest', hg, _, rfl⟩ := List.forall₂_cons_left_iff.mp htail
    exact ⟨f, g, ⟨rest', hfields⟩, by rw [hf.same_name, hg.same_name]⟩

/-- All columns are made into fields exactly if none is untyped. -/
theorem exists_mapM_ofColumn_iff :
    (∃ fields, (Member.columns ms).mapM Field.ofColumn = .ok fields) ↔
      ∀ c ∈ Member.columns ms, ¬c.Untyped := by
  simp only [exists_mapM_iff, Field.exists_ofColumn_iff]

/-- A record type has no schema for its first untyped column or, where there is none, for
the first two columns that count up. -/
theorem ofMembers_eq_error_iff :
    ofMembers ms = .error e ↔
      FirstFails (fun c => ¬c.Untyped) (fun c e => c.Untyped ∧ e = .untypedField c.name)
          (Member.columns ms) e ∨
        (∀ c ∈ Member.columns ms, ¬c.Untyped) ∧
          ∃ c d, FirstTwo Column.Counts (Member.columns ms) c d ∧
            e = .multipleIncrementFields c.name d.name := by
  have huntyped : (Member.columns ms).mapM Field.ofColumn = .error e ↔
      FirstFails (fun c => ¬c.Untyped) (fun c e => c.Untyped ∧ e = .untypedField c.name)
        (Member.columns ms) e := by
    rw [mapM_eq_error_iff]
    exact FirstFails.congr (fun _ _ => Field.exists_ofColumn_iff)
      fun _ _ => Field.ofColumn_eq_error_iff
  rw [ofMembers, bind_eq_error, huntyped, ← exists_mapM_ofColumn_iff]
  refine or_congr_right ⟨?_, ?_⟩
  · rintro ⟨fields, hfields, hcount⟩
    exact ⟨⟨fields, hfields⟩, (firstTwo_counts_iff hfields).mp (ofFields_eq_error_iff.mp hcount)⟩
  · rintro ⟨⟨fields, hfields⟩, htwo⟩
    exact ⟨fields, hfields, ofFields_eq_error_iff.mpr ((firstTwo_counts_iff hfields).mpr htwo)⟩

/-- A record type has a schema exactly if no column is untyped and no two count up. -/
theorem exists_ofMembers_iff :
    (∃ schema, ofMembers ms = .ok schema) ↔
      (∀ c ∈ Member.columns ms, ¬c.Untyped) ∧
        (Member.columns ms).Pairwise fun c d => ¬(c.Counts ∧ d.Counts) := by
  constructor
  · rintro ⟨schema, hschema⟩
    have hfields := fields_ofMembers hschema
    refine ⟨exists_mapM_ofColumn_iff.mp ⟨_, hfields⟩, ?_⟩
    rw [pairwise_not_both_iff, (forall₂_counting hfields).length_eq, ← pairwise_not_both_iff]
    exact pairwise_autoIncrement schema
  · rintro ⟨htyped, hone⟩
    cases hschema : ofMembers ms with
    | ok schema => exact ⟨schema, rfl⟩
    | error e =>
        rcases ofMembers_eq_error_iff.mp hschema with hfirst | ⟨_, c, d, htwo, _⟩
        · obtain ⟨before, c, after, hcolumns, _, huntyped, _⟩ := hfirst
          exact absurd huntyped (htyped c (hcolumns ▸ List.mem_append_right _ List.mem_cons_self))
        · obtain ⟨rest, hcounting⟩ := firstTwo_iff.mp htwo
          rw [pairwise_not_both_iff, hcounting] at hone
          simp at hone

/-- What a schema says about its fields: which one counts up, for a statement on any table
that needs one, which one a name stands for, and which columns a query of all of them
names. -/
structure Answers (schema : Schema) : Prop where
  increment_iff : ∀ f, schema.increment? = some f ↔ f ∈ schema.fields ∧ f.autoIncrement = true
  once : schema.fields.Pairwise fun f g => ¬(f.autoIncrement = true ∧ g.autoIncrement = true)
  key_iff : ∀ table f, schema.increment table = .ok f ↔ f ∈ schema.fields ∧ f.autoIncrement = true
  noKey_iff : ∀ table e, schema.increment table = .error e ↔
    (∀ f ∈ schema.fields, f.autoIncrement = false) ∧ e = .noIncrementField table
  known_iff : ∀ name, (∃ f, schema.field? name = some f) ↔ name ∈ schema.names
  field_iff : ∀ name f, schema.field? name = some f ↔
    ∃ before after, schema.fields = before ++ f :: after ∧ f.name = name ∧
      ∀ g ∈ after, g.name ≠ name
  selected : readNameList (Text.quoteNames schema.names) = some schema.names

/-- There is no counting field exactly if no field counts up. -/
theorem increment?_eq_none_iff :
    schema.increment? = none ↔ ∀ f ∈ schema.fields, f.autoIncrement = false := by
  rw [increment?, List.find?_eq_none]
  simp

/-- Every schema answers so about its fields. -/
theorem answers (schema : Schema) : schema.Answers where
  increment_iff _ := increment?_eq_some_iff schema
  once := pairwise_autoIncrement schema
  key_iff _ _ := increment_eq_ok_iff.trans (increment?_eq_some_iff schema)
  noKey_iff _ _ := by rw [increment_eq_error_iff, increment?_eq_none_iff]
  known_iff _ := exists_field?_iff
  field_iff _ _ := field?_eq_some_iff
  selected := readNameList_quoteNames schema.names

/-- The names of a schema are those of the columns. -/
theorem names_ofMembers (h : ofMembers ms = .ok schema) :
    schema.names = (Member.columns ms).map Column.name :=
  Field.names_of_derived (forall₂_derived (fields_ofMembers h))

/-- **Record types and their schemas.**  The columns of a record type are taken in the
order of their addresses, whatever is embedded in what.  The first of them that has no
type is reported or, where all have one, the first two that count up.  Of every other
record type there is a schema: its fields are those of the columns, in order, and what it
answers agrees with them. -/
theorem derivation (ms : List Member) :
    ∃ listed columns, Member.Listing ms listed ∧ columns = listed.map (·.2) ∧
      (∀ e, ofMembers ms = .error e ↔
        FirstFails (fun c => ¬c.Untyped) (fun c e => c.Untyped ∧ e = .untypedField c.name)
            columns e ∨
          (∀ c ∈ columns, ¬c.Untyped) ∧
            ∃ c d, FirstTwo Column.Counts columns c d ∧
              e = .multipleIncrementFields c.name d.name) ∧
      ((∃ schema, ofMembers ms = .ok schema) ↔
        (∀ c ∈ columns, ¬c.Untyped) ∧ columns.Pairwise fun c d => ¬(c.Counts ∧ d.Counts)) ∧
      ∀ schema, ofMembers ms = .ok schema →
        List.Forall₂ Field.Derived columns schema.fields ∧
          schema.names = columns.map Column.name ∧ schema.Answers := by
  obtain ⟨listed, hlisting, hcolumns⟩ := Member.exists_listing ms
  refine ⟨listed, Member.columns ms, hlisting, hcolumns.symm, fun e => ofMembers_eq_error_iff,
    exists_ofMembers_iff, ?_⟩
  intro schema hschema
  exact ⟨forall₂_derived (fields_ofMembers hschema), names_ofMembers hschema, answers schema⟩

/-- A house: a counted id, its town with the height it lies at, the visits of today, which
are not stored, and the town again as letters to it say. -/
def houseMembers : List Member :=
  [.column ⟨"id", ⟨.integer false .w32, false⟩, { increment := true }⟩,
    .embedded "place"
      [.column ⟨"town", ⟨.text, false⟩, { sqlType := some " varchar(20) " }⟩,
        .column ⟨"height", ⟨.float false, true⟩, { sqlType := some "double" }⟩],
    .skipped "visits",
    .column ⟨"town", ⟨.text, true⟩, { sqlType := some "text" }⟩]

/-- The schema of a house. -/
def houseSchema : Schema where
  fields :=
    [⟨"id", "int unsigned", false, "0", true, "", none⟩,
      ⟨"town", "varchar(20)", false, "''", false, "", none⟩,
      ⟨"height", "double", true, "NULL", false, "", none⟩,
      ⟨"town", "text", true, "NULL", false, "", none⟩]
  increment_le_one := by decide

/-- The house has its columns in order, the embedded town beside the one of the letters. -/
theorem derivation_house :
    ofMembers houseMembers = .ok houseSchema ∧
      houseSchema.names = ["id", "town", "height", "town"] ∧ houseSchema.Answers := by
  have hschema : ofMembers houseMembers = .ok houseSchema := rfl
  obtain ⟨_, _, _, _, _, _, hderived⟩ := derivation houseMembers
  obtain ⟨_, _, hanswers⟩ := hderived houseSchema hschema
  exact ⟨hschema, rfl, hanswers⟩

end Schema

end TableMapper
