import TableMapper.Facade
import TableMapper.Proofs.Attempt

/-!
# With which errors things fail

What is decided before a statement is sent fails with a refusal: the record type
is unusable, a call has something it cannot use, or no field counts up.  What is
read from rows fails with a decoding error.  Neither is an error of the database.

* `Error.IsRefusal` — the errors that are found before anything is sent;
* `schema_failsOnly`, `gather_failsOnly`, … — what refuses;
* `fields_failsOnly`, `keys_failsOnly`, `read_failsOnly` — what decodes.
-/

namespace TableMapper

/-- An error that is found before anything is sent. -/
def Error.IsRefusal (e : Error) : Prop :=
  e.kind = .configuration ∨ e.kind = .argument ∨ ∃ table, e = .noIncrementField table

/-- An error about a row that was read. -/
def Error.IsDecoding (e : Error) : Prop :=
  e.kind = .decode

namespace Error

/-- A configuration error is a refusal. -/
theorem IsRefusal.of_configuration {e : Error} (h : e.kind = .configuration) : e.IsRefusal :=
  .inl h

/-- An error about an argument is a refusal. -/
theorem IsRefusal.of_argument {e : Error} (h : e.kind = .argument) : e.IsRefusal :=
  .inr (.inl h)

/-- What cannot be decoded does not say that the table is missing. -/
theorem IsDecoding.isTableMissing_eq_false {e : Error} (h : e.IsDecoding) :
    e.isTableMissing = false := by
  cases e with
  | decode column message => rfl
  | _ => cases h

/-- No error is both of decoding and a refusal. -/
theorem IsDecoding.not_isRefusal {e : Error} (h : e.IsDecoding) : ¬e.IsRefusal := by
  rintro (hkind | hkind | ⟨table, rfl⟩)
  · exact absurd (h.symm.trans hkind) (by decide)
  · exact absurd (h.symm.trans hkind) (by decide)
  · cases h

end Error

/-- A column that is made into no field is refused. -/
theorem Field.ofColumn_failsOnly (c : Column) : FailsOnly Error.IsRefusal (Field.ofColumn c) := by
  have htype : FailsOnly Error.IsRefusal (Field.typeOf c) := by
    unfold typeOf
    dsimp only
    split
    · exact .ok _
    · split
      · exact .ok _
      · exact .error (.of_configuration rfl)
  exact htype.bind fun _ => .ok _

/-- Fields that make no schema are refused. -/
theorem Schema.ofFields_failsOnly (fields : List Field) :
    FailsOnly Error.IsRefusal (Schema.ofFields fields) := by
  unfold ofFields
  split
  · exact .ok _
  · exact .ok _
  · exact .error (.of_configuration rfl)

/-- A record type without a schema is refused. -/
theorem RecordType.schema_failsOnly (t : RecordType) : FailsOnly Error.IsRefusal t.schema :=
  (FailsOnly.mapM Field.ofColumn_failsOnly _).bind Schema.ofFields_failsOnly

/-- A key that cannot be settled is refused. -/
theorem Key.settle_failsOnly (kind : KeyKind) (k : Key) :
    FailsOnly Error.IsRefusal (k.settle kind) := by
  unfold settle
  split
  · exact .error (.of_configuration rfl)
  · split
    · exact .ok _
    · exact .ok _

/-- The error that stops a list of keys is a refusal. -/
theorem Key.settleAll_isRefusal {kind : KeyKind} {ks : List Key} {e : Error}
    (h : (Key.settleAll kind ks).2 = some e) : e.IsRefusal := by
  induction ks with
  | nil => cases h
  | cons k ks ih =>
      rw [Key.settleAll] at h
      cases hk : k.settle kind with
      | error e' =>
          rw [hk] at h
          cases h
          exact Key.settle_failsOnly kind k e hk
      | ok k' =>
          rw [hk] at h
          exact ih h

/-- Options that do not pass the check are refused. -/
theorem TableOptions.check_failsOnly (o : TableOptions) : FailsOnly Error.IsRefusal o.check := by
  intro e h
  have hsettle : o.settle.2 = some e := by
    unfold check at h
    split at h
    · cases h
    · rename_i heq
      cases h
      exact congrArg Prod.snd heq
  unfold settle at hsettle
  split at hsettle
  · cases hsettle
    exact .of_configuration rfl
  · split at hsettle
    · rename_i heq
      cases hsettle
      exact Key.settleAll_isRefusal (congrArg Prod.snd heq)
    · exact Key.settleAll_isRefusal hsettle

/-- Arguments that cannot be taken up are refused. -/
theorem Arguments.addAll_failsOnly (schema : Schema) (verb : Verb) (a : Arguments)
    (args : List Argument) : FailsOnly Error.IsRefusal (Arguments.addAll schema verb a args) := by
  induction args generalizing a with
  | nil => exact .ok a
  | cons arg args ih =>
      unfold addAll
      split
      · exact ih _
      · exact .error (.of_argument rfl)

/-- Arguments are gathered, or refused. -/
theorem Arguments.gather_failsOnly (schema : Schema) (base : TableOptions) (verb : Verb)
    (args : List Argument) :
    FailsOnly Error.IsRefusal (Arguments.gather schema base verb args) :=
  (Arguments.addAll_failsOnly schema verb _ args).bind fun gathered =>
    gathered.options.check_failsOnly.bind fun _ => .ok _

/-- Cells that give no values for a schema are refused. -/
theorem Schema.values_failsOnly (schema : Schema) (cells : List Cell) :
    FailsOnly Error.IsRefusal (schema.values cells) := by
  unfold values
  dsimp only
  split
  · exact .ok _
  · exact .error (.of_configuration rfl)

/-- Asking for a counting field where there is none is refused. -/
theorem Schema.increment_failsOnly (schema : Schema) (table : String) :
    FailsOnly Error.IsRefusal (schema.increment table) := by
  unfold increment
  split
  · exact .ok _
  · exact .error (.inr (.inr ⟨table, rfl⟩))

/-- A value without a literal is refused. -/
theorem Value.literal_failsOnly (column : String) (sqlType : Option String) (v : Value) :
    FailsOnly Error.IsRefusal (v.literal column sqlType) := by
  unfold literal
  split
  case h_4 =>
      split
      · exact .ok _
      · exact .error (.of_argument rfl)
  case h_7 =>
      split
      · exact .ok _
      · exact .error (.of_argument rfl)
  case h_8 => exact .error (.of_argument rfl)
  case h_9 => exact .error (.of_argument rfl)
  all_goals exact .ok _

/-- So is a value without a literal at a place of a row. -/
theorem Batch.literalAt_failsOnly (values : List Value) (p : Placed) :
    FailsOnly Error.IsRefusal (Batch.literalAt values p) := by
  unfold literalAt
  split
  · exact Value.literal_failsOnly _ _ _
  · exact .error (.of_argument rfl)

/-- Records that make no batch are refused. -/
theorem Batch.ofRecords_failsOnly (schema : Schema) (records : List (List Value)) :
    FailsOnly Error.IsRefusal (Batch.ofRecords schema records) := by
  cases records with
  | nil => exact .error (.of_argument rfl)
  | cons first others =>
      exact (FailsOnly.mapM (fun values => FailsOnly.mapM (Batch.literalAt_failsOnly values) _)
        others).bind fun _ => .ok _

/-- An assignment that cannot be written is refused. -/
theorem Assignment.resolve_failsOnly (schema : Schema) (a : Assignment) :
    FailsOnly Error.IsRefusal (a.resolve schema) := by
  unfold resolve
  split
  · exact .error (.of_argument rfl)
  · split
    · exact .ok _
    · exact (Value.literal_failsOnly _ _ _).map

/-- So is a list of assignments. -/
theorem Assignment.resolveAll_failsOnly (schema : Schema) (as : List Assignment) :
    FailsOnly Error.IsRefusal (Assignment.resolveAll schema as) := by
  refine (FailsOnly.mapM (Assignment.resolve_failsOnly schema) _).bind fun updates => ?_
  cases updates with
  | nil => exact .error (.of_argument rfl)
  | cons u us => exact .ok _

/-- Refused records make no insert. -/
theorem Statement.ofInsertMany_failsOnly (schema : Schema) (table : String)
    (records : List (List Value)) :
    FailsOnly Error.IsRefusal (Statement.ofInsertMany schema table records) :=
  (Batch.ofRecords_failsOnly schema records).bind fun _ => .ok _

/-- Refused records or assignments make no upsert. -/
theorem Statement.ofUpsert_failsOnly (schema : Schema) (table : String)
    (records : List (List Value)) (as : List Assignment) :
    FailsOnly Error.IsRefusal (Statement.ofUpsert schema table records as) :=
  (Batch.ofRecords_failsOnly schema records).bind fun _ =>
    (Assignment.resolveAll_failsOnly schema as).bind fun _ => .ok _

/-- Refused assignments make no update. -/
theorem Statement.ofUpdate_failsOnly (schema : Schema) (args : Arguments)
    (as : List Assignment) : FailsOnly Error.IsRefusal (Statement.ofUpdate schema args as) :=
  (Assignment.resolveAll_failsOnly schema as).bind fun _ => .ok _

/-- Refused values or arguments make no guarded insert. -/
theorem Statement.ofGuardedInsert_failsOnly (schema : Schema) (args : Arguments)
    (values : List Value) :
    FailsOnly Error.IsRefusal (Statement.ofGuardedInsert schema args values) := by
  unfold ofGuardedInsert
  cases args.conditions with
  | nil => exact .error (.of_argument rfl)
  | cons p ps =>
      refine (Schema.increment_failsOnly schema args.table).bind fun increment => ?_
      cases Batch.placed schema values with
      | nil => exact .error (.of_argument rfl)
      | cons q qs => exact .ok _

/-- A value that is not of the expected kind is a decoding error. -/
theorem Row.readAs_failsOnly {α : Type} (r : Row) (expected : Scalar) (take? : Value → Option α)
    (column : String) : FailsOnly Error.IsDecoding (r.readAs expected take? column) := by
  unfold readAs
  split
  · exact .error rfl
  · split
    · exact .ok _
    · exact .error rfl

/-- A column that cannot be read as its storage is a decoding error. -/
theorem Row.read_failsOnly (r : Row) (storage : Storage) (column : String) :
    FailsOnly Error.IsDecoding (r.read storage column) := by
  unfold read
  split
  · unfold Storage.decode
    split
    · exact .ok _
    · unfold Scalar.decode
      split
      · exact .ok _
      · exact .error rfl
  · exact .error rfl

/-- An answer to `DESC` fails only where a row cannot be decoded. -/
theorem Live.fields_failsOnly (rows : List Row) :
    FailsOnly Error.IsDecoding (Live.fields rows) := by
  refine FailsOnly.mapM (fun row => ?_) rows
  refine (row.readAs_failsOnly _ _ _).bind fun name => ?_
  refine (row.readAs_failsOnly _ _ _).bind fun sqlType => ?_
  refine (row.readAs_failsOnly _ _ _).bind fun null => ?_
  refine (row.readAs_failsOnly _ _ _).bind fun default => ?_
  exact (row.readAs_failsOnly _ _ _).bind fun extra => .ok _

/-- So does an answer to `SHOW INDEX`. -/
theorem Live.keys_failsOnly (rows : List Row) : FailsOnly Error.IsDecoding (Live.keys rows) := by
  refine FailsOnly.bind (FailsOnly.mapM (fun row => ?_) rows) fun parts => .ok _
  refine (row.readAs_failsOnly _ _ _).bind fun key => ?_
  split
  · exact .ok _
  · refine (row.readAs_failsOnly _ _ _).bind fun nonUnique => ?_
    refine (row.readAs_failsOnly _ _ _).bind fun column => ?_
    exact (row.readAs_failsOnly _ _ _).bind fun place => .ok _

mutual

/-- The cell of a member fails only where a column of it cannot be decoded. -/
theorem Member.readCell_failsOnly (row : Row) :
    ∀ m : Member, FailsOnly Error.IsDecoding (m.readCell row)
  | .column c => (row.read_failsOnly c.storage c.name).map
  | .embedded _ members => (Member.read_failsOnly row members).map
  | .skipped _ => .ok _

/-- So do the cells of a list of members. -/
theorem Member.read_failsOnly (row : Row) :
    ∀ ms : List Member, FailsOnly Error.IsDecoding (Member.read row ms)
  | [] => .ok _
  | m :: ms => (Member.readCell_failsOnly row m).bind fun _ =>
      (Member.read_failsOnly row ms).bind fun _ => .ok _

end

/-- The records that rows hold cannot be read only because of what is in the
rows. -/
theorem RecordType.read_failsOnly (t : RecordType) (rows : List Row) :
    FailsOnly Error.IsDecoding (rows.mapM t.read) :=
  FailsOnly.mapM (fun row => Member.read_failsOnly row t.members) rows

end TableMapper
