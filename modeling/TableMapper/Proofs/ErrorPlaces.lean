import TableMapper.Proofs.Draft

/-!
# Where errors come from

An operation of a facade fails at one of a few places, and the error says at
which: a refusal comes before anything is sent, a conflict between table and
schema before anything is changed, and an error of the database comes from the
last statement that was sent and remembers it.

* `ErrorPlace` — the places;
* `Operation.errorPlace` — no operation fails anywhere else;
* `Operation.errors_have_places` — what this says about a run.
-/

namespace TableMapper

/-- A question about the columns or the keys of a table. -/
def Exchange.IsQuestion (x : Exchange) : Prop :=
  ∃ table reply,
    x = .query (Live.describeText table) reply ∨ x = .query (Live.showIndexText table) reply

/-- Where the error of a conversation comes from. -/
inductive ErrorPlace : List Exchange → Error → Prop
  /-- It was found before anything was sent. -/
  | refused {e : Error} (h : e.IsRefusal) : ErrorPlace [] e
  /-- The table that was found cannot be brought in line. -/
  | conflict {xs : List Exchange} {e : Error} (h : e.kind = .schemaConflict)
      (hxs : ∀ x ∈ xs, x.IsQuestion) : ErrorPlace xs e
  /-- The last statement was answered with it. -/
  | answered (xs : List Exchange) {x : Exchange} {e : Error} (h : x.error? = some e) :
      ErrorPlace (xs ++ [x]) (e.withStatement x.call.sql)
  /-- A row cannot be read, or there is none. -/
  | unreadable {xs : List Exchange} {e : Error} (h : e.IsDecoding ∨ ∃ what, e = .notFound what) :
      ErrorPlace xs e

/-- An error of decoding has its place wherever it comes from. -/
theorem ErrorPlace.ofDecoding {xs : List Exchange} {e : Error} (h : e.IsDecoding) :
    ErrorPlace xs e :=
  .unreadable (.inl h)

/-- The walk over the columns fails only with a conflict. -/
theorem SchemaPlan.missingColumns_failsOnly (table : String) (predecessor : Option String)
    (present : List String) (fs : List Field) :
    FailsOnly (fun e => e.kind = .schemaConflict)
      (SchemaPlan.missingColumns table predecessor present fs) := by
  induction fs generalizing predecessor present with
  | nil => exact .ok []
  | cons f fs ih =>
      unfold missingColumns
      split
      · exact ih _ _
      · split
        · exact .error rfl
        · exact (ih _ _).map

/-- A plan fails only with a conflict. -/
theorem SchemaPlan.make_failsOnly (schema : Schema) (options : TableOptions)
    (defaults : TableDefaults) (live : Option LiveTable) :
    FailsOnly (fun e => e.kind = .schemaConflict)
      (SchemaPlan.make schema options defaults live) := by
  cases live with
  | none => exact .ok _
  | some live =>
      exact ((SchemaPlan.missingColumns_failsOnly _ _ _ _).bind fun _ => .ok _).map

section Tables

variable {s : Settings} {schema : Schema} {options : TableOptions} {xs : List Exchange}
  {e : Error}

/-- Looking at a table fails at a question or at a row. -/
theorem Inspection.errorPlace {table : String} (h : Inspection table xs (.error e)) :
    ErrorPlace xs e := by
  cases h with
  | fieldsRefused _ => exact .answered [] rfl
  | fieldsUnreadable h => exact .ofDecoding (Live.fields_failsOnly _ e h)
  | keysRefused _ => exact .answered [_] rfl
  | keysUnreadable _ h => exact .ofDecoding (Live.keys_failsOnly _ e h)

/-- Applying changes fails at the last statement that was sent. -/
theorem Applied.errorPlace {cs : List TableChange} (h : Applied cs xs (.error e))
    (before : List Exchange) : ErrorPlace (before ++ xs) e := by
  generalize hr : (Except.error e : Except Error Unit) = r at h
  induction h generalizing before with
  | nil => cases hr
  | refused =>
      cases hr
      exact .answered _ rfl
  | cons h ih =>
      rw [List.append_cons]
      exact ih _ hr

/-- Planning fails at a question, at a row, or with a conflict. -/
theorem Planning.errorPlace (h : Planning s schema options xs (.error e)) :
    ErrorPlace xs e := by
  obtain ⟨live, hlive, hplan⟩ := h
  cases live with
  | error e' =>
      cases hplan
      exact hlive.errorPlace
  | ok live =>
      refine .conflict (SchemaPlan.make_failsOnly _ _ _ _ e hplan.symm) ?_
      intro x hx
      obtain ⟨reply, hquestion⟩ := hlive.exists_question x hx
      exact ⟨options.tableName, reply, hquestion⟩

/-- Reconciling fails where planning or applying does. -/
theorem Reconciliation.errorPlace (h : Reconciliation s schema options xs (.error e)) :
    ErrorPlace xs e := by
  cases h with
  | unplanned h => exact h.errorPlace
  | stopped _ h => exact h.errorPlace _

/-- Making sure of a table fails where reconciling does. -/
theorem Ensured.errorPlace {sh sh' : Shared}
    (h : Ensured s schema options sh xs (.error e) sh') : ErrorPlace xs e := by
  cases h with
  | failed _ _ h => exact h.errorPlace

end Tables

/-- Preparing a call fails only by refusal. -/
theorem prepared_failsOnly (t : RecordType) (verb : Verb) (args : List Argument) :
    FailsOnly Error.IsRefusal (prepared t verb args) :=
  t.schema_failsOnly.bind fun schema =>
    (Arguments.gather_failsOnly schema t.options verb args).bind fun _ => .ok _

/-- A writing statement is made or refused. -/
theorem Writing.statement_failsOnly (schema : Schema) (args : Arguments) (w : Writing) :
    FailsOnly Error.IsRefusal (w.statement schema args) := by
  have hrecord := schema.values_failsOnly
  cases w with
  | insert record => exact (hrecord record).bind fun _ => .ok _
  | insertMany records =>
      exact (FailsOnly.mapM hrecord records).bind (Statement.ofInsertMany_failsOnly schema _)
  | update as => exact Statement.ofUpdate_failsOnly schema args as
  | delete => exact .ok _
  | insertIfAbsent record =>
      exact (hrecord record).bind (Statement.ofGuardedInsert_failsOnly schema args)
  | upsert record as =>
      exact (FailsOnly.mapM hrecord [record]).bind fun records =>
        Statement.ofUpsert_failsOnly schema _ records as
  | upsertMany records as =>
      exact (FailsOnly.mapM hrecord records).bind fun records =>
        Statement.ofUpsert_failsOnly schema _ records as

/-- There is no draft only because of a refusal. -/
theorem Task.draft_failsOnly (t : RecordType) (args : List Argument) (task : Task) :
    FailsOnly Error.IsRefusal (task.draft t args) := by
  refine (prepared_failsOnly t task.verb args).bind fun p => ?_
  refine FailsOnly.bind ?_ fun _ => .ok _
  cases task with
  | select => exact .ok _
  | selectOrInsert record =>
      exact (p.1.values_failsOnly record).bind (Statement.ofGuardedInsert_failsOnly p.1 p.2)
  | write w => exact w.statement_failsOnly p.1 p.2

section Operations

variable {s : Settings} {t : RecordType} {args : List Argument} {sh sh' : Shared}
  {xs : List Exchange} {e : Error}

/-- A query fails by its reply or by the rows of it. -/
theorem errorPlace_of_query {α : Type} {sql : String} {reply : Except Error (List Row)}
    {read : List Row → Except Error α} (hread : ∀ rows e', read rows = .error e' →
      e'.IsDecoding ∨ ∃ what, e' = .notFound what)
    (h : (reply.mapError (·.withStatement sql) >>= read) = .error e) (before : List Exchange) :
    ErrorPlace (before ++ [.query sql reply]) e := by
  cases reply with
  | error e' =>
      cases h
      exact .answered _ rfl
  | ok rows => exact .unreadable (hread rows e h)

/-- Records that are asked for fail at the question or at a row. -/
theorem RecordType.errorPlace_of_fetched {sql : String} {reply : Except Error (List Row)}
    {f : List (List Cell) → Outcome Effect} (h : (t.fetched sql reply).map f = .error e)
    (before : List Exchange) : ErrorPlace (before ++ [.query sql reply]) e :=
  errorPlace_of_query (fun rows e' he' => .inl (t.read_failsOnly rows e' he'))
    (map_eq_error.mp h) before

/-- Performing a draft fails at a place of the conversation. -/
theorem Draft.Performs.errorPlace {d : Draft} {task : Task}
    {r : Except Error (Outcome Effect)} (h : d.Performs s t task sh xs r sh')
    (hr : r = .error e) : ErrorPlace xs e := by
  cases h with
  | shown _ => cases hr
  | selected _ => exact RecordType.errorPlace_of_fetched hr []
  | unready _ _ hensured =>
      cases hr
      exact hensured.errorPlace
  | refused _ _ _ =>
      cases hr
      exact .answered _ rfl
  | written _ _ => cases hr
  | readBack _ _ _ _ =>
      rw [List.append_cons]
      exact RecordType.errorPlace_of_fetched hr _

/-- A task fails at a place of the conversation. -/
theorem Task.errorPlace {task : Task}
    (h : (task.session s t args).Converses sh xs (.error e) sh') : ErrorPlace xs e := by
  rcases Task.converses_cases h with ⟨e', hdraft, rfl, hr, _⟩ | ⟨d, _, hperforms⟩
  · cases hr
    exact .refused (Task.draft_failsOnly t args task e hdraft)
  · exact hperforms.errorPlace rfl

/-- A plan that is asked for fails at a place of the conversation. -/
theorem Facade.plan_errorPlace
    (h : (Facade.plan s t args).Converses sh xs (.error e) sh') : ErrorPlace xs e := by
  rcases Facade.converses_plan_cases h with ⟨e', hrefused, rfl, hr, _⟩ |
    ⟨schema, gathered, _, hplan, _⟩
  · cases hr
    exact .refused (prepared_failsOnly t .insert args e hrefused)
  · exact hplan.errorPlace

/-- Creating a table fails at a place of the conversation. -/
theorem Facade.createTable_errorPlace
    (h : (Facade.createTable s t args).Converses sh xs (.error e) sh') : ErrorPlace xs e := by
  rcases Facade.converses_createTable_cases h with ⟨e', hrefused, rfl, hr, _⟩ |
    ⟨schema, gathered, _, ⟨_, hplan, _⟩ | ⟨_, hreconciliation, _⟩⟩
  · cases hr
    exact .refused (prepared_failsOnly t .insert args e hrefused)
  · exact hplan.errorPlace
  · exact hreconciliation.errorPlace

/-- Asking for the database fails at its question. -/
theorem Facade.currentDatabase_errorPlace
    (h : (Facade.currentDatabase s).Converses sh xs (.error e) sh') : ErrorPlace xs e := by
  rw [Facade.currentDatabase_eq] at h
  obtain ⟨reply, rfl, hr, _⟩ := Facade.converses_ask_bind_iff.mp h
  refine errorPlace_of_query (fun rows e' he' => ?_) hr.symm []
  cases rows with
  | nil =>
      cases he'
      exact .inr ⟨_, rfl⟩
  | cons row rows => exact .inl (row.readAs_failsOnly _ _ _ e' he')

/-- No operation fails at any other place. -/
theorem Operation.errorPlace {op : Operation}
    (h : (op.session s).Converses sh xs (.error e) sh') : ErrorPlace xs e := by
  cases op with
  | records t args task => exact Task.errorPlace (Session.converses_discard_error_iff.mp h)
  | plan t args => exact Facade.plan_errorPlace (Session.converses_discard_error_iff.mp h)
  | createTable t args =>
      exact Facade.createTable_errorPlace (Session.converses_discard_error_iff.mp h)
  | readFields table =>
      obtain ⟨reply, rfl, hr, _⟩ :=
        Facade.converses_ask_bind_iff.mp (Session.converses_discard_error_iff.mp h)
      refine errorPlace_of_query (fun rows e' he' => ?_) hr.symm []
      exact .inl (Live.fields_failsOnly rows e' he')
  | readKeys table =>
      obtain ⟨reply, rfl, hr, _⟩ :=
        Facade.converses_ask_bind_iff.mp (Session.converses_discard_error_iff.mp h)
      refine errorPlace_of_query (fun rows e' he' => ?_) hr.symm []
      exact .inl (Live.keys_failsOnly rows e' he')
  | currentDatabase =>
      exact Facade.currentDatabase_errorPlace (Session.converses_discard_error_iff.mp h)

end Operations

/-- An executor whose errors are failures of the database that name no
statement. -/
structure Executor.Plain {σ : Type} (x : Executor σ) : Prop where
  exec : ∀ state sql e, (x.exec state sql).1 = .error e →
    ∃ message code, e = .execution message none code
  query : ∀ state sql e, (x.query state sql).1 = .error e →
    ∃ message code, e = .execution message none code

/-- **Errors have their places.**  If an operation fails with a refusal, nothing was
sent; if it fails because the table and the schema conflict, nothing but
questions about columns and keys was sent; and if it fails with an error of the
database, this is the reply to the last statement that was sent, and has the text
of it.  So a guarded insert never finds only behind its statement that no field
counts up. -/
theorem Operation.errors_have_places {σ : Type} (s : Settings) (op : Operation)
    {x : Executor σ} (hx : x.Plain) (w : World σ) :
    ((op.session s).run x w).2.calls =
        w.calls ++ ((op.session s).exchanges x w).map Exchange.call ∧
      (∀ e, ((op.session s).run x w).1 = .error e →
        (e.kind = .configuration ∨ e.kind = .argument ∨ (∃ table, e = .noIncrementField table) →
          (op.session s).exchanges x w = []) ∧
        (e.kind = .schemaConflict → ∀ y ∈ (op.session s).exchanges x w, y.IsQuestion) ∧
        ∀ message statement code, e = .execution message statement code →
          ∃ before last, (op.session s).exchanges x w = before ++ [last] ∧
            statement = some last.call.sql ∧
            last.error? = some (.execution message none code)) ∧
      ∀ t args record d, op = .records t args (.selectOrInsert record) →
        (Task.selectOrInsert record).draft t args = .ok d →
        ∃ increment, d.schema.increment d.args.table = .ok increment := by
  refine ⟨Session.calls_run x (op.session s) w, ?_, fun _ _ _ _ _ => Task.exists_increment⟩
  intro e he
  have hconverses := Session.converses_run x (op.session s) w
  rw [he] at hconverses
  have hplace := Operation.errorPlace hconverses
  have hown : ∀ y ∈ (op.session s).exchanges x w, ∀ e ∈ y.error?,
      ∃ message code, e = .execution message none code :=
    Session.error_of_mem_exchanges hx.exec hx.query (op.session s) w
  generalize (op.session s).exchanges x w = xs at hplace hown
  cases hplace with
  | refused hrefusal =>
      refine ⟨fun _ => rfl, fun _ y hy => absurd hy List.not_mem_nil, ?_⟩
      rintro message statement code rfl
      rcases hrefusal with hkind | hkind | ⟨table, htable⟩
      · cases hkind
      · cases hkind
      · cases htable
  | conflict hconflict hquestions =>
      refine ⟨?_, fun _ => hquestions, ?_⟩
      · rintro (hkind | hkind | ⟨table, rfl⟩)
        · exact absurd (hkind.symm.trans hconflict) (by decide)
        · exact absurd (hkind.symm.trans hconflict) (by decide)
        · cases hconflict
      · rintro message statement code rfl
        cases hconflict
  | @answered before last cause hlast =>
      obtain ⟨message, code, rfl⟩ := hown last (by simp) cause hlast
      refine ⟨?_, ?_, ?_⟩
      · rintro (hkind | hkind | ⟨table, htable⟩)
        · cases hkind
        · cases hkind
        · cases htable
      · intro hkind
        cases hkind
      · intro message' statement code' h
        cases h
        exact ⟨before, last, rfl, rfl, hlast⟩
  | unreadable hrow =>
      refine ⟨?_, ?_, ?_⟩
      · intro hrefusal
        rcases hrow with hdecoding | ⟨what, rfl⟩
        · exact absurd hrefusal hdecoding.not_isRefusal
        · rcases hrefusal with hkind | hkind | ⟨table, htable⟩
          · cases hkind
          · cases hkind
          · cases htable
      · intro hconflict
        rcases hrow with hdecoding | ⟨what, rfl⟩
        · exact absurd (hdecoding.symm.trans hconflict) (by decide)
        · cases hconflict
      · rintro message statement code rfl
        rcases hrow with hdecoding | ⟨what, hwhat⟩
        · cases hdecoding
        · cases hwhat

/-- An executor that is down. -/
def downExecutor : Executor Unit where
  exec _ _ := (.error (.execution "gone away" none (some "08S01")), ())
  query _ _ := (.error (.execution "gone away" none (some "08S01")), ())

/-- A record type without members. -/
def bareType : RecordType where
  members := []
  options := { tableName := "visits" }

/-- Where the error of a deletion comes from when the database is down. -/
theorem errors_have_places_down :
    downExecutor.Plain ∧
      (((Operation.records bareType [] (.write .delete)).session {}).run downExecutor
        { state := () }).1 = .error (.execution "gone away" (some "DELETE FROM \x60visits\x60")
          (some "08S01")) ∧
      ∃ before last,
        ((Operation.records bareType [] (.write .delete)).session {}).exchanges downExecutor
          { state := () } = before ++ [last] ∧
        some "DELETE FROM \x60visits\x60" = some last.call.sql ∧
        last.error? = some (.execution "gone away" none (some "08S01")) := by
  have hdown : downExecutor.Plain := by
    refine ⟨?_, ?_⟩
    · rintro state sql e ⟨⟩
      exact ⟨_, _, rfl⟩
    · rintro state sql e ⟨⟩
      exact ⟨_, _, rfl⟩
  have hfails : (((Operation.records bareType [] (.write .delete)).session {}).run downExecutor
      { state := () }).1 = .error (.execution "gone away" (some "DELETE FROM \x60visits\x60")
        (some "08S01")) := by
    decide +kernel
  obtain ⟨_, hplaces, _⟩ := Operation.errors_have_places {}
    (.records bareType [] (.write .delete)) hdown { state := () }
  exact ⟨hdown, hfails, (hplaces _ hfails).2.2 _ _ _ rfl⟩

end TableMapper
