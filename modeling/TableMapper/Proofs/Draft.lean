import TableMapper.Proofs.Reconciliation
import TableMapper.Proofs.StatementShape

/-!
# Drafts

Every operation on records decides everything it can before it sends anything:
from the record type and the arguments of the call it makes a draft, or refuses.
What comes behind is one of three things, as the operation reads, writes, or
writes unless a row is there and then reads.

* `Task` — the operations on records; `Task.session` is what the facade does;
* `Task.draft` — schema, arguments and statement of a call, made without the
  database;
* `Task.session_logsInto` — an operation is its draft, performed;
* `Draft.Performs` — what is said when a draft is performed;
* `Task.converses_cases` — all the conversations of an operation on records;
* `Operation`, `Operation.says_of_converses` — these operations and those on tables,
  and what they say.
-/

namespace TableMapper

namespace Session

variable {α β : Type}

/-- What follows a session may be grouped in either way. -/
theorem andThen_andThen {γ : Type} (s : Session α) (k : Except Error α → Session β)
    (l : Except Error β → Session γ) :
    (s.andThen k).andThen l = s.andThen fun r => (k r).andThen l := by
  induction s with
  | done r => rfl
  | log e next ih => exact congrArg (log e) ih
  | exec sql next ih => exact congrArg (exec sql) (funext ih)
  | query sql next ih => exact congrArg (query sql) (funext ih)
  | autoCreate next ih => exact congrArg autoCreate (funext ih)
  | isCreated table next ih => exact congrArg (isCreated table) (funext ih)
  | markCreated table next ih => exact congrArg (markCreated table) ih

/-- A session that nothing follows stays what it is. -/
theorem andThen_done (s : Session α) : s.andThen done = s := by
  induction s with
  | done r => rfl
  | log e next ih => exact congrArg (log e) ih
  | exec sql next ih => exact congrArg (exec sql) (funext ih)
  | query sql next ih => exact congrArg (query sql) (funext ih)
  | autoCreate next ih => exact congrArg autoCreate (funext ih)
  | isCreated table next ih => exact congrArg (isCreated table) (funext ih)
  | markCreated table next ih => exact congrArg (markCreated table) ih

instance : LawfulMonad Session := LawfulMonad.mk' Session
  (by
    intro α s
    have hdone : (fun r : Except Error α => match r with
        | .ok a => done (.ok a)
        | .error e => done (.error e)) = done := by
      funext r
      cases r <;> rfl
    exact (congrArg s.andThen hdone).trans s.andThen_done)
  (fun _ _ => rfl)
  (by
    intro α β γ s k l
    refine (andThen_andThen s _ _).trans (congrArg s.andThen ?_)
    funext r
    cases r <;> rfl)

/-- `s` logs something and then is `s'`. -/
def LogsInto (s s' : Session α) : Prop :=
  ∃ es, s = logged es s'

namespace LogsInto

theorem refl (s : Session α) : s.LogsInto s :=
  ⟨[], rfl⟩

/-- Logging in front of logging is logging. -/
theorem trans {s s' s'' : Session α} (h : s.LogsInto s') (h' : s'.LogsInto s'') :
    s.LogsInto s'' := by
  obtain ⟨es, rfl⟩ := h
  obtain ⟨es', rfl⟩ := h'
  exact ⟨es ++ es', logged_logged es es' s''⟩

/-- What follows a session that logs follows what it logs into. -/
theorem bind {s s' : Session α} (h : s.LogsInto s') (k : α → Session β) :
    (s >>= k).LogsInto (s' >>= k) := by
  obtain ⟨es, rfl⟩ := h
  exact ⟨es, logged_bind es s' k⟩

/-- A session that only logs is what follows it, but for the log. -/
theorem logAll (es : List Event) (k : Unit → Session α) :
    (Session.logAll es >>= k).LogsInto (k ()) :=
  ⟨es, logAll_bind es k⟩

/-- What has been decided goes on as it was decided. -/
theorem done_bind {x : Except Error α} {k k' : α → Session β}
    (h : ∀ a, (k a).LogsInto (k' a)) : (done x >>= k).LogsInto (done x >>= k') := by
  cases x with
  | error e => exact refl _
  | ok a => exact h a

/-- Two decisions with logging in between are one decision. -/
theorem done_logAll_done {γ : Type} (x : Except Error α) (es : α → List Event)
    (f : α → Except Error β) (k : β → Session γ) :
    (done x >>= fun a => Session.logAll (es a) >>= fun _ => done (f a) >>= k).LogsInto
      (done (x >>= f) >>= k) := by
  cases x with
  | error e => exact refl _
  | ok a => exact logAll (es a) _

/-- Logging is not heard. -/
theorem converses_iff {s s' : Session α} (h : s.LogsInto s') {sh sh' : Shared}
    {xs : List Exchange} {r : Except Error α} :
    s.Converses sh xs r sh' ↔ s'.Converses sh xs r sh' := by
  obtain ⟨es, rfl⟩ := h
  exact converses_logged_iff

end LogsInto

/-- Steps that send nothing may be taken one by one. -/
theorem done_bind_eq (x : Except Error α) (f : α → Except Error β) :
    (done (x >>= f) : Session β) = done x >>= fun a => done (f a) := by
  cases x <;> rfl

end Session

/-- The operations that write records and give the number of rows they touched. -/
inductive Writing
  | insert (record : List Cell)
  | insertMany (records : List (List Cell))
  | update (as : List Assignment)
  | delete
  | insertIfAbsent (record : List Cell)
  | upsert (record : List Cell) (as : List Assignment)
  | upsertMany (records : List (List Cell)) (as : List Assignment)

/-- The operations on records. -/
inductive Task
  | select
  | selectOrInsert (record : List Cell)
  | write (w : Writing)

/-- What an operation on records gives. -/
inductive Effect
  | written (r : ExecResult)
  | read (records : List (List Cell))

/-- The outcome with another result. -/
def Outcome.map {α β : Type} (f : α → β) : Outcome α → Outcome β
  | performed a => performed (f a)
  | statement sql => statement sql

namespace Writing

/-- What the facade does for the operation. -/
def session (s : Settings) (t : RecordType) (args : List Argument) :
    Writing → Session (Outcome ExecResult)
  | insert record => Facade.insert s t record args
  | insertMany records => Facade.insertMany s t records args
  | update as => Facade.update s t as args
  | delete => Facade.delete s t args
  | insertIfAbsent record => Facade.insertIfAbsent s t record args
  | upsert record as => Facade.upsert s t record as args
  | upsertMany records as => Facade.upsertMany s t records as args

/-- The group that the operation belongs to. -/
def verb : Writing → Verb
  | insert _ | insertMany _ | upsert _ _ | upsertMany _ _ => .insert
  | update _ => .update
  | delete => .delete
  | insertIfAbsent _ => .upsert

/-- The statement of the operation, or why there is none. -/
def statement (schema : Schema) (args : Arguments) : Writing → Except Error Statement
  | insert record => do return .ofInsert schema args.table (← schema.values record)
  | insertMany records => do
    Statement.ofInsertMany schema args.table (← records.mapM schema.values)
  | update as => Statement.ofUpdate schema args as
  | delete => .ok (.delete args)
  | insertIfAbsent record => do Statement.ofGuardedInsert schema args (← schema.values record)
  | upsert record as => do
    Statement.ofUpsert schema args.table (← [record].mapM schema.values) as
  | upsertMany records as => do
    Statement.ofUpsert schema args.table (← records.mapM schema.values) as

end Writing

namespace Task

/-- What the facade does for the operation. -/
def session (s : Settings) (t : RecordType) (args : List Argument) :
    Task → Session (Outcome Effect)
  | select => return (← Facade.select s t args).map .read
  | selectOrInsert record => return (← Facade.selectOrInsert s t record args).map .read
  | write w => return (← w.session s t args).map .written

/-- The group that the operation belongs to. -/
def verb : Task → Verb
  | select => .select
  | selectOrInsert _ => .upsert
  | write w => w.verb

/-- The statement of the operation, or why there is none. -/
def statement (schema : Schema) (args : Arguments) : Task → Except Error Statement
  | select => .ok (.ofSelect schema args)
  | selectOrInsert record => do Statement.ofGuardedInsert schema args (← schema.values record)
  | write w => w.statement schema args

end Task

/-- What is decided about a call before anything is sent. -/
structure Draft where
  schema : Schema
  args : Arguments
  st : Statement

/-- Schema and gathered arguments of a call. -/
def prepared (t : RecordType) (verb : Verb) (args : List Argument) :
    Except Error (Schema × Arguments) := do
  let schema ← t.schema
  return (schema, ← Arguments.gather schema t.options verb args)

/-- The draft of a call, or why it is refused. -/
def Task.draft (t : RecordType) (args : List Argument) (task : Task) : Except Error Draft := do
  let (schema, args) ← prepared t task.verb args
  return ⟨schema, args, ← task.statement schema args⟩

/-- What the facade does with a draft. -/
def Draft.perform (s : Settings) (t : RecordType) (d : Draft) :
    Task → Session (Outcome Effect)
  | .select =>
    if d.args.options.dryRun then return .statement d.st.text
    else return .performed (.read (← Facade.fetch s t d.st))
  | .selectOrInsert _ =>
    if d.args.options.dryRun then return .statement d.st.text
    else do
      Facade.ensureTable s d.schema d.args.options
      let result ← Facade.send s d.st.text
      let increment ← .done (d.schema.increment d.args.table)
      return .performed
        (.read (← Facade.fetch s t (Facade.followUp d.schema d.args increment result)))
  | .write _ =>
    if d.args.options.dryRun then return .statement d.st.text
    else do
      Facade.ensureTable s d.schema d.args.options
      return .performed (.written (← Facade.send s d.st.text))

open Session

/-- Preparing a call logs and gives what is prepared. -/
theorem Facade.prepare_logsInto (t : RecordType) (verb : Verb) (args : List Argument) :
    (Facade.prepare t verb args).LogsInto (done (prepared t verb args)) := by
  unfold prepare prepared
  rw [done_bind_eq]
  refine LogsInto.done_bind fun schema => (LogsInto.logAll _ _).trans ?_
  rw [done_bind_eq]
  exact LogsInto.refl _

/-- A task whose statement is prepared logs and performs its draft. -/
theorem Task.logsInto_of_prepared {s : Settings} {t : RecordType} {args : List Argument}
    (task : Task) {k : Schema × Arguments → Session (Outcome Effect)}
    (h : ∀ schema gathered, (k (schema, gathered)).LogsInto
      (done (task.statement schema gathered) >>= fun st =>
        Draft.perform s t ⟨schema, gathered, st⟩ task)) :
    (Facade.prepare t task.verb args >>= k).LogsInto
      (done (task.draft t args) >>= fun d => d.perform s t task) := by
  refine ((Facade.prepare_logsInto t task.verb args).bind k).trans ?_
  unfold draft
  rw [done_bind_eq, bind_assoc]
  refine LogsInto.done_bind fun p => (h p.1 p.2).trans ?_
  rw [done_bind_eq, bind_assoc]
  exact LogsInto.refl _

/-- What the facade makes of a writing statement. -/
theorem Writing.write_eq (s : Settings) (t : RecordType) (w : Writing) (schema : Schema)
    (gathered : Arguments) (st : Statement) :
    (Facade.write s schema gathered.options st >>= fun out => pure (out.map Effect.written)) =
      Draft.perform s t ⟨schema, gathered, st⟩ (.write w) := by
  unfold Facade.write Draft.perform
  split
  · rfl
  · simp only [bind_assoc, pure_bind]
    rfl

/-- A writing task logs and performs its draft. -/
theorem Writing.session_logsInto (s : Settings) (t : RecordType) (args : List Argument)
    (w : Writing) :
    (Task.session s t args (.write w)).LogsInto
      (done ((Task.write w).draft t args) >>= fun d => d.perform s t (.write w)) := by
  -- The facade writes at the end of every operation, so there the draft is performed.
  have hwrite := Writing.write_eq s t w
  cases w with
  | insert record =>
      simp only [Task.session, session, Facade.insert, bind_assoc, hwrite]
      refine Task.logsInto_of_prepared (.write (.insert record)) fun schema gathered => ?_
      exact LogsInto.done_logAll_done (schema.values record)
        (Batch.recordEvents schema.fields)
        (fun values => .ok (Statement.ofInsert schema gathered.table values))
        (fun st => Draft.perform s t ⟨schema, gathered, st⟩ (.write (.insert record)))
  | insertMany records =>
      simp only [Task.session, session, Facade.insertMany, bind_assoc, hwrite]
      exact Task.logsInto_of_prepared (.write (.insertMany records)) fun _ _ =>
        LogsInto.done_logAll_done _ _ _ _
  | update as =>
      simp only [Task.session, session, Facade.update, bind_assoc, hwrite]
      exact Task.logsInto_of_prepared (.write (.update as)) fun _ _ =>
        LogsInto.logAll _ _
  | delete =>
      simp only [Task.session, session, Facade.delete, bind_assoc, hwrite]
      exact Task.logsInto_of_prepared (.write .delete) fun _ _ => LogsInto.refl _
  | insertIfAbsent record =>
      simp only [Task.session, session, Facade.insertIfAbsent, Facade.prepareGuarded,
        bind_assoc, pure_bind, hwrite]
      exact Task.logsInto_of_prepared (.write (.insertIfAbsent record)) fun _ _ =>
        LogsInto.done_logAll_done _ _ _ _
  | upsert record as =>
      simp only [Task.session, session, Facade.upsert, Facade.upsertMany, bind_assoc, hwrite]
      exact Task.logsInto_of_prepared (.write (.upsert record as)) fun _ _ =>
        LogsInto.done_logAll_done _ _ _ _
  | upsertMany records as =>
      simp only [Task.session, session, Facade.upsertMany, bind_assoc, hwrite]
      exact Task.logsInto_of_prepared (.write (.upsertMany records as)) fun _ _ =>
        LogsInto.done_logAll_done _ _ _ _

/-- **Everything is decided first.**  An operation on records makes its draft, and
then does nothing but perform it. -/
theorem Task.session_logsInto (s : Settings) (t : RecordType) (args : List Argument)
    (task : Task) :
    (task.session s t args).LogsInto
      (done (task.draft t args) >>= fun d => d.perform s t task) := by
  cases task with
  | select =>
      simp only [session, Facade.select, bind_assoc]
      refine logsInto_of_prepared .select fun schema gathered => ?_
      change LogsInto _ (Draft.perform s t _ .select)
      unfold Draft.perform
      dsimp only
      split
      · exact LogsInto.refl _
      · simp only [bind_assoc, pure_bind]
        exact LogsInto.refl _
  | selectOrInsert record =>
      simp only [session, Facade.selectOrInsert, Facade.prepareGuarded, bind_assoc, pure_bind]
      refine logsInto_of_prepared (.selectOrInsert record) fun schema gathered => ?_
      refine (LogsInto.done_logAll_done _ _ _ _).trans (LogsInto.done_bind fun st => ?_)
      unfold Draft.perform
      dsimp only
      split
      · exact LogsInto.refl _
      · simp only [bind_assoc, pure_bind]
        exact LogsInto.refl _
  | write w => exact w.session_logsInto s t args

/-- The records that a reply to a query gives. -/
def RecordType.fetched (t : RecordType) (sql : String) (reply : Except Error (List Row)) :
    Except Error (List (List Cell)) :=
  reply.mapError (·.withStatement sql) >>= (·.mapM t.read)

/-- What is said when a draft is performed, and what comes of it. -/
inductive Draft.Performs (s : Settings) (t : RecordType) (d : Draft) :
    Task → Shared → List Exchange → Except Error (Outcome Effect) → Shared → Prop
  | shown {task : Task} {sh : Shared} (hdry : d.args.options.dryRun = true) :
      Performs s t d task sh [] (.ok (.statement d.st.text)) sh
  | selected {sh : Shared} {reply : Except Error (List Row)}
      (hdry : d.args.options.dryRun = false) :
      Performs s t d .select sh [.query d.st.text reply]
        ((t.fetched d.st.text reply).map fun records => .performed (.read records)) sh
  | unready {task : Task} {sh sh' : Shared} {xs : List Exchange} {e : Error}
      (hdry : d.args.options.dryRun = false) (htask : task ≠ .select)
      (hensured : Ensured s d.schema d.args.options sh xs (.error e) sh') :
      Performs s t d task sh xs (.error e) sh'
  | refused {task : Task} {sh sh' : Shared} {xs : List Exchange} {e : Error}
      (hdry : d.args.options.dryRun = false) (htask : task ≠ .select)
      (hensured : Ensured s d.schema d.args.options sh xs (.ok ()) sh') :
      Performs s t d task sh (xs ++ [.exec d.st.text (.error e)])
        (.error (e.withStatement d.st.text)) sh'
  | written {w : Writing} {sh sh' : Shared} {xs : List Exchange} {result : ExecResult}
      (hdry : d.args.options.dryRun = false)
      (hensured : Ensured s d.schema d.args.options sh xs (.ok ()) sh') :
      Performs s t d (.write w) sh (xs ++ [.exec d.st.text (.ok result)])
        (.ok (.performed (.written result))) sh'
  | readBack {record : List Cell} {sh sh' : Shared} {xs : List Exchange} {result : ExecResult}
      {increment : Field} {next : Statement} {reply : Except Error (List Row)}
      (hdry : d.args.options.dryRun = false)
      (hensured : Ensured s d.schema d.args.options sh xs (.ok ()) sh')
      (hincrement : d.schema.increment d.args.table = .ok increment)
      (hnext : next = Facade.followUp d.schema d.args increment result) :
      Performs s t d (.selectOrInsert record) sh
        (xs ++ [.exec d.st.text (.ok result), .query next.text reply])
        ((t.fetched next.text reply).map fun records => .performed (.read records)) sh'

section Performing

variable {s : Settings} {t : RecordType} {args : List Argument} {task : Task} {d : Draft}
  {sh sh' : Shared} {xs : List Exchange} {r : Except Error (Outcome Effect)}

/-- The parts of a draft. -/
theorem Task.draft_eq_ok (h : task.draft t args = .ok d) :
    prepared t task.verb args = .ok (d.schema, d.args) ∧
      task.statement d.schema d.args = .ok d.st := by
  obtain ⟨p, hprepared, hrest⟩ := bind_eq_ok.mp h
  obtain ⟨st, hst, hd⟩ := bind_eq_ok.mp hrest
  cases hd
  exact ⟨hprepared, hst⟩

/-- A draft of a guarded insert has a field that counts up. -/
theorem Task.exists_increment {record : List Cell}
    (h : (Task.selectOrInsert record).draft t args = .ok d) :
    ∃ increment, d.schema.increment d.args.table = .ok increment := by
  obtain ⟨values, _, hst⟩ := bind_eq_ok.mp (Task.draft_eq_ok h).2
  obtain ⟨increment, hincrement, _⟩ := Statement.ofGuardedInsert_eq_ok hst
  exact ⟨increment, hincrement⟩

/-- A query for records is one question, and its reply is the outcome. -/
theorem Facade.converses_fetch {st : Statement} {r : Except Error (Outcome Effect)}
    (h : (Facade.fetch s t st >>= fun records =>
      (pure (.performed (.read records)) : Session (Outcome Effect))).Converses sh xs r sh') :
    ∃ reply, xs = [.query st.text reply] ∧
      r = (t.fetched st.text reply).map (fun records => .performed (.read records)) ∧
      sh' = sh := by
  obtain ⟨_, hfetch, rfl⟩ := converses_bind_done_iff.mp h
  obtain ⟨reply, rfl, rfl, rfl⟩ := Facade.converses_ask_bind_iff.mp hfetch
  exact ⟨reply, rfl, rfl, rfl⟩

/-- A statement that is sent once its table is ensured: what goes wrong before it
is answered, or what is said behind it. -/
theorem Facade.converses_ensured_send {schema : Schema} {options : TableOptions} {sql : String}
    {k : ExecResult → Session (Outcome Effect)}
    (h : (Facade.ensureTable s schema options >>= fun _ => Facade.send s sql >>= k).Converses
      sh xs r sh') :
    (∃ e, Ensured s schema options sh xs (.error e) sh' ∧ r = .error e) ∨
      (∃ ys e, Ensured s schema options sh ys (.ok ()) sh' ∧
        xs = ys ++ [.exec sql (.error e)] ∧ r = .error (e.withStatement sql)) ∨
      ∃ ys result middle zs, Ensured s schema options sh ys (.ok ()) middle ∧
        (k result).Converses middle zs r sh' ∧ xs = ys ++ .exec sql (.ok result) :: zs := by
  rcases converses_bind_iff.mp h with ⟨e, hfirst, rfl⟩ | ⟨ys, _, middle, zs, hfirst, hrest, rfl⟩
  · exact .inl ⟨e, Facade.converses_ensureTable_iff.mp hfirst, rfl⟩
  · have hensured := Facade.converses_ensureTable_iff.mp hfirst
    rcases converses_bind_iff.mp hrest with ⟨e, hsend, rfl⟩ | ⟨_, result, _, _, hsend, hk, rfl⟩
    · obtain ⟨reply, rfl, hreply, rfl⟩ := Facade.converses_send_iff.mp hsend
      cases reply with
      | error e =>
          cases hreply
          exact .inr (.inl ⟨ys, e, hensured, rfl, rfl⟩)
      | ok result => cases hreply
    · obtain ⟨reply, rfl, hreply, rfl⟩ := Facade.converses_send_iff.mp hsend
      cases reply with
      | error e => cases hreply
      | ok result =>
          cases hreply
          exact .inr (.inr ⟨ys, _, _, _, hensured, hk, rfl⟩)

/-- What is said when a draft is performed, case by case. -/
theorem Draft.performs_of_converses (hdraft : task.draft t args = .ok d)
    (h : (d.perform s t task).Converses sh xs r sh') : d.Performs s t task sh xs r sh' := by
  cases hdry : d.args.options.dryRun with
  | true =>
      have hshown : d.perform s t task = pure (.statement d.st.text) := by
        cases task <;> exact if_pos hdry
      rw [hshown] at h
      obtain ⟨rfl, rfl, rfl⟩ := converses_pure_iff.mp h
      exact .shown hdry
  | false =>
      have hnot : ¬d.args.options.dryRun = true := Bool.eq_false_iff.mp hdry
      cases task with
      | select =>
          rw [perform, if_neg hnot] at h
          obtain ⟨reply, rfl, rfl, rfl⟩ := Facade.converses_fetch h
          exact .selected hdry
      | write w =>
          rw [perform, if_neg hnot] at h
          rcases Facade.converses_ensured_send h with ⟨e, hensured, rfl⟩ |
            ⟨ys, e, hensured, rfl, rfl⟩ | ⟨ys, result, middle, zs, hensured, hrest, rfl⟩
          · exact .unready hdry (by simp) hensured
          · exact .refused hdry (by simp) hensured
          · obtain ⟨rfl, rfl, rfl⟩ := converses_pure_iff.mp hrest
            exact .written hdry hensured
      | selectOrInsert record =>
          rw [perform, if_neg hnot] at h
          rcases Facade.converses_ensured_send h with ⟨e, hensured, rfl⟩ |
            ⟨ys, e, hensured, rfl, rfl⟩ | ⟨ys, result, middle, zs, hensured, hrest, rfl⟩
          · exact .unready hdry (by simp) hensured
          · exact .refused hdry (by simp) hensured
          · obtain ⟨increment, hincrement⟩ := Task.exists_increment hdraft
            rw [hincrement] at hrest
            obtain ⟨reply, rfl, rfl, rfl⟩ := Facade.converses_fetch hrest
            exact .readBack hdry hensured hincrement rfl

/-- Every conversation of an operation on records: it is refused before anything
is said, or its draft is performed. -/
theorem Task.converses_cases (h : (task.session s t args).Converses sh xs r sh') :
    (∃ e, task.draft t args = .error e ∧ xs = [] ∧ r = .error e ∧ sh' = sh) ∨
      ∃ d, task.draft t args = .ok d ∧ d.Performs s t task sh xs r sh' := by
  have hperform := (Task.session_logsInto s t args task).converses_iff.mp h
  cases hdraft : task.draft t args with
  | error e =>
      rw [hdraft] at hperform
      obtain ⟨rfl, rfl, rfl⟩ := converses_done_iff.mp hperform
      exact .inl ⟨e, rfl, rfl, rfl, rfl⟩
  | ok d =>
      rw [hdraft] at hperform
      exact .inr ⟨d, rfl, Draft.performs_of_converses hdraft hperform⟩

/-- An operation that needs a table in line fails with what keeps it from being
so. -/
theorem Task.converses_of_unready (hdraft : task.draft t args = .ok d)
    (hdry : d.args.options.dryRun = false) (htask : task ≠ .select) {e : Error}
    (h : Ensured s d.schema d.args.options sh xs (.error e) sh') :
    (task.session s t args).Converses sh xs (.error e) sh' := by
  have hnot : ¬d.args.options.dryRun = true := Bool.eq_false_iff.mp hdry
  have hensure := Facade.converses_ensureTable_iff.mpr h
  rw [(Task.session_logsInto s t args task).converses_iff, hdraft]
  change (d.perform s t task).Converses sh xs (.error e) sh'
  cases task with
  | select => exact absurd rfl htask
  | selectOrInsert record =>
      rw [Draft.perform, if_neg hnot]
      exact converses_bind_iff.mpr (.inl ⟨e, hensure, rfl⟩)
  | write w =>
      rw [Draft.perform, if_neg hnot]
      exact converses_bind_iff.mpr (.inl ⟨e, hensure, rfl⟩)

end Performing

/-- The operations of a facade that may send something. -/
inductive Operation
  | records (t : RecordType) (args : List Argument) (task : Task)
  | plan (t : RecordType) (args : List Argument)
  | createTable (t : RecordType) (args : List Argument)
  | readFields (table : String)
  | readKeys (table : String)
  | currentDatabase

/-- What the facade does for an operation; of the result it is kept whether it is an
error. -/
def Operation.session (s : Settings) : Operation → Session Unit
  | records t args task => do let _ ← task.session s t args
  | plan t args => do let _ ← Facade.plan s t args
  | createTable t args => do let _ ← Facade.createTable s t args
  | readFields table => do let _ ← Facade.readFields s table
  | readKeys table => do let _ ← Facade.readKeys s table
  | currentDatabase => do let _ ← Facade.currentDatabase s

section Tables

variable {α : Type} {s : Settings} {t : RecordType} {args : List Argument} {sh sh' : Shared}
  {xs : List Exchange}

/-- A session whose result is not looked at. -/
theorem Session.converses_discard_iff {session : Session α} {r : Except Error Unit} :
    (session >>= fun _ => pure ()).Converses sh xs r sh' ↔
      ∃ r', session.Converses sh xs r' sh' ∧ r = r'.map fun _ => () := by
  refine converses_bind_done_iff.trans (exists_congr fun r' => and_congr_right fun _ => ?_)
  cases r' <;> exact Iff.rfl

/-- A result that is thrown away leaves errors as they are. -/
theorem Session.converses_discard_error_iff {session : Session α} {e : Error} :
    (session >>= fun _ => pure ()).Converses sh xs (.error e) sh' ↔
      session.Converses sh xs (.error e) sh' := by
  rw [converses_discard_iff]
  constructor
  · rintro ⟨r', h, hr⟩
    rwa [map_eq_error.mp hr.symm] at h
  · intro h
    exact ⟨.error e, h, rfl⟩

/-- A call is refused before anything is said, or goes on with what has been
prepared. -/
theorem Facade.converses_prepare_cases {verb : Verb} {k : Schema × Arguments → Session α}
    {r : Except Error α} (h : (prepare t verb args >>= k).Converses sh xs r sh') :
    (∃ e, prepared t verb args = .error e ∧ xs = [] ∧ r = .error e ∧ sh' = sh) ∨
      ∃ p, prepared t verb args = .ok p ∧ (k p).Converses sh xs r sh' := by
  have hk := ((prepare_logsInto t verb args).bind k).converses_iff.mp h
  cases hprepared : prepared t verb args with
  | error e =>
      rw [hprepared] at hk
      obtain ⟨rfl, rfl, rfl⟩ := converses_done_iff.mp hk
      exact .inl ⟨e, rfl, rfl, rfl, rfl⟩
  | ok p =>
      rw [hprepared] at hk
      exact .inr ⟨p, rfl, hk⟩

/-- A plan that is asked for is refused before anything is sent, or made from the replies.
-/
theorem Facade.converses_plan_cases {r : Except Error SchemaPlan}
    (h : (plan s t args).Converses sh xs r sh') :
    (∃ e, prepared t .insert args = .error e ∧ xs = [] ∧ r = .error e ∧ sh' = sh) ∨
      ∃ schema gathered, prepared t .insert args = .ok (schema, gathered) ∧
        Planning s schema gathered.options xs r ∧ sh' = sh := by
  rcases converses_prepare_cases h with hrefused | ⟨⟨schema, gathered⟩, hprepared, hplan⟩
  · exact .inl hrefused
  · exact .inr ⟨schema, gathered, hprepared, converses_planFor_iff.mp hplan⟩

/-- A table is created as it is planned on a dry run, and else as it is
reconciled. -/
theorem Facade.converses_createTable_cases {r : Except Error SchemaPlan}
    (h : (createTable s t args).Converses sh xs r sh') :
    (∃ e, prepared t .insert args = .error e ∧ xs = [] ∧ r = .error e ∧ sh' = sh) ∨
      ∃ schema gathered, prepared t .insert args = .ok (schema, gathered) ∧
        (gathered.options.dryRun = true ∧ Planning s schema gathered.options xs r ∧ sh' = sh ∨
          gathered.options.dryRun = false ∧ Reconciliation s schema gathered.options xs r ∧
            sh' = sh.reconciled gathered.options.tableName r) := by
  rcases converses_prepare_cases h with hrefused | ⟨⟨schema, gathered⟩, hprepared, hrest⟩
  · exact .inl hrefused
  · refine .inr ⟨schema, gathered, hprepared, ?_⟩
    dsimp only at hrest
    cases hdry : gathered.options.dryRun with
    | true =>
        rw [if_pos hdry] at hrest
        exact .inl ⟨rfl, converses_planFor_iff.mp hrest⟩
    | false =>
        rw [if_neg (Bool.eq_false_iff.mp hdry)] at hrest
        exact .inr ⟨rfl, converses_reconcile_iff.mp hrest⟩

/-- A creation that is no dry run does what its reconciliation does. -/
theorem Facade.converses_createTable_of_reconciliation {schema : Schema} {gathered : Arguments}
    (hprepared : prepared t .insert args = .ok (schema, gathered))
    (hdry : gathered.options.dryRun = false) {r : Except Error SchemaPlan}
    (h : Reconciliation s schema gathered.options xs r) :
    (createTable s t args).Converses sh xs r (sh.reconciled gathered.options.tableName r) := by
  unfold createTable
  rw [((prepare_logsInto t .insert args).bind _).converses_iff, hprepared]
  change (if gathered.options.dryRun = true then _ else _ : Session SchemaPlan).Converses _ _ _ _
  rw [if_neg (Bool.eq_false_iff.mp hdry)]
  exact converses_reconcile_iff.mpr ⟨h, rfl⟩

/-- The name of the database is asked for and read. -/
theorem Facade.currentDatabase_eq (s : Settings) :
    currentDatabase s = ask s "SELECT DATABASE() AS \x60db\x60" >>= fun rows =>
      done (firstRow rows >>= (·.readText? "db")) := by
  simp only [currentDatabase, done_bind_eq]

/-- The operation only plans a table, with this schema and these options. -/
inductive Operation.OnlyPlans : Operation → Schema → TableOptions → Prop
  | plan {t : RecordType} {args : List Argument} {schema : Schema} {gathered : Arguments}
      (hprepared : prepared t .insert args = .ok (schema, gathered)) :
      OnlyPlans (.plan t args) schema gathered.options
  | createTable {t : RecordType} {args : List Argument} {schema : Schema}
      {gathered : Arguments} (hprepared : prepared t .insert args = .ok (schema, gathered))
      (hdry : gathered.options.dryRun = true) :
      OnlyPlans (.createTable t args) schema gathered.options

/-- An operation that only plans says what its plan takes, gives the errors of it, and
leaves what facades share. -/
theorem Operation.OnlyPlans.planning {op : Operation} {schema : Schema} {options : TableOptions}
    {r : Except Error Unit} (hplans : op.OnlyPlans schema options)
    (h : (op.session s).Converses sh xs r sh') :
    ∃ plan, Planning s schema options xs plan ∧ r = plan.map (fun _ => ()) ∧ sh' = sh := by
  cases hplans with
  | plan hprepared =>
      obtain ⟨plan, h, hr⟩ := Session.converses_discard_iff.mp h
      rcases Facade.converses_plan_cases h with ⟨e, hrefused, _⟩ | ⟨_, _, hprepared', hplan, hsh⟩
      · rw [hprepared] at hrefused
        cases hrefused
      · rw [hprepared] at hprepared'
        cases hprepared'
        exact ⟨plan, hplan, hr, hsh⟩
  | createTable hprepared hdry =>
      obtain ⟨plan, h, hr⟩ := Session.converses_discard_iff.mp h
      rcases Facade.converses_createTable_cases h with ⟨e, hrefused, _⟩ |
        ⟨_, _, hprepared', ⟨_, hplan, hsh⟩ | ⟨hreal, _, _⟩⟩
      · rw [hprepared] at hrefused
        cases hrefused
      · rw [hprepared] at hprepared'
        cases hprepared'
        exact ⟨plan, hplan, hr, hsh⟩
      · rw [hprepared] at hprepared'
        cases hprepared'
        rw [hdry] at hreal
        cases hreal

/-- What an operation says, and what facades share behind it. -/
inductive Operation.Says (s : Settings) (sh : Shared) :
    Operation → List Exchange → Shared → Prop
  | refused {op : Operation} : Says s sh op [] sh
  | performed {t : RecordType} {args : List Argument} {task : Task} {d : Draft}
      {xs : List Exchange} {r : Except Error (Outcome Effect)} {sh' : Shared}
      (hdraft : task.draft t args = .ok d) (h : d.Performs s t task sh xs r sh') :
      Says s sh (.records t args task) xs sh'
  | planned {op : Operation} {schema : Schema} {options : TableOptions} {xs : List Exchange}
      {r : Except Error SchemaPlan} (hplans : op.OnlyPlans schema options)
      (h : Planning s schema options xs r) : Says s sh op xs sh
  | reconciled {t : RecordType} {args : List Argument} {schema : Schema}
      {gathered : Arguments} {xs : List Exchange} {r : Except Error SchemaPlan}
      (hprepared : prepared t .insert args = .ok (schema, gathered))
      (hdry : gathered.options.dryRun = false)
      (h : Reconciliation s schema gathered.options xs r) :
      Says s sh (.createTable t args) xs (sh.reconciled gathered.options.tableName r)
  | asked {op : Operation} {sql : String} {reply : Except Error (List Row)} :
      Says s sh op [.query sql reply] sh

/-- No operation says anything else. -/
theorem Operation.says_of_converses {op : Operation} {r : Except Error Unit}
    (h : (op.session s).Converses sh xs r sh') : op.Says s sh xs sh' := by
  cases op with
  | records t args task =>
      obtain ⟨r', h, _⟩ := Session.converses_discard_iff.mp h
      rcases Task.converses_cases h with ⟨e, _, rfl, _, rfl⟩ | ⟨d, hdraft, hperforms⟩
      · exact .refused
      · exact .performed hdraft hperforms
  | plan t args =>
      obtain ⟨r', h, _⟩ := Session.converses_discard_iff.mp h
      rcases Facade.converses_plan_cases h with ⟨_, _, rfl, _, rfl⟩ |
        ⟨_, _, hprepared, hplan, rfl⟩
      · exact .refused
      · exact .planned (.plan hprepared) hplan
  | createTable t args =>
      obtain ⟨r', h, _⟩ := Session.converses_discard_iff.mp h
      rcases Facade.converses_createTable_cases h with ⟨_, _, rfl, _, rfl⟩ |
        ⟨_, _, hprepared, ⟨hdry, hplan, rfl⟩ | ⟨hdry, hreconciliation, rfl⟩⟩
      · exact .refused
      · exact .planned (.createTable hprepared hdry) hplan
      · exact .reconciled hprepared hdry hreconciliation
  | readFields table =>
      obtain ⟨r', h, _⟩ := Session.converses_discard_iff.mp h
      obtain ⟨_, rfl, _, rfl⟩ := Facade.converses_ask_bind_iff.mp h
      exact .asked
  | readKeys table =>
      obtain ⟨r', h, _⟩ := Session.converses_discard_iff.mp h
      obtain ⟨_, rfl, _, rfl⟩ := Facade.converses_ask_bind_iff.mp h
      exact .asked
  | currentDatabase =>
      obtain ⟨r', h, _⟩ := Session.converses_discard_iff.mp h
      rw [Facade.currentDatabase_eq] at h
      obtain ⟨_, rfl, _, rfl⟩ := Facade.converses_ask_bind_iff.mp h
      exact .asked

end Tables

end TableMapper
