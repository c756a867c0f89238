import TableMapper.Proofs.Draft

/-!
# Changes are marked

A call may be interrupted at every statement, and meanwhile other calls may make
tables known.  So what is proved here about a call does not depend on what it is
told about tables: as long as no statement fails, an operation on records that has
changed a table ends only behind the mark that makes this table known; and if the
table is known when it first asks, it does not change the table at all.

* `Session.Ends` — what is true at the end of a session, whatever it is told;
* `Session.ends_andThen_iff` — the end of one session is where the next begins;
* `Task.ends_marked` — a changed table is marked in the end;
* `Session.Heeds`, `Task.heeds` — a known table is not changed.
-/

namespace TableMapper

namespace Session

variable {α β : Type} {table : String}

/-- However a session is answered, as long as no statement fails, it ends in `Q`:
whether it has changed the table, whether it has marked it, and its result.  The
two marks tell what it has done before. -/
def Ends (table : String) (Q : Bool → Bool → Except Error α → Prop) :
    Session α → Bool → Bool → Prop
  | done r, changed, marked => Q changed marked r
  | log _ next, changed, marked => next.Ends table Q changed marked
  | exec sql next, changed, marked =>
    ∀ result, (next (.ok result)).Ends table Q (changed || changesTable table sql) marked
  | query sql next, changed, marked =>
    ∀ rows, (next (.ok rows)).Ends table Q (changed || changesTable table sql) marked
  | autoCreate next, changed, marked => ∀ wanted, (next wanted).Ends table Q changed marked
  | isCreated _ next, changed, marked => ∀ known, (next known).Ends table Q changed marked
  | markCreated other next, changed, marked =>
    next.Ends table Q changed (marked || decide (other = table))

theorem Ends.mono {Q Q' : Bool → Bool → Except Error α → Prop} {s : Session α}
    {changed marked : Bool} (h : s.Ends table Q changed marked)
    (hQ : ∀ changed marked r, Q changed marked r → Q' changed marked r) :
    s.Ends table Q' changed marked := by
  induction s generalizing changed marked with
  | done r => exact hQ changed marked r h
  | log e next ih => exact ih h
  | exec sql next ih => exact fun result => ih (.ok result) (h result)
  | query sql next ih => exact fun rows => ih (.ok rows) (h rows)
  | autoCreate next ih => exact fun wanted => ih wanted (h wanted)
  | isCreated other next ih => exact fun known => ih known (h known)
  | markCreated other next ih => exact ih h

/-- A session in two parts ends as its second part does. -/
theorem ends_andThen_iff {Q : Bool → Bool → Except Error β → Prop} {s : Session α}
    {k : Except Error α → Session β} {changed marked : Bool} :
    (s.andThen k).Ends table Q changed marked ↔
      s.Ends table (fun changed marked r => (k r).Ends table Q changed marked) changed
        marked := by
  induction s generalizing changed marked with
  | done r => exact Iff.rfl
  | log e next ih => exact ih
  | exec sql next ih => exact forall_congr' fun result => ih (.ok result)
  | query sql next ih => exact forall_congr' fun rows => ih (.ok rows)
  | autoCreate next ih => exact forall_congr' fun wanted => ih wanted
  | isCreated other next ih => exact forall_congr' fun known => ih known
  | markCreated other next ih => exact ih

/-- Two steps end well if the second one does wherever the first one ends, and an
error of the first one is a good end. -/
theorem Ends.bind {Q : Bool → Bool → Except Error β → Prop} {s : Session α}
    {k : α → Session β} {changed marked : Bool}
    (h : s.Ends table (fun changed marked r => match r with
      | .ok a => (k a).Ends table Q changed marked
      | .error e => Q changed marked (.error e)) changed marked) :
    (s >>= k).Ends table Q changed marked := by
  refine ends_andThen_iff.mpr (h.mono ?_)
  intro changed marked r hr
  cases r with
  | error e => exact hr
  | ok a => exact hr

/-- Logging in front changes no ending. -/
@[simp] theorem ends_logged_iff {Q : Bool → Bool → Except Error α → Prop} {es : List Event}
    {s : Session α} {changed marked : Bool} :
    (logged es s).Ends table Q changed marked ↔ s.Ends table Q changed marked := by
  induction es with
  | nil => exact Iff.rfl
  | cons e es ih => exact ih

/-- What has been changed stays changed, so a session behind a change cannot end
without one. -/
theorem not_ends_unchanged {s : Session α} {marked : Bool} :
    ¬s.Ends table (fun changed _ _ => changed = false) true marked := by
  induction s generalizing marked with
  | done r => exact Bool.noConfusion
  | log e next ih => exact ih
  | exec sql next ih => exact fun h => ih (.ok {}) (h {})
  | query sql next ih => exact fun h => ih (.ok []) (h [])
  | autoCreate next ih => exact fun h => ih true (h true)
  | isCreated other next ih => exact fun h => ih true (h true)
  | markCreated other next ih => exact ih

end Session

open Session

namespace Facade

variable {s : Settings} {table : String} {changed marked : Bool}

/-- A statement that is sent may change the table, and marks nothing. -/
theorem ends_send {sql : String} {Q : Bool → Bool → Except Error ExecResult → Prop}
    (h : ∀ result, Q (changed || changesTable table sql) marked (.ok result)) :
    (send s sql).Ends table Q changed marked :=
  h

/-- A query that changes no table, with its rows read. -/
theorem ends_ask_bind {α : Type} {sql : String} {k : List Row → Except Error α}
    {Q : Bool → Bool → Except Error α → Prop} (hkeeps : changesTable table sql = false)
    (h : ∀ rows, Q changed marked (k rows)) :
    (ask s sql >>= fun rows => done (k rows)).Ends table Q changed marked := by
  intro rows
  rw [hkeeps, Bool.or_false]
  exact h rows

/-- Describing a table changes none. -/
theorem changesTable_describe (table other : String) :
    changesTable table (Live.describeText other) = false :=
  changesTable_of_inspectsTable (inspectsTable_describe_iff.mpr rfl)

/-- Asking for the keys of a table changes none. -/
theorem changesTable_showIndex (table other : String) :
    changesTable table (Live.showIndexText other) = false :=
  changesTable_of_inspectsTable (inspectsTable_showIndex_iff.mpr rfl)

/-- Looking at a table changes none. -/
theorem ends_liveTable {other : String} {Q : Bool → Bool → Except Error (Option LiveTable) → Prop}
    (h : ∀ r, Q changed marked r) :
    (liveTable s other).Ends table Q changed marked := by
  refine ends_andThen_iff.mpr (ends_ask_bind (changesTable_describe table other) ?_)
  intro rows
  cases Live.fields rows with
  | error e =>
      dsimp only
      split
      · exact h _
      · exact h _
  | ok fields =>
      cases fields with
      | nil => exact h _
      | cons f fs =>
          refine Ends.bind (ends_ask_bind (changesTable_showIndex table other) ?_)
          intro rows'
          cases Live.keys rows' with
          | error e => exact h _
          | ok keys => exact h _

/-- Planning changes no table, and the changes of the plan are about one table. -/
theorem ends_planFor {schema : Schema} {options : TableOptions}
    {Q : Bool → Bool → Except Error SchemaPlan → Prop}
    (herror : ∀ e, Q changed marked (.error e))
    (hok : ∀ plan : SchemaPlan, (∀ c ∈ plan.changes, c.table = options.tableName) →
      Q changed marked (.ok plan)) :
    (planFor s schema options).Ends table Q changed marked := by
  refine Ends.bind (ends_liveTable fun r => ?_)
  cases r with
  | error e => exact herror e
  | ok live =>
      change Q changed marked (SchemaPlan.make schema options s.defaults live)
      cases hplan : SchemaPlan.make schema options s.defaults live with
      | error e => exact herror e
      | ok plan => exact hok plan (SchemaPlan.table_of_mem_make hplan)

/-- Only the table that the changes are about is changed by them. -/
theorem ends_apply {other : String} {cs : List TableChange}
    {Q : Bool → Bool → Except Error Unit → Prop} (hcs : ∀ c ∈ cs, c.table = other)
    (h : ∀ changed', (changed' = true → changed = true ∨ other = table) →
      Q changed' marked (.ok ())) :
    (apply s other cs).Ends table Q changed marked := by
  induction cs generalizing changed with
  | nil => exact h changed .inl
  | cons c cs ih =>
      have hc := hcs c List.mem_cons_self
      have htail : ∀ d ∈ cs, d.table = other := fun d hd => hcs d (List.mem_cons_of_mem _ hd)
      have hsend : (send s c.text >>= fun _ => apply s other cs).Ends table Q changed marked := by
        refine Ends.bind (ends_send fun result => ih htail ?_)
        intro changed' hchanged'
        refine h changed' fun htrue => ?_
        rcases hchanged' htrue with hbefore | htable
        · rcases Bool.or_eq_true_iff.mp hbefore with hbefore | hchange
          · exact .inl hbefore
          · exact .inr (hc.symm.trans (changesTable_change_iff.mp hchange))
        · exact .inr htable
      exact hsend

/-- A reconciliation changes no table but its own, and marks it if it has been
changed. -/
theorem ends_reconcile {schema : Schema} {options : TableOptions}
    {Q : Bool → Bool → Except Error SchemaPlan → Prop}
    (h : ∀ changed marked r,
      (changed = true → options.tableName = table ∧ marked = true) → Q changed marked r) :
    (reconcile s schema options).Ends table Q false false := by
  refine Ends.bind (ends_planFor (fun e => h _ _ _ (by simp)) fun plan hplan => ?_)
  refine Ends.bind (ends_apply hplan fun changed' hchanged' => ?_)
  refine h _ _ _ fun htrue => ?_
  have htable := (hchanged' htrue).resolve_left (by simp)
  exact ⟨htable, by simp [htable]⟩

/-- Making sure of a table marks it if it has changed it. -/
theorem ends_ensureTable {schema : Schema} {options : TableOptions}
    {Q : Bool → Bool → Except Error Unit → Prop}
    (h : ∀ changed marked r,
      (changed = true → options.tableName = table ∧ marked = true) → Q changed marked r) :
    (ensureTable s schema options).Ends table Q false false := by
  intro wanted known
  dsimp only
  split
  · refine Ends.bind (ends_reconcile fun changed marked r hr => ?_)
    cases r with
    | error e => exact h _ _ _ hr
    | ok plan => exact h _ _ _ hr
  · exact h _ _ _ (by simp)

end Facade

section Operations

variable {s : Settings} {t : RecordType} {args : List Argument} {table : String}
  {changed marked : Bool} {Q : Bool → Bool → Except Error (Outcome Effect) → Prop}

/-- A statement on records changes no table. -/
theorem Facade.ends_send_statement {st : Statement} {k : ExecResult → Session (Outcome Effect)}
    (h : ∀ result, (k result).Ends table Q changed marked) :
    (Facade.send s st.text >>= k).Ends table Q changed marked := by
  refine Ends.bind (Facade.ends_send fun result => ?_)
  rw [changesTable_statement, Bool.or_false]
  exact h result

/-- A query for records changes and marks nothing. -/
theorem Facade.ends_fetch {st : Statement} (h : ∀ r, Q changed marked r) :
    (Facade.fetch s t st >>= fun records =>
      (pure (.performed (.read records)) : Session (Outcome Effect))).Ends table Q changed
        marked := by
  refine Ends.bind (Facade.ends_ask_bind (changesTable_statement table st) fun rows => ?_)
  cases rows.mapM t.read with
  | error e => exact h _
  | ok records => exact h _

/-- What the facade does behind its own statement changes no table. -/
theorem Facade.ends_read_back {schema : Schema} {gathered : Arguments} {result : ExecResult}
    (h : ∀ r, Q changed marked r) :
    (done (schema.increment gathered.table) >>= fun increment =>
      Facade.fetch s t (Facade.followUp schema gathered increment result) >>= fun records =>
        (pure (.performed (.read records)) : Session (Outcome Effect))).Ends table Q changed
          marked := by
  cases schema.increment gathered.table with
  | error e => exact h _
  | ok increment => exact Facade.ends_fetch h

/-- A draft changes no table but its own, and marks it if it has been changed. -/
theorem Draft.ends_perform {d : Draft} {task : Task}
    (h : ∀ changed marked r,
      (changed = true → d.args.table = table ∧ marked = true) → Q changed marked r) :
    (d.perform s t task).Ends table Q false false := by
  have hensured {k : Unit → Session (Outcome Effect)}
      (hk : ∀ changed marked, (changed = true → d.args.table = table ∧ marked = true) →
        (k ()).Ends table Q changed marked) :
      (Facade.ensureTable s d.schema d.args.options >>= k).Ends table Q false false := by
    refine Ends.bind (Facade.ends_ensureTable fun changed marked r hr => ?_)
    cases r with
    | error e => exact h _ _ _ hr
    | ok _ => exact hk changed marked hr
  cases task with
  | select =>
      unfold perform
      dsimp only
      split
      · exact h _ _ _ (by simp)
      · exact Facade.ends_fetch fun r => h _ _ _ (by simp)
  | selectOrInsert record =>
      unfold perform
      dsimp only
      split
      · exact h _ _ _ (by simp)
      · exact hensured fun changed marked hr => Facade.ends_send_statement fun result =>
          Facade.ends_read_back fun r => h _ _ _ hr
  | write w =>
      unfold perform
      dsimp only
      split
      · exact h _ _ _ (by simp)
      · exact hensured fun changed marked hr => Facade.ends_send_statement fun result =>
          h _ _ _ hr

/-- A session that only logs first ends as it would have otherwise. -/
theorem Session.LogsInto.ends_iff {s s' : Session (Outcome Effect)} (h : s.LogsInto s') :
    s.Ends table Q changed marked ↔ s'.Ends table Q changed marked := by
  obtain ⟨es, rfl⟩ := h
  exact ends_logged_iff

/-- **A changed table is marked.**  As long as no statement fails, an operation on
records that has changed a table ends with the table marked as known. -/
theorem Task.ends_marked (s : Settings) (t : RecordType) (args : List Argument) (task : Task)
    (table : String) :
    (task.session s t args).Ends table (fun changed marked _ => changed = true → marked = true)
      false false := by
  rw [(Task.session_logsInto s t args task).ends_iff]
  cases task.draft t args with
  | error e =>
      intro hchanged
      cases hchanged
  | ok d => exact Draft.ends_perform fun changed marked r hr hchanged => (hr hchanged).2

/-- A session that does not change the table if this is known when it first asks
about it; nothing is sent before it asks. -/
def Session.Heeds {α : Type} (table : String) : Session α → Prop
  | .done _ => True
  | .log _ next => next.Heeds table
  | .exec sql next =>
    (Session.exec sql next).Ends table (fun changed _ _ => changed = false) false false
  | .query sql next =>
    (Session.query sql next).Ends table (fun changed _ _ => changed = false) false false
  | .autoCreate next => ∀ wanted, (next wanted).Heeds table
  | .isCreated other next =>
    (next true).Ends table (fun changed _ _ => changed = false) false false ∧
      (other ≠ table →
        (next false).Ends table (fun changed _ _ => changed = false) false false)
  | .markCreated _ next => next.Heeds table

/-- A session that only logs first heeds a table as it would have otherwise. -/
theorem Session.LogsInto.heeds_iff {s s' : Session (Outcome Effect)} (h : s.LogsInto s') :
    s.Heeds table ↔ s'.Heeds table := by
  obtain ⟨es, rfl⟩ := h
  induction es with
  | nil => exact Iff.rfl
  | cons e es ih => exact ih

/-- Ensuring a table asks about it first. -/
theorem Facade.heeds_ensureTable_bind {schema : Schema} {options : TableOptions}
    {k : Unit → Session (Outcome Effect)}
    (hk : ∀ marked, (k ()).Ends table (fun changed _ _ => changed = false) false marked) :
    (Facade.ensureTable s schema options >>= k).Heeds table := by
  intro wanted
  refine ⟨?_, ?_⟩
  · refine Ends.bind ?_
    beta_reduce
    rw [Bool.not_true, Bool.and_false, if_neg Bool.false_ne_true]
    exact hk false
  · intro hother
    refine Ends.bind ?_
    beta_reduce
    split
    · refine Ends.bind (Facade.ends_reconcile fun changed marked r hr => ?_)
      have hunchanged : changed = false := by
        rw [Bool.eq_false_iff]
        intro hchanged
        exact hother (hr hchanged).1
      subst hunchanged
      cases r with
      | error e => rfl
      | ok plan => exact hk marked
    · exact hk false

/-- **A known table is not changed.**  An operation on records that finds its table
known sends no change of it, and never one of another table. -/
theorem Task.heeds (s : Settings) (t : RecordType) (args : List Argument) (task : Task)
    (table : String) : (task.session s t args).Heeds table := by
  rw [(Task.session_logsInto s t args task).heeds_iff]
  cases task.draft t args with
  | error e => exact trivial
  | ok d =>
      change (d.perform s t task).Heeds table
      cases task with
      | select =>
          unfold Draft.perform
          dsimp only
          split
          · exact trivial
          · exact Facade.ends_fetch (s := s) fun r => rfl
      | selectOrInsert record =>
          unfold Draft.perform
          dsimp only
          split
          · exact trivial
          · exact Facade.heeds_ensureTable_bind fun marked =>
              Facade.ends_send_statement fun result => Facade.ends_read_back fun r => rfl
      | write w =>
          unfold Draft.perform
          dsimp only
          split
          · exact trivial
          · exact Facade.heeds_ensureTable_bind fun marked =>
              Facade.ends_send_statement fun result => rfl

end Operations

end TableMapper
