import TableMapper.Proofs.Draft

/-!
# Tables created automatically

The life of a family of facades is a list of steps: operations, one behind the
other, and the switch that says whether tables are brought in line before writes.
Whatever the executors reply, a table is known to exist exactly if an operation had
to bring it in line and its reconciliation ran to its end, so a write that is sent
while the switch is on has one in front of it; and once a table is known, no
operation on records asks about it or changes it.

* `World.history` — the operations that were performed, with what they said;
* `Operation.NeedsTable`, `Operation.Reconciles` — an operation that has to bring a
  table in line, and does;
* `Operation.known_iff` — what one operation does to the known tables;
* `Operation.Says.exec_cases` — what stands in front of a statement on records;
* `World.history_spec` — what this makes of a whole life;
* `autoCreate_history` — the laws of it.
-/

namespace TableMapper

/-- A step in the life of a family: an operation with what answers it, or the
switch turned. -/
inductive FamilyStep (σ : Type)
  | operate (x : Executor σ) (op : Operation)
  | setAutoCreate (wanted : Bool)

/-- An operation that was performed: what facades shared before and after it, what
was said, and what came of it. -/
structure Performance where
  operation : Operation
  before : Shared
  exchanges : List Exchange
  result : Except Error Unit
  after : Shared

/-- What was said in a list of performances. -/
def said (ps : List Performance) : List Exchange :=
  ps.flatMap Performance.exchanges

namespace World

variable {σ : Type}

/-- An operation, performed. -/
def performance (s : Settings) (w : World σ) (x : Executor σ) (op : Operation) : Performance where
  operation := op
  before := w.shared
  exchanges := (op.session s).exchanges x w
  result := ((op.session s).run x w).1
  after := ((op.session s).run x w).2.shared

/-- The world after a step. -/
def step (s : Settings) (w : World σ) : FamilyStep σ → World σ
  | .operate x op => ((op.session s).run x w).2
  | .setAutoCreate wanted => { w with autoCreate := wanted }

/-- The world after some steps. -/
def after (s : Settings) (w : World σ) (steps : List (FamilyStep σ)) : World σ :=
  steps.foldl (step s) w

/-- The operations that are performed in some steps, in order. -/
def history (s : Settings) : World σ → List (FamilyStep σ) → List Performance
  | _, [] => []
  | w, .operate x op :: steps =>
    w.performance s x op :: history s (w.step s (.operate x op)) steps
  | w, .setAutoCreate wanted :: steps => history s (w.step s (.setAutoCreate wanted)) steps

end World

section Steps

variable {s : Settings} {schema : Schema} {options : TableOptions} {table : String}
  {sh sh' : Shared} {xs ys : List Exchange}

/-- Two reconciliations with the same replies are the same. -/
theorem Reconciliation.eq_of_prefix {r r' : Except Error SchemaPlan}
    (h : Reconciliation s schema options xs r) (h' : Reconciliation s schema options ys r')
    {zs : List Exchange} (hxs : xs <+: zs) (hys : ys <+: zs) : xs = ys ∧ r = r' := by
  have hconverses {ws : List Exchange} {q : Except Error SchemaPlan}
      (hq : Reconciliation s schema options ws q) :
      (Facade.reconcile s schema options).Converses ⟨true, {}⟩ ws q
        (Shared.reconciled ⟨true, {}⟩ options.tableName q) :=
    Facade.converses_reconcile_iff.mpr ⟨hq, rfl⟩
  rcases List.prefix_or_prefix_of_prefix hxs hys with hbegins | hbegins
  · obtain ⟨hsame, hr, _⟩ :=
      Session.Converses.eq_of_prefix (hconverses h) (hconverses h')
        (hbegins.trans (List.prefix_append ys []))
    exact ⟨hsame, hr⟩
  · obtain ⟨hsame, hr, _⟩ :=
      Session.Converses.eq_of_prefix (hconverses h') (hconverses h)
        (hbegins.trans (List.prefix_append xs []))
    exact ⟨hsame.symm, hr.symm⟩

/-- One more table is known, and no other. -/
theorem KnownTables.contains_insert_iff {k : KnownTables} {other : String} :
    (k.insert other).contains table = true ↔ table = other ∨ k.contains table = true :=
  Dict.contains_insert

/-- No table becomes unknown. -/
theorem Session.Converses.known_mono {α : Type} {session : Session α} {r : Except Error α}
    (h : session.Converses sh xs r sh') (hknown : sh.known.contains table = true) :
    sh'.known.contains table = true := by
  induction h with
  | done r sh => exact hknown
  | log h ih => exact ih hknown
  | exec h ih => exact ih hknown
  | query h ih => exact ih hknown
  | autoCreate h ih => exact ih hknown
  | isCreated h ih => exact ih hknown
  | markCreated h ih => exact ih (KnownTables.contains_insert_iff.mpr (.inr hknown))

/-- A table becomes known at the end of its reconciliation. -/
theorem Shared.known_reconciled_iff {r : Except Error SchemaPlan} :
    (sh.reconciled options.tableName r).known.contains table = true ↔
      sh.known.contains table = true ∨ options.tableName = table ∧ ∃ plan, r = .ok plan := by
  cases r with
  | error e => simp [Shared.reconciled]
  | ok plan =>
      refine (KnownTables.contains_insert_iff.trans or_comm).trans (or_congr_right ?_)
      rw [eq_comm]
      simp

/-- An ensured table was known, or its reconciliation ran to its end. -/
theorem Ensured.known_cases {r : Except Error Unit} (h : Ensured s schema options sh xs r sh')
    (hknown : sh'.known.contains table = true) :
    sh.known.contains table = true ∨
      sh.autoCreate = true ∧ sh.known.contains options.tableName = false ∧
        options.tableName = table ∧ ∃ plan, Reconciliation s schema options xs (.ok plan) := by
  cases h with
  | needless _ => exact .inl hknown
  | failed _ _ _ => exact .inl hknown
  | completed hwanted hunknown hreconciliation =>
      rcases KnownTables.contains_insert_iff.mp hknown with htable | hbefore
      · exact .inr ⟨hwanted, hunknown, htable.symm, _, hreconciliation⟩
      · exact .inl hbefore

/-- Where tables are brought in line, an ensured one was known, or its reconciliation ran to
its end. -/
theorem Ensured.known_or_reconciled (h : Ensured s schema options sh xs (.ok ()) sh')
    (hwanted : sh.autoCreate = true) :
    sh.known.contains options.tableName = true ∨
      sh.known.contains options.tableName = false ∧
        ∃ plan, Reconciliation s schema options xs (.ok plan) := by
  cases h with
  | needless hneedless =>
      rcases hneedless with hoff | hknown
      · rw [hwanted] at hoff
        cases hoff
      · exact .inl hknown
  | completed _ hunknown hreconciliation => exact .inr ⟨hunknown, _, hreconciliation⟩

/-- Where tables are brought in line, ensuring an unknown one is its reconciliation, and it
becomes known if that runs to its end. -/
theorem Ensured.exists_reconciliation {r : Except Error Unit}
    (h : Ensured s schema options sh xs r sh') (hwanted : sh.autoCreate = true)
    (hunknown : sh.known.contains options.tableName = false) :
    ∃ outcome, Reconciliation s schema options xs outcome ∧
      sh' = sh.reconciled options.tableName outcome := by
  cases h with
  | needless hneedless =>
      rcases hneedless with hoff | hknown
      · rw [hwanted] at hoff
        cases hoff
      · rw [hunknown] at hknown
        cases hknown
  | failed _ _ hreconciliation => exact ⟨_, hreconciliation, rfl⟩
  | completed _ _ hreconciliation => exact ⟨_, hreconciliation, rfl⟩

/-- Ensuring a table says something only about this table, and only if it is not
known. -/
theorem Ensured.concerns_cases {r : Except Error Unit} (h : Ensured s schema options sh xs r sh')
    {x : Exchange} (hx : x ∈ xs) (hconcerns : x.concerns table = true) :
    sh.known.contains table = false := by
  cases h with
  | needless _ => exact absurd hx List.not_mem_nil
  | failed _ hunknown hreconciliation | completed _ hunknown hreconciliation =>
      rw [← (hreconciliation.concerns_iff hx).mp hconcerns]
      exact hunknown

/-- What is executed to ensure a table changes it. -/
theorem Ensured.changesTable_of_exec {r : Except Error Unit} {sql : String}
    {reply : Except Error ExecResult} (h : Ensured s schema options sh xs r sh')
    (hx : .exec sql reply ∈ xs) : changesTable options.tableName sql = true := by
  cases h with
  | needless _ => exact absurd hx List.not_mem_nil
  | failed _ _ hreconciliation | completed _ _ hreconciliation =>
      exact hreconciliation.changesTable_of_exec hx

end Steps

section Operations

variable {s : Settings} {t : RecordType} {args : List Argument} {task : Task} {table : String}
  {sh sh' : Shared} {xs : List Exchange}

/-- What is said in front of an exchange that is not among `ys`, if `ys` comes
first. -/
theorem prefix_of_not_mem {α : Type} {x : α} {as bs ys zs : List α}
    (h : ys ++ zs = as ++ x :: bs) (hx : x ∉ ys) : ys <+: as ∧ x ∈ zs := by
  rcases List.append_eq_append_iff.mp h with ⟨cs, rfl, hzs⟩ | ⟨cs, rfl, hrest⟩
  · exact ⟨List.prefix_append ys cs, by rw [hzs]; simp⟩
  · cases cs with
    | nil => exact ⟨by simp, by rw [← List.nil_append zs, ← hrest]; simp⟩
    | cons c cs =>
        obtain ⟨rfl, _⟩ := List.cons.inj hrest
        exact absurd (by simp) hx

/-- The operation has to bring a table in line: a write to a table that is not
known, where this is wanted, or the creation of a table. -/
inductive Operation.NeedsTable (sh : Shared) : Operation → Schema → TableOptions → Prop
  | records {t : RecordType} {args : List Argument} {task : Task} {d : Draft}
      (hdraft : task.draft t args = .ok d) (hdry : d.args.options.dryRun = false)
      (htask : task ≠ .select) (hwanted : sh.autoCreate = true)
      (hunknown : sh.known.contains d.args.table = false) :
      NeedsTable sh (.records t args task) d.schema d.args.options
  | createTable {t : RecordType} {args : List Argument} {schema : Schema}
      {gathered : Arguments} (hprepared : prepared t .insert args = .ok (schema, gathered))
      (hdry : gathered.options.dryRun = false) :
      NeedsTable sh (.createTable t args) schema gathered.options

/-- An operation brings a table in line by what is said: it has to, and this is the
reconciliation with the schema and the options of the operation itself, run to its end. -/
def Operation.Reconciles (s : Settings) (sh : Shared) (op : Operation) (table : String)
    (xs : List Exchange) : Prop :=
  ∃ schema options plan, op.NeedsTable sh schema options ∧ options.tableName = table ∧
    Reconciliation s schema options xs (.ok plan)

/-- Performing a draft makes a table known only by the reconciliation that it begins with. -/
theorem Draft.Performs.known_cases {d : Draft} {r : Except Error (Outcome Effect)}
    (hdraft : task.draft t args = .ok d) (h : d.Performs s t task sh xs r sh')
    (hknown : sh'.known.contains table = true) :
    sh.known.contains table = true ∨
      ∃ ys, (Operation.records t args task).Reconciles s sh table ys ∧ ys <+: xs := by
  have hensuring {ys zs : List Exchange} {r : Except Error Unit} {middle : Shared}
      (hdry : d.args.options.dryRun = false) (htask : task ≠ .select)
      (hensured : Ensured s d.schema d.args.options sh ys r middle)
      (hmiddle : middle.known.contains table = true) :
      sh.known.contains table = true ∨
        ∃ ws, (Operation.records t args task).Reconciles s sh table ws ∧ ws <+: ys ++ zs := by
    rcases hensured.known_cases hmiddle with
      hbefore | ⟨hwanted, hunknown, htable, plan, hreconciliation⟩
    · exact .inl hbefore
    · exact .inr ⟨ys, ⟨_, _, plan, .records hdraft hdry htask hwanted hunknown, htable,
        hreconciliation⟩, List.prefix_append ys zs⟩
  cases h with
  | shown _ => exact .inl hknown
  | selected _ => exact .inl hknown
  | unready hdry htask hensured =>
      rw [← List.append_nil xs]
      exact hensuring hdry htask hensured hknown
  | refused hdry htask hensured => exact hensuring hdry htask hensured hknown
  | written hdry hensured => exact hensuring hdry (by simp) hensured hknown
  | readBack hdry hensured _ _ => exact hensuring hdry (by simp) hensured hknown

/-- A table becomes known only by an operation that has to bring it in line, and does. -/
theorem Operation.Says.known_cases {op : Operation} (h : op.Says s sh xs sh')
    (hknown : sh'.known.contains table = true) :
    sh.known.contains table = true ∨ ∃ ys, op.Reconciles s sh table ys ∧ ys <+: xs := by
  cases h with
  | refused => exact .inl hknown
  | performed hdraft hperforms => exact hperforms.known_cases hdraft hknown
  | planned _ _ => exact .inl hknown
  | reconciled hprepared hdry hreconciliation =>
      rcases Shared.known_reconciled_iff.mp hknown with hbefore | ⟨htable, plan, rfl⟩
      · exact .inl hbefore
      · exact .inr ⟨xs, ⟨_, _, plan, .createTable hprepared hdry, htable, hreconciliation⟩,
          List.prefix_rfl⟩
  | asked => exact .inl hknown

/-- What is said for an operation on records is said to ensure its table, or is a
statement on records. -/
theorem Draft.Performs.exchange_cases {d : Draft} {r : Except Error (Outcome Effect)}
    (h : d.Performs s t task sh xs r sh') {x : Exchange} (hx : x ∈ xs) :
    (∃ st : Statement, x.call.sql = st.text) ∨
      task ≠ .select ∧
        ∃ ys r' middle, Ensured s d.schema d.args.options sh ys r' middle ∧ x ∈ ys := by
  cases h with
  | shown _ => exact absurd hx List.not_mem_nil
  | selected _ =>
      rw [List.mem_singleton.mp hx]
      exact .inl ⟨d.st, rfl⟩
  | unready _ htask hensured => exact .inr ⟨htask, _, _, _, hensured, hx⟩
  | refused _ htask hensured =>
      rcases List.mem_append.mp hx with hx | hx
      · exact .inr ⟨htask, _, _, _, hensured, hx⟩
      · rw [List.mem_singleton.mp hx]
        exact .inl ⟨d.st, rfl⟩
  | written _ hensured =>
      rcases List.mem_append.mp hx with hx | hx
      · exact .inr ⟨by simp, _, _, _, hensured, hx⟩
      · rw [List.mem_singleton.mp hx]
        exact .inl ⟨d.st, rfl⟩
  | @readBack _ _ _ _ _ _ next _ _ hensured _ _ =>
      rcases List.mem_append.mp hx with hx | hx
      · exact .inr ⟨by simp, _, _, _, hensured, hx⟩
      · rcases List.mem_cons.mp hx with rfl | hx
        · exact .inl ⟨d.st, rfl⟩
        · rw [List.mem_singleton.mp hx]
          exact .inl ⟨next, rfl⟩

/-- An operation on records says something about a table only if it writes and the
table is not known. -/
theorem Task.concerns_cases {r : Except Error (Outcome Effect)}
    (h : (task.session s t args).Converses sh xs r sh') {x : Exchange} (hx : x ∈ xs)
    (hconcerns : x.concerns table = true) :
    task ≠ .select ∧ sh.known.contains table = false := by
  rcases Task.converses_cases h with ⟨e, _, rfl, _, _⟩ | ⟨d, _, hperforms⟩
  · exact absurd hx List.not_mem_nil
  · rcases hperforms.exchange_cases hx with ⟨st, hst⟩ | ⟨htask, ys, r', middle, hensured, hx⟩
    · rw [Exchange.concerns_of_statement hst] at hconcerns
      cases hconcerns
    · exact ⟨htask, hensured.concerns_cases hx hconcerns⟩

/-- A statement without rows that changes no table is the statement of the operation. Where
tables are brought in line, its table was known, or the operation did so in front of it. -/
theorem Draft.Performs.exec_cases {d : Draft} {r : Except Error (Outcome Effect)}
    {as bs : List Exchange} {sql : String} {reply : Except Error ExecResult}
    (hdraft : task.draft t args = .ok d) (h : d.Performs s t task sh xs r sh')
    (hwanted : sh.autoCreate = true) (hxs : xs = as ++ .exec sql reply :: bs)
    (hkeeps : ∀ table, changesTable table sql = false) :
    sql = d.st.text ∧ (sh.known.contains d.args.table = true ∨
      ∃ ys, (Operation.records t args task).Reconciles s sh d.args.table ys ∧ ys <+: as) := by
  have hensuring {ys : List Exchange} {r : Except Error Unit} {middle : Shared}
      (hensured : Ensured s d.schema d.args.options sh ys r middle) :
      .exec sql reply ∉ ys := by
    intro hmem
    have hchanges := hensured.changesTable_of_exec hmem
    rw [hkeeps] at hchanges
    cases hchanges
  have hbehind {ys zs : List Exchange} {middle : Shared}
      (hdry : d.args.options.dryRun = false) (htask : task ≠ .select)
      (hensured : Ensured s d.schema d.args.options sh ys (.ok ()) middle)
      (hsplit : ys ++ zs = as ++ .exec sql reply :: bs) :
      .exec sql reply ∈ zs ∧ (sh.known.contains d.args.table = true ∨
        ∃ ws, (Operation.records t args task).Reconciles s sh d.args.table ws ∧ ws <+: as) := by
    obtain ⟨hbegins, hmem⟩ := prefix_of_not_mem hsplit (hensuring hensured)
    refine ⟨hmem, ?_⟩
    rcases hensured.known_or_reconciled hwanted with hknown | ⟨hunknown, plan, hreconciliation⟩
    · exact .inl hknown
    · exact .inr ⟨ys, ⟨_, _, plan, .records hdraft hdry htask hwanted hunknown, rfl,
        hreconciliation⟩, hbegins⟩
  have hmem : .exec sql reply ∈ xs := by
    rw [hxs]
    simp
  cases h with
  | shown _ => exact absurd hmem List.not_mem_nil
  | selected _ => cases List.mem_singleton.mp hmem
  | unready _ _ hensured => exact absurd hmem (hensuring hensured)
  | refused hdry htask hensured =>
      obtain ⟨hown, htable⟩ := hbehind hdry htask hensured hxs
      cases List.mem_singleton.mp hown
      exact ⟨rfl, htable⟩
  | written hdry hensured =>
      obtain ⟨hown, htable⟩ := hbehind hdry (by simp) hensured hxs
      cases List.mem_singleton.mp hown
      exact ⟨rfl, htable⟩
  | readBack hdry hensured _ _ =>
      obtain ⟨hown, htable⟩ := hbehind hdry (by simp) hensured hxs
      rcases List.mem_cons.mp hown with heq | hmem
      · cases heq
        exact ⟨rfl, htable⟩
      · cases List.mem_singleton.mp hmem

/-- Only an operation on records executes a statement that changes no table. -/
theorem Operation.Says.exec_cases {op : Operation} {as bs : List Exchange} {sql : String}
    {reply : Except Error ExecResult} (h : op.Says s sh xs sh') (hwanted : sh.autoCreate = true)
    (hxs : xs = as ++ .exec sql reply :: bs) (hkeeps : ∀ table, changesTable table sql = false) :
    ∃ t args task d, op = .records t args task ∧ task.draft t args = .ok d ∧ sql = d.st.text ∧
      (sh.known.contains d.args.table = true ∨
        ∃ ys, op.Reconciles s sh d.args.table ys ∧ ys <+: as) := by
  have hmem : .exec sql reply ∈ xs := by
    rw [hxs]
    simp
  cases h with
  | refused => exact absurd hmem List.not_mem_nil
  | @performed t args task d _ _ _ hdraft hperforms =>
      exact ⟨t, args, task, d, rfl, hdraft, hperforms.exec_cases hdraft hwanted hxs hkeeps⟩
  | planned _ hplan =>
      obtain ⟨live, hlive⟩ := hplan.exists_inspection
      obtain ⟨reply', hquestion | hquestion⟩ := hlive.exists_question _ hmem
      · cases hquestion
      · cases hquestion
  | reconciled _ _ hreconciliation =>
      have hchanges := hreconciliation.changesTable_of_exec hmem
      rw [hkeeps] at hchanges
      cases hchanges
  | asked => cases List.mem_singleton.mp hmem

/-- A write to a table that is not known begins with the reconciliation of the table, where
tables are brought in line, and that decides whether it becomes known. -/
theorem Draft.Performs.exists_reconciliation {d : Draft} {r : Except Error (Outcome Effect)}
    (h : d.Performs s t task sh xs r sh') (hdry : d.args.options.dryRun = false)
    (htask : task ≠ .select) (hwanted : sh.autoCreate = true)
    (hunknown : sh.known.contains d.args.table = false) :
    ∃ ys outcome, Reconciliation s d.schema d.args.options ys outcome ∧ ys <+: xs ∧
      sh' = sh.reconciled d.args.table outcome := by
  cases h with
  | shown hmark =>
      rw [hdry] at hmark
      cases hmark
  | selected _ => exact absurd rfl htask
  | unready _ _ hensured =>
      obtain ⟨outcome, hreconciliation, hsh⟩ :=
        hensured.exists_reconciliation hwanted hunknown
      exact ⟨_, outcome, hreconciliation, List.prefix_rfl, hsh⟩
  | refused _ _ hensured | written _ hensured | readBack _ hensured _ _ =>
      obtain ⟨outcome, hreconciliation, hsh⟩ :=
        hensured.exists_reconciliation hwanted hunknown
      exact ⟨_, outcome, hreconciliation, List.prefix_append _ _, hsh⟩

/-- An operation that has to bring a table in line begins with this, and makes the table
known exactly if it runs to its end. -/
theorem Operation.NeedsTable.exists_reconciliation {op : Operation} {schema : Schema}
    {options : TableOptions} {r : Except Error Unit} (hneeds : op.NeedsTable sh schema options)
    (h : (op.session s).Converses sh xs r sh') :
    ∃ ys outcome, Reconciliation s schema options ys outcome ∧ ys <+: xs ∧
      sh' = sh.reconciled options.tableName outcome := by
  cases hneeds with
  | records hdraft hdry htask hwanted hunknown =>
      obtain ⟨r', h, _⟩ := Session.converses_discard_iff.mp h
      rcases Task.converses_cases h with ⟨e, hrefused, _⟩ | ⟨d', hdraft', hperforms⟩
      · rw [hdraft] at hrefused
        cases hrefused
      · rw [hdraft] at hdraft'
        cases hdraft'
        exact hperforms.exists_reconciliation hdry htask hwanted hunknown
  | createTable hprepared hdry =>
      obtain ⟨r', h, _⟩ := Session.converses_discard_iff.mp h
      rcases Facade.converses_createTable_cases h with ⟨e, hrefused, _⟩ |
        ⟨schema', gathered', hprepared', hrest⟩
      · rw [hprepared] at hrefused
        cases hrefused
      · rw [hprepared] at hprepared'
        cases hprepared'
        rcases hrest with ⟨hmark, _⟩ | ⟨_, hreconciliation, hsh⟩
        · rw [hdry] at hmark
          cases hmark
        · exact ⟨_, _, hreconciliation, List.prefix_rfl, hsh⟩

/-- An operation that cannot bring its table in line ends there, with the error that
kept it from doing so, and makes no table known. -/
theorem Operation.NeedsTable.eq_of_failed {op : Operation} {schema : Schema}
    {options : TableOptions} {r : Except Error Unit} {ys : List Exchange} {e : Error}
    (hneeds : op.NeedsTable sh schema options) (h : (op.session s).Converses sh xs r sh')
    (hfailed : Reconciliation s schema options ys (.error e)) (hys : ys <+: xs) :
    xs = ys ∧ r = .error e ∧ sh' = sh := by
  have hends : (op.session s).Converses sh ys (.error e) sh := by
    cases hneeds with
    | records hdraft hdry htask hwanted hunknown =>
        exact Session.converses_discard_error_iff.mpr
          (Task.converses_of_unready hdraft hdry htask (.failed hwanted hunknown hfailed))
    | createTable hprepared hdry =>
        exact Session.converses_discard_error_iff.mpr
          (Facade.converses_createTable_of_reconciliation hprepared hdry hfailed)
  obtain ⟨hxs, hr, hsh⟩ := hends.eq_of_prefix h (hys.trans (List.prefix_append xs []))
  exact ⟨hxs.symm, hr.symm, hsh.symm⟩

/-- The known tables behind an operation: those that were known, and the one that it brings
in line, if it has to and this runs to its end. -/
theorem Operation.known_iff {op : Operation} {r : Except Error Unit}
    (h : (op.session s).Converses sh xs r sh') :
    sh'.known.contains table = true ↔ sh.known.contains table = true ∨
      ∃ ys, op.Reconciles s sh table ys ∧ ys <+: xs := by
  constructor
  · exact (Operation.says_of_converses h).known_cases
  · rintro (hbefore | ⟨ys, ⟨schema, options, plan, hneeds, rfl, hcompleted⟩, hys⟩)
    · exact h.known_mono hbefore
    · obtain ⟨zs, outcome, hreconciliation, hzs, rfl⟩ := hneeds.exists_reconciliation h
      obtain ⟨_, rfl⟩ := hreconciliation.eq_of_prefix hcompleted hzs hys
      exact Shared.known_reconciled_iff.mpr (.inr ⟨rfl, plan, rfl⟩)

end Operations

namespace World

variable {σ : Type} {s : Settings}

/-- A performance is a conversation. -/
theorem converses_performance (w : World σ) (x : Executor σ) (op : Operation) :
    (op.session s).Converses (w.performance s x op).before (w.performance s x op).exchanges
      (w.performance s x op).result (w.performance s x op).after :=
  Session.converses_run x (op.session s) w

/-- The statements of a life are those that the world keeps. -/
theorem calls_after (s : Settings) (w : World σ) (steps : List (FamilyStep σ)) :
    (w.after s steps).calls = w.calls ++ (said (w.history s steps)).map Exchange.call := by
  induction steps generalizing w with
  | nil => exact (List.append_nil w.calls).symm
  | cons step steps ih =>
      cases step with
      | operate x op =>
          have hcalls := Session.calls_run x (op.session s) w
          refine (ih _).trans ?_
          change ((op.session s).run x w).2.calls ++ _ = _
          rw [hcalls, List.append_assoc, ← List.map_append]
          rfl
      | setAutoCreate wanted => exact ih _

/-- What is known stays known in a life. -/
theorem known_history {table : String} {w : World σ} {steps : List (FamilyStep σ)}
    {before behind : List Performance} {p : Performance}
    (h : w.history s steps = before ++ p :: behind)
    (hknown : w.known.contains table = true ∨
      ∃ q ∈ before, q.after.known.contains table = true) :
    p.before.known.contains table = true := by
  induction steps generalizing w before with
  | nil => cases before <;> cases h
  | cons step steps ih =>
      cases step with
      | setAutoCreate wanted => exact ih (w := w.step s (.setAutoCreate wanted)) h hknown
      | operate x op =>
          cases before with
          | nil =>
              cases h
              exact hknown.resolve_right (by simp)
          | cons q before =>
              obtain ⟨rfl, hrest⟩ := List.cons.inj h
              refine ih hrest ?_
              rcases hknown with hfirst | ⟨q, hq, hafter⟩
              · exact .inl ((w.converses_performance x op).known_mono hfirst)
              · rcases List.mem_cons.mp hq with rfl | hq
                · exact .inl hafter
                · exact .inr ⟨q, hq, hafter⟩

end World

/-- What was said in a performance begins with the reconciliation of a table, which the
operation had to bring in line and which ran to its end. -/
def Performance.Reconciles (s : Settings) (p : Performance) (table : String)
    (xs : List Exchange) : Prop :=
  p.operation.Reconciles s p.before table xs ∧ xs <+: p.exchanges

/-- Some operation in a list of performances brought the table in line. -/
def BroughtInLine (s : Settings) (table : String) (ps : List Performance) : Prop :=
  ∃ p ∈ ps, ∃ xs, p.Reconciles s table xs

namespace World

variable {σ : Type} {s : Settings}

/-- One more operation may bring the table in line itself, or leave it to the others. -/
theorem broughtInLine_cons {table : String} {p : Performance} {ps : List Performance} :
    BroughtInLine s table (p :: ps) ↔
      (∃ xs, p.Reconciles s table xs) ∨ BroughtInLine s table ps := by
  simp [BroughtInLine]

/-- In every part of a life, the known tables are those that were known in the beginning and
those that an operation has brought in line before. -/
theorem history_spec (s : Settings) (w : World σ) (steps : List (FamilyStep σ)) :
    (∀ table, (w.after s steps).known.contains table = true ↔
        w.known.contains table = true ∨ BroughtInLine s table (w.history s steps)) ∧
      ∀ before p behind, w.history s steps = before ++ p :: behind →
        (∀ table, p.before.known.contains table = true ↔
          w.known.contains table = true ∨ BroughtInLine s table before) ∧
        (p.operation.session s).Converses p.before p.exchanges p.result p.after := by
  induction steps generalizing w with
  | nil =>
      refine ⟨?_, ?_⟩
      · intro table
        simp [after, history, BroughtInLine]
      · intro before p behind h
        cases before <;> cases h
  | cons step steps ih =>
      cases step with
      | setAutoCreate wanted => exact ih (w.step s (.setAutoCreate wanted))
      | operate x op =>
          have hconverses := w.converses_performance (s := s) x op
          have hnext (table : String) :
              (w.step s (.operate x op)).known.contains table = true ↔
                w.known.contains table = true ∨
                  ∃ xs, (w.performance s x op).Reconciles s table xs :=
            Operation.known_iff hconverses
          obtain ⟨hafter, hparts⟩ := ih (w.step s (.operate x op))
          refine ⟨?_, ?_⟩
          · intro table
            refine (hafter table).trans ?_
            rw [hnext, or_assoc, history, broughtInLine_cons]
          · intro before p behind h
            cases before with
            | nil =>
                cases h
                refine ⟨?_, hconverses⟩
                intro table
                simp [BroughtInLine, performance, shared]
            | cons q before =>
                obtain ⟨rfl, hrest⟩ := List.cons.inj h
                obtain ⟨hknown, hp⟩ := hparts before p behind hrest
                refine ⟨?_, hp⟩
                intro table
                rw [hknown, hnext, or_assoc, broughtInLine_cons]

end World

/-- The world of a family that starts fresh. -/
def World.fresh {σ : Type} (state : σ) (wanted : Bool) : World σ :=
  { state, autoCreate := wanted }

/-- A family that starts fresh knows no table. -/
theorem World.known_fresh {σ : Type} (state : σ) (wanted : Bool) (table : String) :
    (World.fresh state wanted).known.contains table = false := by
  rw [Bool.eq_false_iff]
  intro h
  exact absurd (Dict.contains_iff.mp h) (by simp [World.fresh, Dict.empty])

/-- **What auto-create keeps over a whole life.**  A family starts fresh and goes
through any steps, whatever its executors reply.  A table is known exactly if some operation
had to bring it in line, and its reconciliation, with the schema and the options of this
operation, ran to its end.  A statement of an operation that is executed while auto-create is
on stands behind such a reconciliation of its table.  A table that is known stays so; an
operation on records says nothing about a known table, and a selection says nothing about
any.  An operation that has to bring a table in line begins with this, and if it fails, says
nothing more, gives the error and makes nothing known.  One that only plans says what its
plan takes, gives the error if there is one, and changes nothing that is shared. -/
theorem autoCreate_history {σ : Type} (s : Settings) (state : σ) (wanted : Bool)
    (steps : List (FamilyStep σ)) :
    ((World.fresh state wanted).after s steps).calls =
        (said ((World.fresh state wanted).history s steps)).map Exchange.call ∧
      (∀ table, ((World.fresh state wanted).after s steps).known.contains table = true ↔
        BroughtInLine s table ((World.fresh state wanted).history s steps)) ∧
      ∀ before p behind, (World.fresh state wanted).history s steps = before ++ p :: behind →
        (∀ table, p.before.known.contains table = true ↔ BroughtInLine s table before) ∧
        (p.before.autoCreate = true →
          ∀ xs sql reply ys, p.exchanges = xs ++ .exec sql reply :: ys →
            (∀ table, changesTable table sql = false) →
            ∃ t args task d, p.operation = .records t args task ∧
              task.draft t args = .ok d ∧ sql = d.st.text ∧
              (BroughtInLine s d.args.table before ∨
                ∃ zs, p.Reconciles s d.args.table zs ∧ zs <+: xs)) ∧
        (∀ q ∈ before, ∀ table, q.after.known.contains table = true →
          p.before.known.contains table = true) ∧
        (∀ t args task, p.operation = .records t args task → ∀ x ∈ p.exchanges,
          (∀ table, p.before.known.contains table = true → x.concerns table = false) ∧
          (task = .select → ∀ table, x.concerns table = false)) ∧
        (∀ schema options, p.operation.NeedsTable p.before schema options →
          (∃ xs outcome, Reconciliation s schema options xs outcome ∧ xs <+: p.exchanges) ∧
          ∀ xs e, Reconciliation s schema options xs (.error e) → xs <+: p.exchanges →
            p.exchanges = xs ∧ p.result = .error e ∧ p.after.known = p.before.known) ∧
        ∀ schema options, p.operation.OnlyPlans schema options →
          ∃ plan, Planning s schema options p.exchanges plan ∧
            p.result = plan.map (fun _ => ()) ∧ p.after = p.before := by
  have hfresh (table : String) (P : Prop) :
      (World.fresh state wanted).known.contains table = true ∨ P ↔ P := by
    rw [World.known_fresh]
    simp
  obtain ⟨hafter, hparts⟩ := World.history_spec s (World.fresh state wanted) steps
  simp only [hfresh] at hafter hparts
  refine ⟨World.calls_after s (World.fresh state wanted) steps, hafter, ?_⟩
  intro before p behind hsplit
  obtain ⟨hknown, hp⟩ := hparts before p behind hsplit
  refine ⟨hknown, ?_, ?_, ?_, ?_, ?_⟩
  · intro hon xs sql reply ys hexec hkeeps
    obtain ⟨t, args, task, d, hop, hdraft, hsql, htable⟩ :=
      (Operation.says_of_converses hp).exec_cases hon hexec hkeeps
    refine ⟨t, args, task, d, hop, hdraft, hsql, ?_⟩
    rcases htable with hbefore | ⟨zs, hreconciles, hzs⟩
    · exact .inl ((hknown d.args.table).mp hbefore)
    · have hbegins : xs <+: p.exchanges := ⟨_, hexec.symm⟩
      exact .inr ⟨zs, ⟨hreconciles, hzs.trans hbegins⟩, hzs⟩
  · intro q hq table hafter
    exact World.known_history hsplit (.inr ⟨q, hq, hafter⟩)
  · intro t args task hop x hx
    rw [hop] at hp
    obtain ⟨r, hp, _⟩ := Session.converses_discard_iff.mp hp
    refine ⟨?_, ?_⟩
    · intro table htable
      rw [Bool.eq_false_iff]
      intro hconcerns
      exact absurd (htable.symm.trans (Task.concerns_cases hp hx hconcerns).2) (by decide)
    · intro htask table
      rw [Bool.eq_false_iff]
      intro hconcerns
      exact (Task.concerns_cases hp hx hconcerns).1 htask
  · intro schema options hneeds
    obtain ⟨xs, outcome, hreconciliation, hxs, _⟩ := hneeds.exists_reconciliation hp
    refine ⟨⟨xs, outcome, hreconciliation, hxs⟩, ?_⟩
    intro xs e hfailed hxs
    obtain ⟨hall, hr, hshared⟩ := hneeds.eq_of_failed hp hfailed hxs
    exact ⟨hall, hr, congrArg Shared.known hshared⟩
  · intro schema options hplans
    exact hplans.planning hp

/-- A database without tables in which everything succeeds. -/
def emptyDatabase : Executor Unit where
  exec _ _ := (.ok {}, ())
  query _ _ := (.ok [], ())

/-- A record type with one number. -/
def countType : RecordType where
  members := [.column ⟨"count", ⟨.integer true .w32, false⟩, {}⟩]
  options := { tableName := "visits" }

/-- An insertion behind the switch that creates tables automatically. -/
def firstVisit : List (FamilyStep Unit) :=
  [.setAutoCreate true,
    .operate emptyDatabase (.records countType [] (.write (.insert [.value (.int 1)])))]

/-- The first insertion makes its table known, so it has been created. -/
theorem autoCreate_history_firstVisit :
    ((World.fresh () false).after {} firstVisit).known.contains "visits" = true ∧
      BroughtInLine {} "visits" ((World.fresh () false).history {} firstVisit) := by
  have hknown : ((World.fresh () false).after {} firstVisit).known.contains "visits" = true := by
    decide +kernel
  exact ⟨hknown, ((autoCreate_history {} () false firstVisit).2.1 "visits").mp hknown⟩

end TableMapper
