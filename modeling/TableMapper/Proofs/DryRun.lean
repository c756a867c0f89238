import TableMapper.Proofs.ErrorPlaces

/-!
# Dry runs

A dry run is asked for by the options of the record type or by any options among
the arguments.  It sends nothing, and gives the statement that the call would
have sent: the same call with all these marks taken away makes the same
statement, or is refused for the same reason.

* `wantsDryRun` — whether a call is a dry run;
* `Task.draft_withoutDryRun` — the marks decide nothing else about a draft;
* `Foretold` — what a call may send whose own statement is known beforehand;
* `dryRun_faithful` — what a dry run says about the call without the marks.
-/

namespace TableMapper

/-- The options without the mark of a dry run. -/
def TableOptions.withoutDryRun (o : TableOptions) : TableOptions :=
  { o with dryRun := false }

/-- The argument without the mark of a dry run. -/
def Argument.withoutDryRun : Argument → Argument
  | .options o => .options o.withoutDryRun
  | arg => arg

/-- The record type without the mark of a dry run. -/
def RecordType.withoutDryRun (t : RecordType) : RecordType :=
  { t with options := t.options.withoutDryRun }

/-- The gathered arguments without the mark of a dry run. -/
def Arguments.withoutDryRun (a : Arguments) : Arguments :=
  { a with options := a.options.withoutDryRun }

/-- The statement, made of arguments without the mark of a dry run. -/
def Statement.withoutDryRun : Statement → Statement
  | .select columns args => .select columns args.withoutDryRun
  | .update updates args => .update updates args.withoutDryRun
  | .delete args => .delete args.withoutDryRun
  | st => st

/-- The draft without the mark of a dry run. -/
def Draft.withoutDryRun (d : Draft) : Draft :=
  ⟨d.schema, d.args.withoutDryRun, d.st.withoutDryRun⟩

/-- Whether an argument asks for a dry run. -/
def Argument.wantsDryRun : Argument → Bool
  | .options o => o.dryRun
  | _ => false

/-- Whether a call is a dry run. -/
def wantsDryRun (t : RecordType) (args : List Argument) : Bool :=
  t.options.dryRun || args.any Argument.wantsDryRun

/-- Settling options does not look at the mark. -/
theorem TableOptions.settle_withoutDryRun (o : TableOptions) :
    o.withoutDryRun.settle = (o.settle.1.withoutDryRun, o.settle.2) := by
  have hname : o.withoutDryRun.tableName = o.tableName := rfl
  have hindexes : o.withoutDryRun.indexes = o.indexes := rfl
  have huniques : o.withoutDryRun.uniques = o.uniques := rfl
  unfold settle
  rw [hname, hindexes, huniques]
  split
  · rfl
  · split
    · rfl
    · rfl

/-- Options are settled with or without the mark. -/
theorem TableOptions.check_withoutDryRun (o : TableOptions) :
    o.withoutDryRun.check = o.check.map TableOptions.withoutDryRun := by
  unfold check
  rw [settle_withoutDryRun]
  obtain ⟨settled, error⟩ := o.settle
  cases error <;> rfl

/-- Settling options keeps the mark. -/
theorem TableOptions.dryRun_settle (o : TableOptions) : o.settle.1.dryRun = o.dryRun := by
  unfold settle
  split
  · rfl
  · split
    · rfl
    · rfl

/-- Options that are accepted keep the mark. -/
theorem TableOptions.dryRun_check {o settled : TableOptions} (h : o.check = .ok settled) :
    settled.dryRun = o.dryRun := by
  rw [← o.dryRun_settle]
  unfold check at h
  split at h
  · rename_i heq
    cases h
    rw [heq]
  · cases h

namespace Arguments

/-- An argument without its mark adds what it adds otherwise. -/
theorem add_withoutDryRun (schema : Schema) (a : Arguments) (arg : Argument) :
    (a.add schema arg).withoutDryRun = a.withoutDryRun.add schema arg.withoutDryRun := by
  cases arg <;> rfl

/-- Arguments without their marks add what they add otherwise. -/
theorem addAll_withoutDryRun (schema : Schema) (verb : Verb) (a : Arguments)
    (args : List Argument) :
    addAll schema verb a.withoutDryRun (args.map Argument.withoutDryRun) =
      (addAll schema verb a args).map withoutDryRun := by
  induction args generalizing a with
  | nil => rfl
  | cons arg args ih =>
      have hkind : arg.withoutDryRun.kind = arg.kind := by cases arg <;> rfl
      rw [List.map_cons, addAll, addAll, hkind, ← add_withoutDryRun, ih]
      split <;> rfl

/-- The mark is there if it was, or if an argument has it. -/
theorem dryRun_addAll {schema : Schema} {verb : Verb} {a gathered : Arguments}
    {args : List Argument} (h : addAll schema verb a args = .ok gathered) :
    gathered.options.dryRun = (a.options.dryRun || args.any Argument.wantsDryRun) := by
  induction args generalizing a with
  | nil =>
      cases h
      exact (Bool.or_false _).symm
  | cons arg args ih =>
      rw [addAll] at h
      split at h
      · have hadd : (a.add schema arg).options.dryRun =
            (a.options.dryRun || arg.wantsDryRun) := by
          cases arg with
          | options o => rfl
          | _ => exact (Bool.or_false _).symm
        rw [ih h, hadd, List.any_cons, Bool.or_assoc]
      · cases h

/-- Arguments are gathered with or without the marks. -/
theorem gather_withoutDryRun (schema : Schema) (base : TableOptions) (verb : Verb)
    (args : List Argument) :
    gather schema base.withoutDryRun verb (args.map Argument.withoutDryRun) =
      (gather schema base verb args).map withoutDryRun := by
  have hbase : ({ options := base.withoutDryRun } : Arguments) =
      ({ options := base } : Arguments).withoutDryRun := rfl
  unfold gather
  rw [hbase, addAll_withoutDryRun]
  cases addAll schema verb { options := base } args with
  | error e => rfl
  | ok gathered =>
      have hoptions : gathered.withoutDryRun.options = gathered.options.withoutDryRun := rfl
      simp only [Except.map, ok_bind]
      rw [hoptions, TableOptions.check_withoutDryRun]
      cases gathered.options.check <;> rfl

/-- One mark is enough to make a call a dry run. -/
theorem dryRun_gather {schema : Schema} {t : RecordType} {verb : Verb} {args : List Argument}
    {gathered : Arguments} (h : gather schema t.options verb args = .ok gathered) :
    gathered.options.dryRun = wantsDryRun t args := by
  obtain ⟨added, hadded, hrest⟩ := bind_eq_ok.mp h
  obtain ⟨settled, hcheck, hgathered⟩ := bind_eq_ok.mp hrest
  cases hgathered
  exact (TableOptions.dryRun_check hcheck).trans (dryRun_addAll hadded)

end Arguments

/-- The marks are not written out. -/
theorem Statement.text_withoutDryRun (st : Statement) : st.withoutDryRun.text = st.text := by
  cases st <;> rfl

/-- A call without marks is prepared as the marked one, but for the mark. -/
theorem prepared_withoutDryRun (t : RecordType) (verb : Verb) (args : List Argument) :
    prepared t.withoutDryRun verb (args.map Argument.withoutDryRun) =
      (prepared t verb args).map fun p => (p.1, p.2.withoutDryRun) := by
  have hschema : t.withoutDryRun.schema = t.schema := rfl
  have hoptions : t.withoutDryRun.options = t.options.withoutDryRun := rfl
  unfold prepared
  rw [hschema, hoptions]
  refine bind_eq_map_bind fun schema => ?_
  rw [Arguments.gather_withoutDryRun]
  cases Arguments.gather schema t.options verb args <;> rfl

/-- What is prepared is marked exactly if the type or an argument wants it. -/
theorem dryRun_prepared {t : RecordType} {verb : Verb} {args : List Argument} {schema : Schema}
    {gathered : Arguments} (h : prepared t verb args = .ok (schema, gathered)) :
    gathered.options.dryRun = wantsDryRun t args := by
  obtain ⟨schema', _, hrest⟩ := bind_eq_ok.mp h
  obtain ⟨gathered', hgather, heq⟩ := bind_eq_ok.mp hrest
  cases heq
  exact Arguments.dryRun_gather hgather

/-- A guarded insert does not depend on the mark. -/
theorem Statement.ofGuardedInsert_withoutDryRun (schema : Schema) (args : Arguments)
    (values : List Value) :
    ofGuardedInsert schema args.withoutDryRun values =
      (ofGuardedInsert schema args values).map withoutDryRun := by
  have hconditions : args.withoutDryRun.conditions = args.conditions := rfl
  have htable : args.withoutDryRun.table = args.table := rfl
  unfold ofGuardedInsert
  rw [hconditions, htable]
  cases args.conditions with
  | nil => rfl
  | cons p ps =>
      refine bind_eq_map_bind fun increment => ?_
      cases Batch.placed schema values <;> rfl

/-- No writing statement depends on the mark. -/
theorem Writing.statement_withoutDryRun (schema : Schema) (args : Arguments) (w : Writing) :
    w.statement schema args.withoutDryRun =
      (w.statement schema args).map Statement.withoutDryRun := by
  cases w with
  | insert record => exact bind_eq_map_bind fun _ => rfl
  | insertMany records => exact bind_eq_map_bind fun _ => bind_eq_map_bind fun _ => rfl
  | update as => exact bind_eq_map_bind fun _ => rfl
  | delete => rfl
  | insertIfAbsent record =>
      exact bind_eq_map_bind (Statement.ofGuardedInsert_withoutDryRun schema args)
  | upsert record as =>
      exact bind_eq_map_bind fun _ => bind_eq_map_bind fun _ => bind_eq_map_bind fun _ => rfl
  | upsertMany records as =>
      exact bind_eq_map_bind fun _ => bind_eq_map_bind fun _ => bind_eq_map_bind fun _ => rfl

/-- The marks decide nothing about a draft but whether it is one of a dry run. -/
theorem Task.draft_withoutDryRun (t : RecordType) (args : List Argument) (task : Task) :
    task.draft t.withoutDryRun (args.map Argument.withoutDryRun) =
      (task.draft t args).map Draft.withoutDryRun := by
  unfold draft
  rw [prepared_withoutDryRun]
  cases prepared t task.verb args with
  | error e => rfl
  | ok p =>
      have hstatement : task.statement p.1 p.2.withoutDryRun =
          (task.statement p.1 p.2).map Statement.withoutDryRun := by
        cases task with
        | select => rfl
        | selectOrInsert record =>
            exact bind_eq_map_bind (Statement.ofGuardedInsert_withoutDryRun p.1 p.2)
        | write w => exact w.statement_withoutDryRun p.1 p.2
      simp only [Except.map, ok_bind]
      rw [hstatement]
      cases task.statement p.1 p.2 <;> rfl

section Calls

variable {s : Settings} {t : RecordType} {args : List Argument} {task : Task} {sh sh' : Shared}
  {xs : List Exchange} {r : Except Error (Outcome Effect)}

/-- A draft is marked exactly if the call is. -/
theorem Task.dryRun_draft {d : Draft} (h : task.draft t args = .ok d) :
    d.args.options.dryRun = wantsDryRun t args :=
  dryRun_prepared (Task.draft_eq_ok h).1

/-- A dry run says nothing, and gives the statement of its draft. -/
theorem Task.converses_dry (hdry : wantsDryRun t args = true)
    (h : (task.session s t args).Converses sh xs r sh') :
    xs = [] ∧ sh' = sh ∧ r = (task.draft t args).map fun d => .statement d.st.text := by
  rcases Task.converses_cases h with ⟨e, hdraft, hxs, hr, hsh⟩ | ⟨d, hdraft, hperforms⟩
  · rw [hdraft]
    exact ⟨hxs, hsh, hr⟩
  · have hmark := (Task.dryRun_draft hdraft).trans hdry
    rw [hdraft]
    cases hperforms with
    | shown _ => exact ⟨rfl, rfl, rfl⟩
    | selected hnot | unready hnot _ _ | refused hnot _ _ | written hnot _ | readBack hnot _ _ _ =>
        rw [hmark] at hnot
        cases hnot

/-- What a call sends whose own statement is `sql`.  A selection sends it at once.
Every other operation first brings its table in line, where this is needed; if that
fails, so does the call, and else it sends the statement.  Only a selection behind
a guarded insert sends one query more. -/
inductive Foretold (s : Settings) (d : Draft) (sh : Shared) (sql : String) :
    Task → List Exchange → Except Error (Outcome Effect) → Prop
  | selected {reply : Except Error (List Row)} {r : Except Error (Outcome Effect)} :
      Foretold s d sh sql .select [.query sql reply] r
  | unready {task : Task} {xs : List Exchange} {e : Error} {sh' : Shared}
      (htask : task ≠ .select)
      (h : Ensured s d.schema d.args.options sh xs (.error e) sh') :
      Foretold s d sh sql task xs (.error e)
  | sent {task : Task} {xs : List Exchange} {reply : Except Error ExecResult}
      {r : Except Error (Outcome Effect)} {sh' : Shared} (htask : task ≠ .select)
      (h : Ensured s d.schema d.args.options sh xs (.ok ()) sh') :
      Foretold s d sh sql task (xs ++ [.exec sql reply]) r
  | readBack {record : List Cell} {xs : List Exchange} {result : ExecResult} {next : String}
      {reply : Except Error (List Row)} {r : Except Error (Outcome Effect)} {sh' : Shared}
      (h : Ensured s d.schema d.args.options sh xs (.ok ()) sh') :
      Foretold s d sh sql (.selectOrInsert record)
        (xs ++ [.exec sql (.ok result), .query next reply]) r

/-- A call that is no dry run sends the statement of its draft. -/
theorem Draft.Performs.foretold {d : Draft} (h : d.Performs s t task sh xs r sh')
    (hdry : d.args.options.dryRun = false) : Foretold s d sh d.st.text task xs r := by
  cases h with
  | shown hmark =>
      rw [hdry] at hmark
      cases hmark
  | selected _ => exact .selected
  | unready _ htask hensured => exact .unready htask hensured
  | refused _ htask hensured => exact .sent htask hensured
  | written _ hensured => exact .sent (by simp) hensured
  | readBack _ hensured _ _ => exact .readBack hensured

/-- A call without marks is refused with the error of the dry run, or sends the
statement that the dry run gives. -/
theorem Task.converses_withoutDryRun
    (h : (task.session s t.withoutDryRun (args.map Argument.withoutDryRun)).Converses sh xs r
      sh') :
    (∃ e, task.draft t args = .error e ∧ xs = [] ∧ r = .error e) ∨
      ∃ d, task.draft t args = .ok d ∧
        Foretold s d.withoutDryRun sh d.st.text task xs r := by
  have hdrafts := Task.draft_withoutDryRun t args task
  rcases Task.converses_cases h with ⟨e, hdraft, hxs, hr, _⟩ | ⟨d', hdraft, hperforms⟩
  · rw [hdraft] at hdrafts
    exact .inl ⟨e, map_eq_error.mp hdrafts.symm, hxs, hr⟩
  · rw [hdraft] at hdrafts
    obtain ⟨d, hd, rfl⟩ := map_eq_ok.mp hdrafts.symm
    have hforetold := hperforms.foretold rfl
    have htext : d.withoutDryRun.st.text = d.st.text := d.st.text_withoutDryRun
    rw [htext] at hforetold
    exact .inr ⟨d, hd, hforetold⟩

/-- A dry creation of a table asks questions only. -/
theorem Facade.converses_createTable_dry (hdry : wantsDryRun t args = true)
    {r : Except Error SchemaPlan} (h : (Facade.createTable s t args).Converses sh xs r sh') :
    (∀ x ∈ xs, x.IsQuestion) ∧ sh' = sh := by
  rcases Facade.converses_createTable_cases h with ⟨e, _, rfl, _, hsh⟩ |
    ⟨schema, gathered, hprepared, ⟨_, hplan, hsh⟩ | ⟨hnot, _, _⟩⟩
  · exact ⟨fun x hx => absurd hx List.not_mem_nil, hsh⟩
  · refine ⟨?_, hsh⟩
    intro x hx
    obtain ⟨live, hlive⟩ := hplan.exists_inspection
    obtain ⟨reply, hquestion⟩ := hlive.exists_question x hx
    exact ⟨_, reply, hquestion⟩
  · rw [dryRun_prepared hprepared, hdry] at hnot
    cases hnot

end Calls

/-- **A dry run is faithful and silent.**  Whatever operation on records is asked
for as a dry run, nothing is sent, no table becomes known, and the result is a
statement or an error.  The same call without any mark of a dry run fails with the
same error before it sends anything, or sends exactly this statement as its own
once its table is ensured.  A table that is created on a dry run is only asked
about. -/
theorem dryRun_faithful {σ : Type} (s : Settings) {t : RecordType} {args : List Argument}
    (hdry : wantsDryRun t args = true) (x : Executor σ) (w : World σ) :
    (∀ task : Task,
      ((task.session s t args).run x w).2.calls = w.calls ∧
        ((task.session s t args).run x w).2.known = w.known ∧
        ((∃ e, ((task.session s t args).run x w).1 = .error e ∧
            ((task.session s t.withoutDryRun (args.map Argument.withoutDryRun)).run x w).1 =
              .error e ∧
            (task.session s t.withoutDryRun (args.map Argument.withoutDryRun)).exchanges x w =
              []) ∨
          ∃ sql d, ((task.session s t args).run x w).1 = .ok (.statement sql) ∧
            task.draft t.withoutDryRun (args.map Argument.withoutDryRun) = .ok d ∧
            Foretold s d w.shared sql task
              ((task.session s t.withoutDryRun (args.map Argument.withoutDryRun)).exchanges x w)
              ((task.session s t.withoutDryRun (args.map Argument.withoutDryRun)).run x w).1)) ∧
      (∀ y ∈ (Facade.createTable s t args).exchanges x w, y.IsQuestion) ∧
      ((Facade.createTable s t args).run x w).2.known = w.known := by
  refine ⟨?_, ?_⟩
  · intro task
    have hrun := Session.converses_run x (task.session s t args) w
    obtain ⟨hsilent, hshared, hresult⟩ := Task.converses_dry hdry hrun
    have hcalls := Session.calls_run x (task.session s t args) w
    rw [hsilent, List.map_nil, List.append_nil] at hcalls
    refine ⟨hcalls, congrArg Shared.known hshared, ?_⟩
    have hlive := Session.converses_run x
      (task.session s t.withoutDryRun (args.map Argument.withoutDryRun)) w
    rcases Task.converses_withoutDryRun hlive with ⟨e, hdraft, hsent, hr⟩ | ⟨d, hdraft, hforetold⟩
    · rw [hdraft] at hresult
      exact .inl ⟨e, hresult, hr, hsent⟩
    · rw [hdraft] at hresult
      refine .inr ⟨d.st.text, d.withoutDryRun, hresult, ?_, hforetold⟩
      rw [Task.draft_withoutDryRun, hdraft]
      rfl
  · have hrun := Session.converses_run x (Facade.createTable s t args) w
    obtain ⟨hquestions, hshared⟩ := Facade.converses_createTable_dry hdry hrun
    exact ⟨hquestions, congrArg Shared.known hshared⟩

/-- A record type whose operations are dry runs. -/
def dryType : RecordType :=
  { bareType with options := { bareType.options with dryRun := true } }

/-- A dry deletion from a table that would have to be created first. -/
theorem dryRun_faithful_deletion :
    wantsDryRun dryType [] = true ∧
      ((Task.session {} dryType [] (.write .delete)).run downExecutor
        { state := (), autoCreate := true }).1 = .ok (.statement "DELETE FROM \x60visits\x60") ∧
      ((Task.session {} dryType [] (.write .delete)).run downExecutor
        { state := (), autoCreate := true }).2.calls = [] := by
  have hdry : wantsDryRun dryType [] = true := rfl
  have hfaithful := dryRun_faithful {} hdry downExecutor { state := (), autoCreate := true }
  exact ⟨hdry, rfl, (hfaithful.1 (.write .delete)).1⟩

end TableMapper
