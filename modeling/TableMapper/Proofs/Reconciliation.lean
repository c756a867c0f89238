import TableMapper.Proofs.Conversation
import TableMapper.Proofs.Convergence
import TableMapper.Proofs.Refusal
import TableMapper.Proofs.StatementTarget

/-!
# Reconciliations

How a table is brought in line with a schema, as a conversation: the columns are
asked for, and if there are any the keys; then the changes of the plan are sent
one behind the other.  Whatever fails ends it, except that a missing table is no
failure.

* `Inspection` — what is asked about a table, and what is learnt;
* `Applied` — changes sent, up to the first that is refused;
* `Reconciliation` — both, with the plan in between;
* `Ensured` — a reconciliation where a write needs one;
* `converses_reconcile_iff`, `converses_ensureTable_iff` — these are all the
  conversations that the facade can have.
-/

namespace TableMapper

/-- What is asked about a table and learnt from the replies. -/
inductive Inspection (table : String) :
    List Exchange → Except Error (Option LiveTable) → Prop
  | absent {e : Error} (h : e.isTableMissing = true) :
      Inspection table [.query (Live.describeText table) (.error e)] (.ok none)
  | fieldsRefused {e : Error} (h : e.isTableMissing = false) :
      Inspection table [.query (Live.describeText table) (.error e)]
        (.error (e.withStatement (Live.describeText table)))
  | fieldsUnreadable {rows : List Row} {e : Error} (h : Live.fields rows = .error e) :
      Inspection table [.query (Live.describeText table) (.ok rows)] (.error e)
  | empty {rows : List Row} (h : Live.fields rows = .ok []) :
      Inspection table [.query (Live.describeText table) (.ok rows)] (.ok none)
  | keysRefused {rows : List Row} {f : Field} {fs : List Field} {e : Error}
      (h : Live.fields rows = .ok (f :: fs)) :
      Inspection table
        [.query (Live.describeText table) (.ok rows),
          .query (Live.showIndexText table) (.error e)]
        (.error (e.withStatement (Live.showIndexText table)))
  | keysUnreadable {rows rows' : List Row} {f : Field} {fs : List Field} {e : Error}
      (h : Live.fields rows = .ok (f :: fs)) (h' : Live.keys rows' = .error e) :
      Inspection table
        [.query (Live.describeText table) (.ok rows),
          .query (Live.showIndexText table) (.ok rows')]
        (.error e)
  | present {rows rows' : List Row} {f : Field} {fs : List Field} {keys : LiveKeys}
      (h : Live.fields rows = .ok (f :: fs)) (h' : Live.keys rows' = .ok keys) :
      Inspection table
        [.query (Live.describeText table) (.ok rows),
          .query (Live.showIndexText table) (.ok rows')]
        (.ok (some ⟨f :: fs, keys⟩))

/-- Changes sent in order, up to the first that is refused. -/
inductive Applied : List TableChange → List Exchange → Except Error Unit → Prop
  | nil : Applied [] [] (.ok ())
  | refused {c : TableChange} {cs : List TableChange} {e : Error} :
      Applied (c :: cs) [.exec c.text (.error e)] (.error (e.withStatement c.text))
  | cons {c : TableChange} {cs : List TableChange} {reply : ExecResult} {xs : List Exchange}
      {r : Except Error Unit} (h : Applied cs xs r) :
      Applied (c :: cs) (.exec c.text (.ok reply) :: xs) r

section

variable (s : Settings) (schema : Schema) (options : TableOptions)

/-- A plan made from what is learnt about its table. -/
def Planning (xs : List Exchange) (r : Except Error SchemaPlan) : Prop :=
  ∃ live, Inspection options.tableName xs live ∧
    r = live >>= SchemaPlan.make schema options s.defaults

/-- A table brought in line with a schema, or the attempt. -/
inductive Reconciliation : List Exchange → Except Error SchemaPlan → Prop
  | unplanned {xs : List Exchange} {e : Error}
      (h : Planning s schema options xs (.error e)) : Reconciliation xs (.error e)
  | stopped {xs ys : List Exchange} {plan : SchemaPlan} {e : Error}
      (h : Planning s schema options xs (.ok plan)) (h' : Applied plan.changes ys (.error e)) :
      Reconciliation (xs ++ ys) (.error e)
  | completed {xs ys : List Exchange} {plan : SchemaPlan}
      (h : Planning s schema options xs (.ok plan)) (h' : Applied plan.changes ys (.ok ())) :
      Reconciliation (xs ++ ys) (.ok plan)

/-- A table brought in line before a write, where this is wanted and it is not
known to exist. -/
inductive Ensured : Shared → List Exchange → Except Error Unit → Shared → Prop
  | needless {sh : Shared}
      (h : sh.autoCreate = false ∨ sh.known.contains options.tableName = true) :
      Ensured sh [] (.ok ()) sh
  | failed {sh : Shared} {xs : List Exchange} {e : Error} (hwanted : sh.autoCreate = true)
      (hunknown : sh.known.contains options.tableName = false)
      (h : Reconciliation s schema options xs (.error e)) : Ensured sh xs (.error e) sh
  | completed {sh : Shared} {xs : List Exchange} {plan : SchemaPlan}
      (hwanted : sh.autoCreate = true)
      (hunknown : sh.known.contains options.tableName = false)
      (h : Reconciliation s schema options xs (.ok plan)) :
      Ensured sh xs (.ok ()) { sh with known := sh.known.insert options.tableName }

end

namespace Facade

open Session

variable {α : Type} {s : Settings} {sh sh' : Shared} {xs : List Exchange}

/-- A statement that is executed is one exchange, and an error of it carries the statement.
-/
theorem converses_send_iff {sql : String} {r : Except Error ExecResult} :
    (send s sql).Converses sh xs r sh' ↔
      ∃ reply, xs = [.exec sql reply] ∧ r = reply.mapError (·.withStatement sql) ∧ sh' = sh := by
  rw [send, converses_log_iff, converses_exec_iff]
  constructor
  · rintro ⟨reply, rest, rfl, h⟩
    obtain ⟨rfl, rfl, rfl⟩ := converses_done_iff.mp h
    exact ⟨reply, rfl, rfl, rfl⟩
  · rintro ⟨reply, rfl, rfl, rfl⟩
    exact ⟨reply, [], rfl, .done _ _⟩

/-- A question is one exchange, and an error of it carries the question. -/
theorem converses_ask_iff {sql : String} {r : Except Error (List Row)} :
    (ask s sql).Converses sh xs r sh' ↔
      ∃ reply, xs = [.query sql reply] ∧ r = reply.mapError (·.withStatement sql) ∧ sh' = sh := by
  rw [ask, converses_log_iff, converses_query_iff]
  constructor
  · rintro ⟨reply, rest, rfl, h⟩
    obtain ⟨rfl, rfl, rfl⟩ := converses_done_iff.mp h
    exact ⟨reply, rfl, rfl, rfl⟩
  · rintro ⟨reply, rfl, rfl, rfl⟩
    exact ⟨reply, [], rfl, .done _ _⟩

/-- A query whose rows are read. -/
theorem converses_ask_bind_iff {sql : String} {k : List Row → Except Error α}
    {r : Except Error α} :
    (ask s sql >>= fun rows => done (k rows)).Converses sh xs r sh' ↔
      ∃ reply, xs = [.query sql reply] ∧
        r = (reply.mapError (·.withStatement sql) >>= k) ∧ sh' = sh := by
  rw [converses_bind_done_iff]
  constructor
  · rintro ⟨_, hask, rfl⟩
    obtain ⟨reply, rfl, rfl, rfl⟩ := converses_ask_iff.mp hask
    exact ⟨reply, rfl, rfl, rfl⟩
  · rintro ⟨reply, rfl, rfl, rfl⟩
    exact ⟨_, converses_ask_iff.mpr ⟨reply, rfl, rfl, rfl⟩, rfl⟩

/-- A statement added to an error does not change whether it says that the table is missing.
-/
theorem isTableMissing_withStatement (e : Error) (sql : String) :
    (e.withStatement sql).isTableMissing = e.isTableMissing := by
  cases e with
  | execution message statement sqlState => cases statement <;> rfl
  | _ => rfl

/-- What is said until it is known whether a table exists is an inspection of it. -/
theorem converses_liveTable_iff {table : String} {r : Except Error (Option LiveTable)} :
    (liveTable s table).Converses sh xs r sh' ↔ Inspection table xs r ∧ sh' = sh := by
  have hrefused (e : Error) : (e.withStatement (Live.describeText table)).isTableMissing =
      e.isTableMissing := isTableMissing_withStatement e _
  have hunreadable {rows : List Row} {e : Error} (h : Live.fields rows = .error e) :
      e.isTableMissing = false := (Live.fields_failsOnly rows e h).isTableMissing_eq_false
  refine converses_andThen_iff.trans ⟨?_, ?_⟩
  · rintro ⟨_, fields, _, _, hfields, hrest, rfl⟩
    obtain ⟨reply, rfl, rfl, rfl⟩ := converses_ask_bind_iff.mp hfields
    cases reply with
    | error e =>
        cases hmissing : e.isTableMissing with
        | true =>
            simp only [Except.mapError, error_bind, hrefused, hmissing, if_true] at hrest
            obtain ⟨rfl, rfl, rfl⟩ := converses_pure_iff.mp hrest
            exact ⟨.absent hmissing, rfl⟩
        | false =>
            simp only [Except.mapError, error_bind, hrefused, hmissing] at hrest
            obtain ⟨rfl, rfl, rfl⟩ := converses_done_iff.mp hrest
            exact ⟨.fieldsRefused hmissing, rfl⟩
    | ok rows =>
        simp only [Except.mapError, ok_bind] at hrest
        cases hrows : Live.fields rows with
        | error e =>
            simp only [hrows, hunreadable hrows] at hrest
            obtain ⟨rfl, rfl, rfl⟩ := converses_done_iff.mp hrest
            exact ⟨.fieldsUnreadable hrows, rfl⟩
        | ok fields =>
            rw [hrows] at hrest
            cases fields with
            | nil =>
                obtain ⟨rfl, rfl, rfl⟩ := converses_pure_iff.mp hrest
                exact ⟨.empty hrows, rfl⟩
            | cons f fs =>
                obtain ⟨_, hkeys, rfl⟩ := converses_bind_done_iff.mp hrest
                obtain ⟨reply, rfl, rfl, rfl⟩ := converses_ask_bind_iff.mp hkeys
                refine ⟨?_, rfl⟩
                cases reply with
                | error e => exact .keysRefused hrows
                | ok rows' =>
                    change Inspection table _ (Live.keys rows' >>= _)
                    cases hread : Live.keys rows' with
                    | error e => exact .keysUnreadable hrows hread
                    | ok keys => exact .present hrows hread
  · rintro ⟨h, rfl⟩
    have hstart (reply : Except Error (List Row)) :
        (readFields s table).Converses sh' [.query (Live.describeText table) reply]
          (reply.mapError (fun e => e.withStatement (Live.describeText table)) >>= Live.fields)
          sh' :=
      converses_ask_bind_iff.mpr ⟨reply, rfl, rfl, rfl⟩
    cases h with
    | @absent e hmissing =>
        refine ⟨_, _, sh', [], hstart (.error e), ?_, rfl⟩
        simp only [Except.mapError, error_bind, hrefused, hmissing, if_true]
        exact .done _ _
    | @fieldsRefused e hmissing =>
        refine ⟨_, _, sh', [], hstart (.error e), ?_, rfl⟩
        simp only [Except.mapError, error_bind, hrefused, hmissing]
        exact .done _ _
    | @fieldsUnreadable rows e hrows =>
        refine ⟨_, _, sh', [], hstart (.ok rows), ?_, rfl⟩
        simp only [Except.mapError, ok_bind, hrows, hunreadable hrows]
        exact .done _ _
    | @empty rows hrows =>
        refine ⟨_, _, sh', [], hstart (.ok rows), ?_, rfl⟩
        simp only [Except.mapError, ok_bind, hrows]
        exact .done _ _
    | @keysRefused rows f fs e hrows =>
        refine ⟨_, _, sh', [_], hstart (.ok rows), ?_, rfl⟩
        simp only [Except.mapError, ok_bind, hrows]
        exact converses_bind_done_iff.mpr
          ⟨_, converses_ask_bind_iff.mpr ⟨.error e, rfl, rfl, rfl⟩, rfl⟩
    | @keysUnreadable rows rows' f fs e hrows hkeys =>
        refine ⟨_, _, sh', [_], hstart (.ok rows), ?_, rfl⟩
        simp only [Except.mapError, ok_bind, hrows]
        exact converses_bind_done_iff.mpr
          ⟨.error e, converses_ask_bind_iff.mpr ⟨.ok rows', rfl, hkeys.symm, rfl⟩, rfl⟩
    | @present rows rows' f fs keys hrows hkeys =>
        refine ⟨_, _, sh', [_], hstart (.ok rows), ?_, rfl⟩
        simp only [Except.mapError, ok_bind, hrows]
        exact converses_bind_done_iff.mpr
          ⟨.ok keys, converses_ask_bind_iff.mpr ⟨.ok rows', rfl, hkeys.symm, rfl⟩, rfl⟩

/-- Planning is the inspection of the live table and the plan against it; the shared state
stays. -/
theorem converses_planFor_iff {schema : Schema} {options : TableOptions}
    {r : Except Error SchemaPlan} :
    (planFor s schema options).Converses sh xs r sh' ↔
      Planning s schema options xs r ∧ sh' = sh := by
  rw [planFor, converses_bind_done_iff]
  constructor
  · rintro ⟨live, h, rfl⟩
    obtain ⟨hlive, rfl⟩ := converses_liveTable_iff.mp h
    exact ⟨⟨live, hlive, rfl⟩, rfl⟩
  · rintro ⟨⟨live, hlive, rfl⟩, rfl⟩
    exact ⟨live, converses_liveTable_iff.mpr ⟨hlive, rfl⟩, rfl⟩

/-- Applying a plan is its statements in turn, up to the first that fails; the shared state
stays. -/
theorem converses_apply_iff {table : String} {cs : List TableChange} {r : Except Error Unit} :
    (apply s table cs).Converses sh xs r sh' ↔ Applied cs xs r ∧ sh' = sh := by
  induction cs generalizing xs with
  | nil =>
      rw [apply, converses_pure_iff]
      constructor
      · rintro ⟨rfl, rfl, rfl⟩
        exact ⟨.nil, rfl⟩
      · rintro ⟨h, rfl⟩
        cases h
        exact ⟨rfl, rfl, rfl⟩
  | cons c cs ih =>
      rw [apply, converses_log_iff, converses_bind_iff]
      constructor
      · rintro (⟨e, hsend, rfl⟩ | ⟨_, result, _, _, hsend, hrest, rfl⟩)
        · obtain ⟨reply, rfl, hreply, rfl⟩ := converses_send_iff.mp hsend
          cases reply with
          | error e =>
              cases hreply
              exact ⟨.refused, rfl⟩
          | ok result => cases hreply
        · obtain ⟨reply, rfl, hreply, rfl⟩ := converses_send_iff.mp hsend
          obtain ⟨happlied, rfl⟩ := ih.mp hrest
          cases reply with
          | error e => cases hreply
          | ok result => exact ⟨.cons happlied, rfl⟩
      · rintro ⟨h, rfl⟩
        cases h with
        | @refused _ _ e =>
            exact .inl ⟨_, converses_send_iff.mpr ⟨.error e, rfl, rfl, rfl⟩, rfl⟩
        | @cons _ _ reply _ _ hrest =>
            exact .inr ⟨_, reply, sh', _, converses_send_iff.mpr ⟨.ok reply, rfl, rfl, rfl⟩,
              ih.mpr ⟨hrest, rfl⟩, rfl⟩

end Facade

/-- What facades share once a table has been brought in line, or not. -/
def Shared.reconciled (sh : Shared) (table : String) : Except Error SchemaPlan → Shared
  | .ok _ => { sh with known := sh.known.insert table }
  | .error _ => sh

namespace Facade

open Session

variable {s : Settings} {schema : Schema} {options : TableOptions} {sh sh' : Shared}
  {xs : List Exchange}

/-- A table is known to exist once it has been brought in line, and only then. -/
theorem converses_reconcile_iff {r : Except Error SchemaPlan} :
    (reconcile s schema options).Converses sh xs r sh' ↔
      Reconciliation s schema options xs r ∧ sh' = sh.reconciled options.tableName r := by
  rw [reconcile, converses_bind_iff]
  constructor
  · rintro (⟨e, hfirst, rfl⟩ | ⟨_, plan, _, _, hfirst, hrest, rfl⟩)
    · obtain ⟨hplan, rfl⟩ := converses_planFor_iff.mp hfirst
      exact ⟨.unplanned hplan, rfl⟩
    · obtain ⟨hplan, rfl⟩ := converses_planFor_iff.mp hfirst
      rcases converses_bind_iff.mp hrest with ⟨e, hnext, rfl⟩ | ⟨_, _, _, _, hnext, hmark, rfl⟩
      · obtain ⟨happly, rfl⟩ := converses_apply_iff.mp hnext
        exact ⟨.stopped hplan happly, rfl⟩
      · obtain ⟨happly, rfl⟩ := converses_apply_iff.mp hnext
        obtain ⟨rfl, rfl, rfl⟩ := converses_pure_iff.mp (converses_markCreated_iff.mp hmark)
        rw [List.append_nil]
        exact ⟨.completed hplan happly, rfl⟩
  · rintro ⟨h, rfl⟩
    cases h with
    | unplanned hplan => exact .inl ⟨_, converses_planFor_iff.mpr ⟨hplan, rfl⟩, rfl⟩
    | stopped hplan happly =>
        exact .inr ⟨_, _, sh, _, converses_planFor_iff.mpr ⟨hplan, rfl⟩,
          converses_bind_iff.mpr (.inl ⟨_, converses_apply_iff.mpr ⟨happly, rfl⟩, rfl⟩), rfl⟩
    | @completed _ ys _ hplan happly =>
        refine .inr ⟨_, _, sh, _, converses_planFor_iff.mpr ⟨hplan, rfl⟩,
          converses_bind_iff.mpr (.inr ⟨ys, (), sh, [],
            converses_apply_iff.mpr ⟨happly, rfl⟩, ?_, (List.append_nil ys).symm⟩), rfl⟩
        exact converses_markCreated_iff.mpr (.done _ _)

/-- Ensuring a table is nothing for a known one, and else a reconciliation with its mark. -/
theorem converses_ensureTable_iff {r : Except Error Unit} :
    (ensureTable s schema options).Converses sh xs r sh' ↔
      Ensured s schema options sh xs r sh' := by
  rw [ensureTable, converses_autoCreate_iff, converses_isCreated_iff]
  constructor
  · intro h
    split at h
    · rename_i hneeded
      obtain ⟨hwanted, hunknown⟩ := Bool.and_eq_true_iff.mp hneeded
      rw [Bool.not_eq_true'] at hunknown
      obtain ⟨r', hfirst, rfl⟩ := converses_bind_done_iff.mp h
      obtain ⟨hreconciliation, rfl⟩ := converses_reconcile_iff.mp hfirst
      cases r' with
      | error e => exact .failed hwanted hunknown hreconciliation
      | ok plan => exact .completed hwanted hunknown hreconciliation
    · rename_i hneeded
      obtain ⟨rfl, rfl, rfl⟩ := converses_pure_iff.mp h
      refine .needless ?_
      cases hwanted : sh'.autoCreate with
      | false => exact .inl rfl
      | true => exact .inr (by simpa [hwanted] using hneeded)
  · intro h
    cases h with
    | needless hneedless =>
        rw [if_neg (by rcases hneedless with h | h <;> simp [h])]
        exact .done _ _
    | failed hwanted hunknown h =>
        rw [if_pos (by simp [hwanted, hunknown])]
        exact converses_bind_done_iff.mpr ⟨.error _, converses_reconcile_iff.mpr ⟨h, rfl⟩, rfl⟩
    | @completed _ plan hwanted hunknown h =>
        rw [if_pos (by simp [hwanted, hunknown])]
        exact converses_bind_done_iff.mpr ⟨.ok plan, converses_reconcile_iff.mpr ⟨h, rfl⟩, rfl⟩

end Facade

/-- Whether a statement changes a table or asks about it. -/
def Exchange.concerns (table : String) (x : Exchange) : Bool :=
  inspectsTable table x.call.sql || changesTable table x.call.sql

/-- A statement on rows neither creates nor alters a table. -/
theorem Exchange.concerns_of_statement {table : String} {x : Exchange} {st : Statement}
    (h : x.call.sql = st.text) : x.concerns table = false := by
  rw [concerns, h, inspectsTable_statement, changesTable_statement]
  rfl

/-- An inspection consists of questions about its table. -/
theorem Inspection.exists_question {table : String} {xs : List Exchange}
    {r : Except Error (Option LiveTable)} (h : Inspection table xs r) :
    ∀ x ∈ xs, ∃ reply,
      x = .query (Live.describeText table) reply ∨ x = .query (Live.showIndexText table) reply := by
  cases h with
  | absent _ | fieldsRefused _ | fieldsUnreadable _ | empty _ =>
      intro x hx
      exact ⟨_, .inl (List.mem_singleton.mp hx)⟩
  | keysRefused _ | keysUnreadable _ _ | present _ _ =>
      intro x hx
      rcases List.mem_cons.mp hx with rfl | hx
      · exact ⟨_, .inl rfl⟩
      · exact ⟨_, .inr (List.mem_singleton.mp hx)⟩

/-- Only changes of the list are sent. -/
theorem Applied.exists_change {cs : List TableChange} {xs : List Exchange}
    {r : Except Error Unit} (h : Applied cs xs r) :
    ∀ x ∈ xs, ∃ c ∈ cs, ∃ reply, x = .exec c.text reply := by
  induction h with
  | nil =>
      intro x hx
      exact absurd hx List.not_mem_nil
  | @refused c cs e =>
      intro x hx
      exact ⟨c, List.mem_cons_self, _, List.mem_singleton.mp hx⟩
  | @cons c cs reply xs r h ih =>
      intro x hx
      rcases List.mem_cons.mp hx with rfl | hx
      · exact ⟨c, List.mem_cons_self, _, rfl⟩
      · obtain ⟨d, hd, reply', rfl⟩ := ih x hx
        exact ⟨d, List.mem_cons_of_mem _ hd, reply', rfl⟩

/-- Every change of a plan is about the table of the options. -/
theorem SchemaPlan.table_of_mem_make {schema : Schema} {options : TableOptions}
    {defaults : TableDefaults} {live : Option LiveTable} {plan : SchemaPlan}
    (h : SchemaPlan.make schema options defaults live = .ok plan) :
    ∀ c ∈ plan.changes, c.table = options.tableName := by
  cases live with
  | none =>
      cases h
      intro c hc
      rw [List.mem_singleton.mp hc]
      rfl
  | some live =>
      obtain ⟨changes, hchanges, rfl⟩ := map_eq_ok.mp h
      exact table_of_mem_additions hchanges

/-- A planning, however it ends, begins with the inspection of the table. -/
theorem Planning.exists_inspection {s : Settings} {schema : Schema} {options : TableOptions}
    {xs : List Exchange} {r : Except Error SchemaPlan} (h : Planning s schema options xs r) :
    ∃ live, Inspection options.tableName xs live := by
  obtain ⟨live, hlive, _⟩ := h
  exact ⟨live, hlive⟩

/-- A reconciliation consists of questions about its table and changes of it. -/
theorem Reconciliation.exists_exchange {s : Settings} {schema : Schema} {options : TableOptions}
    {xs : List Exchange} {r : Except Error SchemaPlan}
    (h : Reconciliation s schema options xs r) :
    ∀ x ∈ xs,
      (∃ reply, x = .query (Live.describeText options.tableName) reply ∨
        x = .query (Live.showIndexText options.tableName) reply) ∨
      ∃ (c : TableChange) (reply : Except Error ExecResult),
        c.table = options.tableName ∧ x = .exec c.text reply := by
  have hquestion {ys : List Exchange} {r : Except Error SchemaPlan}
      (hplan : Planning s schema options ys r) : ∀ x ∈ ys, ∃ reply,
        x = .query (Live.describeText options.tableName) reply ∨
          x = .query (Live.showIndexText options.tableName) reply := by
    obtain ⟨live, hlive⟩ := hplan.exists_inspection
    exact hlive.exists_question
  have hchange {ys zs : List Exchange} {plan : SchemaPlan} {r : Except Error Unit}
      (hplan : Planning s schema options ys (.ok plan)) (happly : Applied plan.changes zs r) :
      ∀ x ∈ zs, ∃ (c : TableChange) (reply : Except Error ExecResult),
        c.table = options.tableName ∧ x = .exec c.text reply := by
    intro x hx
    obtain ⟨live, _, hmake⟩ := hplan
    obtain ⟨t, _, hmake⟩ := bind_eq_ok.mp hmake.symm
    obtain ⟨c, hc, reply, hx⟩ := happly.exists_change x hx
    exact ⟨c, reply, SchemaPlan.table_of_mem_make hmake c hc, hx⟩
  intro x hx
  cases h with
  | unplanned hplan => exact .inl (hquestion hplan x hx)
  | stopped hplan happly | completed hplan happly =>
      rcases List.mem_append.mp hx with hx | hx
      · exact .inl (hquestion hplan x hx)
      · exact .inr (hchange hplan happly x hx)

/-- A reconciliation says nothing about any table but its own. -/
theorem Reconciliation.concerns_iff {s : Settings} {schema : Schema} {options : TableOptions}
    {other : String} {xs : List Exchange} {r : Except Error SchemaPlan}
    (h : Reconciliation s schema options xs r) {x : Exchange} (hx : x ∈ xs) :
    x.concerns other = true ↔ options.tableName = other := by
  have hquestion {sql : String} (h : inspectsTable options.tableName sql = true) :
      changesTable other sql = false := changesTable_of_inspectsTable h
  rw [Exchange.concerns, Bool.or_eq_true]
  rcases h.exists_exchange x hx with ⟨reply, rfl | rfl⟩ | ⟨c, reply, htable, rfl⟩
  · have hchanges := hquestion (inspectsTable_describe_iff.mpr rfl)
    exact (or_iff_left (Bool.eq_false_iff.mp hchanges)).trans inspectsTable_describe_iff
  · have hchanges := hquestion (inspectsTable_showIndex_iff.mpr rfl)
    exact (or_iff_left (Bool.eq_false_iff.mp hchanges)).trans inspectsTable_showIndex_iff
  · have hinspects := inspectsTable_change other c
    rw [← htable]
    exact (or_iff_right (Bool.eq_false_iff.mp hinspects)).trans changesTable_change_iff

/-- The statements without rows of a reconciliation change its table. -/
theorem Reconciliation.changesTable_of_exec {s : Settings} {schema : Schema}
    {options : TableOptions} {xs : List Exchange} {r : Except Error SchemaPlan} {sql : String}
    {reply : Except Error ExecResult} (h : Reconciliation s schema options xs r)
    (hx : .exec sql reply ∈ xs) : changesTable options.tableName sql = true := by
  rcases h.exists_exchange _ hx with ⟨reply', hquestion | hquestion⟩ | ⟨c, reply', htable, hchange⟩
  · cases hquestion
  · cases hquestion
  · cases hchange
    exact changesTable_change_iff.mpr htable

end TableMapper
