import TableMapper.Session

/-!
# Conversations

What a session and the executor that answers it say to each other, and what the
session makes of the state that facades share.  A conversation is the list of the
statements with their replies; nothing is assumed about the replies, so a fact
about all conversations of a session is one about every executor.

* `Session.Converses` — the conversations that a session can have;
* `Session.converses_bind_iff` — the conversation of two sessions one behind the
  other;
* `Session.Converses.eq_of_prefix` — equal replies make equal conversations;
* `Session.converses_run` — what is said when a session is run.
-/

namespace TableMapper

/-- The text of a statement that was sent. -/
def Call.sql : Call → String
  | exec sql => sql
  | query sql => sql

/-- A statement that was sent, with the reply to it. -/
inductive Exchange
  | exec (sql : String) (reply : Except Error ExecResult)
  | query (sql : String) (reply : Except Error (List Row))

namespace Exchange

/-- The statement without the reply. -/
def call : Exchange → Call
  | exec sql _ => .exec sql
  | query sql _ => .query sql

/-- The error that is the reply, if it is one. -/
def error? : Exchange → Option Error
  | exec _ (.error e) => some e
  | query _ (.error e) => some e
  | _ => none

end Exchange

/-- What the facades of a family share. -/
structure Shared where
  autoCreate : Bool
  known : KnownTables

/-- What the facades in a world share. -/
def World.shared {σ : Type} (w : World σ) : Shared :=
  ⟨w.autoCreate, w.known⟩

namespace Session

variable {α β σ : Type}

/-- The conversations that a session can have: begun while facades share the one
state, it exchanges the list with an executor, gives the result, and leaves the
other state. -/
inductive Converses :
    Session α → Shared → List Exchange → Except Error α → Shared → Prop
  | done (r : Except Error α) (sh : Shared) : Converses (.done r) sh [] r sh
  | log {e : Event} {next : Session α} {sh sh' : Shared} {xs : List Exchange}
      {r : Except Error α} (h : Converses next sh xs r sh') :
      Converses (.log e next) sh xs r sh'
  | exec {sql : String} {next : Except Error ExecResult → Session α} {sh sh' : Shared}
      {reply : Except Error ExecResult} {xs : List Exchange} {r : Except Error α}
      (h : Converses (next reply) sh xs r sh') :
      Converses (.exec sql next) sh (.exec sql reply :: xs) r sh'
  | query {sql : String} {next : Except Error (List Row) → Session α} {sh sh' : Shared}
      {reply : Except Error (List Row)} {xs : List Exchange} {r : Except Error α}
      (h : Converses (next reply) sh xs r sh') :
      Converses (.query sql next) sh (.query sql reply :: xs) r sh'
  | autoCreate {next : Bool → Session α} {sh sh' : Shared} {xs : List Exchange}
      {r : Except Error α} (h : Converses (next sh.autoCreate) sh xs r sh') :
      Converses (.autoCreate next) sh xs r sh'
  | isCreated {table : String} {next : Bool → Session α} {sh sh' : Shared}
      {xs : List Exchange} {r : Except Error α}
      (h : Converses (next (sh.known.contains table)) sh xs r sh') :
      Converses (.isCreated table next) sh xs r sh'
  | markCreated {table : String} {next : Session α} {sh sh' : Shared} {xs : List Exchange}
      {r : Except Error α}
      (h : Converses next { sh with known := sh.known.insert table } xs r sh') :
      Converses (.markCreated table next) sh xs r sh'

section Steps

variable {sh sh' : Shared} {xs : List Exchange} {r : Except Error α}

/-- A session that is done says nothing more. -/
@[simp] theorem converses_done_iff {r' : Except Error α} :
    (done r').Converses sh xs r sh' ↔ xs = [] ∧ r = r' ∧ sh' = sh := by
  constructor
  · intro h
    cases h
    exact ⟨rfl, rfl, rfl⟩
  · rintro ⟨rfl, rfl, rfl⟩
    exact .done r sh'

@[simp] theorem converses_pure_iff {a : α} :
    (pure a : Session α).Converses sh xs r sh' ↔ xs = [] ∧ r = .ok a ∧ sh' = sh :=
  converses_done_iff

/-- What is logged is not said to the database. -/
@[simp] theorem converses_log_iff {e : Event} {next : Session α} :
    (log e next).Converses sh xs r sh' ↔ next.Converses sh xs r sh' := by
  constructor
  · intro h
    cases h
    assumption
  · exact .log

/-- A statement is answered, and the reply decides how it goes on. -/
theorem converses_exec_iff {sql : String} {next : Except Error ExecResult → Session α} :
    (exec sql next).Converses sh xs r sh' ↔
      ∃ reply rest, xs = .exec sql reply :: rest ∧ (next reply).Converses sh rest r sh' := by
  constructor
  · intro h
    cases h with
    | exec h => exact ⟨_, _, rfl, h⟩
  · rintro ⟨reply, rest, rfl, h⟩
    exact .exec h

/-- A question is answered, and the reply decides how it goes on. -/
theorem converses_query_iff {sql : String} {next : Except Error (List Row) → Session α} :
    (query sql next).Converses sh xs r sh' ↔
      ∃ reply rest, xs = .query sql reply :: rest ∧ (next reply).Converses sh rest r sh' := by
  constructor
  · intro h
    cases h with
    | query h => exact ⟨_, _, rfl, h⟩
  · rintro ⟨reply, rest, rfl, h⟩
    exact .query h

/-- Asking about the setting sends nothing. -/
@[simp] theorem converses_autoCreate_iff {next : Bool → Session α} :
    (autoCreate next).Converses sh xs r sh' ↔
      (next sh.autoCreate).Converses sh xs r sh' := by
  constructor
  · intro h
    cases h
    assumption
  · exact .autoCreate

/-- Asking about a mark sends nothing. -/
@[simp] theorem converses_isCreated_iff {table : String} {next : Bool → Session α} :
    (isCreated table next).Converses sh xs r sh' ↔
      (next (sh.known.contains table)).Converses sh xs r sh' := by
  constructor
  · intro h
    cases h
    assumption
  · exact .isCreated

/-- Marking a table sends nothing and is seen from then on. -/
@[simp] theorem converses_markCreated_iff {table : String} {next : Session α} :
    (markCreated table next).Converses sh xs r sh' ↔
      next.Converses { sh with known := sh.known.insert table } xs r sh' := by
  constructor
  · intro h
    cases h
    assumption
  · exact .markCreated

end Steps

/-- The conversation of a session that goes on with the result of another: what
the first one says, and then what the second one says. -/
theorem converses_andThen_iff {s : Session α} {k : Except Error α → Session β}
    {sh sh' : Shared} {zs : List Exchange} {r : Except Error β} :
    (s.andThen k).Converses sh zs r sh' ↔
      ∃ xs a middle ys, s.Converses sh xs a middle ∧ (k a).Converses middle ys r sh' ∧
        zs = xs ++ ys := by
  induction s generalizing sh zs with
  | done a =>
      simp only [andThen, converses_done_iff]
      constructor
      · intro h
        exact ⟨[], a, sh, zs, ⟨rfl, rfl, rfl⟩, h, rfl⟩
      · rintro ⟨_, _, _, ys, ⟨rfl, rfl, rfl⟩, h, rfl⟩
        exact h
  | log e next ih => simp only [andThen, converses_log_iff, ih]
  | exec sql next ih =>
      simp only [andThen, converses_exec_iff, ih]
      constructor
      · rintro ⟨reply, _, rfl, xs, a, middle, ys, hfirst, hsecond, rfl⟩
        exact ⟨.exec sql reply :: xs, a, middle, ys, ⟨reply, xs, rfl, hfirst⟩, hsecond, rfl⟩
      · rintro ⟨_, a, middle, ys, ⟨reply, xs, rfl, hfirst⟩, hsecond, rfl⟩
        exact ⟨reply, xs ++ ys, rfl, xs, a, middle, ys, hfirst, hsecond, rfl⟩
  | query sql next ih =>
      simp only [andThen, converses_query_iff, ih]
      constructor
      · rintro ⟨reply, _, rfl, xs, a, middle, ys, hfirst, hsecond, rfl⟩
        exact ⟨.query sql reply :: xs, a, middle, ys, ⟨reply, xs, rfl, hfirst⟩, hsecond, rfl⟩
      · rintro ⟨_, a, middle, ys, ⟨reply, xs, rfl, hfirst⟩, hsecond, rfl⟩
        exact ⟨reply, xs ++ ys, rfl, xs, a, middle, ys, hfirst, hsecond, rfl⟩
  | autoCreate next ih => simp only [andThen, converses_autoCreate_iff, ih]
  | isCreated table next ih => simp only [andThen, converses_isCreated_iff, ih]
  | markCreated table next ih => simp only [andThen, converses_markCreated_iff, ih]

/-- The conversation of two steps: both, or the first one if that fails. -/
theorem converses_bind_iff {s : Session α} {k : α → Session β} {sh sh' : Shared}
    {zs : List Exchange} {r : Except Error β} :
    (s >>= k).Converses sh zs r sh' ↔
      (∃ e, s.Converses sh zs (.error e) sh' ∧ r = .error e) ∨
        ∃ xs a middle ys, s.Converses sh xs (.ok a) middle ∧
          (k a).Converses middle ys r sh' ∧ zs = xs ++ ys := by
  refine converses_andThen_iff.trans ?_
  constructor
  · rintro ⟨xs, a, middle, ys, hfirst, hsecond, rfl⟩
    cases a with
    | error e =>
        obtain ⟨rfl, rfl, rfl⟩ := converses_done_iff.mp hsecond
        rw [List.append_nil]
        exact .inl ⟨e, hfirst, rfl⟩
    | ok a => exact .inr ⟨xs, a, middle, ys, hfirst, hsecond, rfl⟩
  · rintro (⟨e, hfirst, rfl⟩ | ⟨xs, a, middle, ys, hfirst, hsecond, rfl⟩)
    · exact ⟨zs, .error e, sh', [], hfirst, .done _ _, (List.append_nil zs).symm⟩
    · exact ⟨xs, .ok a, middle, ys, hfirst, hsecond, rfl⟩

/-- The conversation of a session whose result is taken further without anything
being said. -/
theorem converses_bind_done_iff {s : Session α} {k : α → Except Error β} {sh sh' : Shared}
    {xs : List Exchange} {r : Except Error β} :
    (s >>= fun a => done (k a)).Converses sh xs r sh' ↔
      ∃ r', s.Converses sh xs r' sh' ∧ r = (r' >>= k) := by
  rw [converses_bind_iff]
  constructor
  · rintro (⟨e, h, rfl⟩ | ⟨_, a, _, _, h, hdone, rfl⟩)
    · exact ⟨.error e, h, rfl⟩
    · obtain ⟨rfl, rfl, rfl⟩ := converses_done_iff.mp hdone
      rw [List.append_nil]
      exact ⟨.ok a, h, rfl⟩
  · rintro ⟨r', h, rfl⟩
    cases r' with
    | error e => exact .inl ⟨e, h, rfl⟩
    | ok a => exact .inr ⟨xs, a, sh', [], h, .done _ _, (List.append_nil xs).symm⟩

/-- A session with events logged in front of it. -/
def logged (es : List Event) (s : Session α) : Session α :=
  es.foldr log s

/-- Logging in front of a session is logging what it goes on with. -/
theorem logAll_bind (es : List Event) (k : Unit → Session α) :
    (logAll es >>= k) = logged es (k ()) := by
  induction es with
  | nil => rfl
  | cons e es ih => exact congrArg (log e) ih

/-- What is logged first stays in front of what follows. -/
theorem logged_bind (es : List Event) (s : Session α) (k : α → Session β) :
    (logged es s >>= k) = logged es (s >>= k) := by
  induction es with
  | nil => rfl
  | cons e es ih => exact congrArg (log e) ih

/-- What is logged in two goes is logged in one. -/
theorem logged_logged (es es' : List Event) (s : Session α) :
    logged es (logged es' s) = logged (es ++ es') s :=
  List.foldr_append.symm

/-- Logging in front changes nothing of what is said. -/
@[simp] theorem converses_logged_iff {es : List Event} {s : Session α} {sh sh' : Shared}
    {xs : List Exchange} {r : Except Error α} :
    (logged es s).Converses sh xs r sh' ↔ s.Converses sh xs r sh' := by
  induction es with
  | nil => exact Iff.rfl
  | cons e es ih => exact converses_log_iff.trans ih

/-- A session that hears the same replies says the same: if one conversation is
the beginning of another one with more behind it, nothing is missing from it. -/
theorem Converses.eq_of_prefix {s : Session α} {sh sh₁ sh₂ : Shared} {xs ys zs : List Exchange}
    {r₁ r₂ : Except Error α} (h₁ : s.Converses sh xs r₁ sh₁) (h₂ : s.Converses sh ys r₂ sh₂)
    (hbegins : xs <+: ys ++ zs) : xs = ys ∧ r₁ = r₂ ∧ sh₁ = sh₂ := by
  induction h₁ generalizing ys with
  | done r sh =>
      obtain ⟨rfl, rfl, rfl⟩ := converses_done_iff.mp h₂
      exact ⟨rfl, rfl, rfl⟩
  | log h ih => exact ih (converses_log_iff.mp h₂) hbegins
  | exec h ih =>
      obtain ⟨reply, rest, rfl, hrest⟩ := converses_exec_iff.mp h₂
      rw [List.cons_append, List.cons_prefix_cons] at hbegins
      obtain ⟨heq, hbegins⟩ := hbegins
      cases heq
      obtain ⟨rfl, hresult⟩ := ih hrest hbegins
      exact ⟨rfl, hresult⟩
  | query h ih =>
      obtain ⟨reply, rest, rfl, hrest⟩ := converses_query_iff.mp h₂
      rw [List.cons_append, List.cons_prefix_cons] at hbegins
      obtain ⟨heq, hbegins⟩ := hbegins
      cases heq
      obtain ⟨rfl, hresult⟩ := ih hrest hbegins
      exact ⟨rfl, hresult⟩
  | autoCreate h ih => exact ih (converses_autoCreate_iff.mp h₂) hbegins
  | isCreated h ih => exact ih (converses_isCreated_iff.mp h₂) hbegins
  | markCreated h ih => exact ih (converses_markCreated_iff.mp h₂) hbegins

/-- What a session that is run exchanges with the executor. -/
def exchanges (x : Executor σ) : Session α → World σ → List Exchange
  | done _, _ => []
  | log e next, w => next.exchanges x { w with events := w.events ++ [e] }
  | exec sql next, w =>
    let (reply, state) := x.exec w.state sql
    .exec sql reply ::
      (next reply).exchanges x { w with state, calls := w.calls ++ [.exec sql] }
  | query sql next, w =>
    let (reply, state) := x.query w.state sql
    .query sql reply ::
      (next reply).exchanges x { w with state, calls := w.calls ++ [.query sql] }
  | autoCreate next, w => (next w.autoCreate).exchanges x w
  | isCreated table next, w => (next (w.known.contains table)).exchanges x w
  | markCreated table next, w => next.exchanges x { w with known := w.known.insert table }

/-- What is exchanged in a run is a conversation. -/
theorem converses_run (x : Executor σ) (s : Session α) (w : World σ) :
    s.Converses w.shared (s.exchanges x w) (s.run x w).1 (s.run x w).2.shared := by
  induction s generalizing w with
  | done r => exact .done r w.shared
  | log e next ih => exact .log (ih { w with events := w.events ++ [e] })
  | exec sql next ih =>
      exact .exec (ih (x.exec w.state sql).1
        { w with state := (x.exec w.state sql).2, calls := w.calls ++ [.exec sql] })
  | query sql next ih =>
      exact .query (ih (x.query w.state sql).1
        { w with state := (x.query w.state sql).2, calls := w.calls ++ [.query sql] })
  | autoCreate next ih => exact .autoCreate (ih w.autoCreate w)
  | isCreated table next ih => exact .isCreated (ih (w.known.contains table) w)
  | markCreated table next ih => exact .markCreated (ih { w with known := w.known.insert table })

/-- The statements of a conversation are those that the world keeps. -/
theorem calls_run (x : Executor σ) (s : Session α) (w : World σ) :
    (s.run x w).2.calls = w.calls ++ (s.exchanges x w).map Exchange.call := by
  induction s generalizing w with
  | done r => exact (List.append_nil _).symm
  | log e next ih => exact ih _
  | exec sql next ih =>
      refine (ih _ _).trans ?_
      rw [List.append_assoc]
      rfl
  | query sql next ih =>
      refine (ih _ _).trans ?_
      rw [List.append_assoc]
      rfl
  | autoCreate next ih => exact ih _ w
  | isCreated table next ih => exact ih _ w
  | markCreated table next ih => exact ih _

/-- The errors in a conversation are the executor's own. -/
theorem error_of_mem_exchanges {x : Executor σ} {P : Error → Prop}
    (hexec : ∀ state sql e, (x.exec state sql).1 = .error e → P e)
    (hquery : ∀ state sql e, (x.query state sql).1 = .error e → P e) (s : Session α)
    (w : World σ) : ∀ exchange ∈ s.exchanges x w, ∀ e ∈ exchange.error?, P e := by
  induction s generalizing w with
  | done r =>
      intro exchange h
      exact absurd h List.not_mem_nil
  | log e next ih => exact ih _
  | exec sql next ih =>
      refine List.forall_mem_cons.mpr ⟨?_, ih _ _⟩
      intro e he
      cases hreply : (x.exec w.state sql).1 with
      | ok r =>
          rw [hreply] at he
          cases he
      | error e' =>
          rw [hreply] at he
          cases he
          exact hexec w.state sql e hreply
  | query sql next ih =>
      refine List.forall_mem_cons.mpr ⟨?_, ih _ _⟩
      intro e he
      cases hreply : (x.query w.state sql).1 with
      | ok r =>
          rw [hreply] at he
          cases he
      | error e' =>
          rw [hreply] at he
          cases he
          exact hquery w.state sql e hreply
  | autoCreate next ih => exact ih _ w
  | isCreated table next ih => exact ih _ w
  | markCreated table next ih => exact ih _

end Session

end TableMapper
