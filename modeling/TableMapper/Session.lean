import TableMapper.Event
import TableMapper.Registry

/-!
# Sessions

A session is what a facade does for one call, step by step: it logs, sends
statements and goes on with the replies, and asks and tells which tables are
known to exist.  It is data, so that several sessions can also be run in turns:
between two statements no other session gets a turn.

* `Session.andThen`, and `do` notation — one session behind another;
* `Executor` — what answers statements;
* `Session.run` — a session run to its end, in a `World` that keeps what was
  sent and what was logged.
-/

namespace TableMapper

/-- What the database says about a statement without rows: how many rows it
touched, and the number the counting column was given, or zero. -/
structure ExecResult where
  affected : UInt64 := 0
  lastId : UInt64 := 0
  deriving DecidableEq, Repr

/-- What a call does, up to its result. -/
inductive Session (α : Type) : Type
  | done (result : Except Error α)
  | log (e : Event) (next : Session α)
  | exec (sql : String) (next : Except Error ExecResult → Session α)
  | query (sql : String) (next : Except Error (List Row) → Session α)
  /-- Whether tables are brought in line before writes. -/
  | autoCreate (next : Bool → Session α)
  | isCreated (table : String) (next : Bool → Session α)
  | markCreated (table : String) (next : Session α)

namespace Session

variable {α β : Type}

/-- A session that goes on with the result of another, be it an error. -/
def andThen : Session α → (Except Error α → Session β) → Session β
  | done result, k => k result
  | log e next, k => log e (next.andThen k)
  | exec sql next, k => exec sql fun r => (next r).andThen k
  | query sql next, k => query sql fun r => (next r).andThen k
  | autoCreate next, k => autoCreate fun b => (next b).andThen k
  | isCreated table next, k => isCreated table fun b => (next b).andThen k
  | markCreated table next, k => markCreated table (next.andThen k)

/-- A session that goes on where another one succeeded. -/
def bind (s : Session α) (k : α → Session β) : Session β :=
  s.andThen fun
    | .ok a => k a
    | .error e => done (.error e)

instance : Monad Session where
  pure a := done (.ok a)
  bind := bind

/-- Events logged in order. -/
def logAll : List Event → Session Unit
  | [] => pure ()
  | e :: es => log e (logAll es)

end Session

/-- A statement that was sent. -/
inductive Call
  | exec (sql : String)
  | query (sql : String)
  deriving DecidableEq, Repr

/-- What answers statements, with a state of its own. -/
structure Executor (σ : Type) where
  exec : σ → String → Except Error ExecResult × σ
  query : σ → String → Except Error (List Row) × σ

/-- What a session runs in: what answers its statements, what facades share, and
what has been sent and logged so far. -/
structure World (σ : Type) where
  state : σ
  autoCreate : Bool := false
  known : KnownTables := {}
  calls : List Call := []
  events : List Event := []

/-- A session run to its end. -/
def Session.run {α σ : Type} (x : Executor σ) : Session α → World σ → Except Error α × World σ
  | done result, w => (result, w)
  | log e next, w => next.run x { w with events := w.events ++ [e] }
  | exec sql next, w =>
    let (reply, state) := x.exec w.state sql
    (next reply).run x { w with state, calls := w.calls ++ [.exec sql] }
  | query sql next, w =>
    let (reply, state) := x.query w.state sql
    (next reply).run x { w with state, calls := w.calls ++ [.query sql] }
  | autoCreate next, w => (next w.autoCreate).run x w
  | isCreated table next, w => (next (w.known.contains table)).run x w
  | markCreated table next, w => next.run x { w with known := w.known.insert table }

end TableMapper
