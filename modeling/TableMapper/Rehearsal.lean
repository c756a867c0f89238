import TableMapper.Facade
import TableMapper.KeepAlive

/-!
# Rehearsals

A facade can be rehearsed without a database: a script says what statements are
answered with, and a clock moves only when it is told to.

* `Script.executor` — results of statements are taken from a queue, queries are
  answered by how they begin;
* `Rehearsal.perform` — an operation of a facade;
* `Rehearsal.sleep` — time passes, and polls that fall due are sent.
-/

namespace TableMapper

/-- What statements are answered with. -/
structure Script where
  results : List (Except Error ExecResult) := []
  replies : List (String × Except Error (List Row)) := []

namespace Script

/-- The result of a statement without rows: the next one of the queue, or that
nothing was touched. -/
def exec (s : Script) (_ : String) : Except Error ExecResult × Script :=
  match s.results with
  | [] => (.ok {}, s)
  | r :: rs => (r, { s with results := rs })

/-- The reply to a query: the first one for a beginning of the query, or no
rows. -/
def query (s : Script) (sql : String) : Except Error (List Row) × Script :=
  match s.replies.find? fun (start, _) => Text.startsWith sql start with
  | some (_, reply) => (reply, s)
  | none => (.ok [], s)

/-- A script as what answers statements. -/
def executor : Executor Script :=
  ⟨exec, query⟩

end Script

/-- A poll task with its time: when it was created, or when it wakes. Once the
facade has turned to another script, the task keeps its own. -/
structure Polling where
  task : PollTask
  time : Nat
  script : Option Script := none

/-- A facade under rehearsal. -/
structure Rehearsal where
  settings : Settings := {}
  world : World Script := { state := {} }
  keepAlive : KeepAlive := {}
  polling : Option Polling := none
  now : Nat := 0

namespace Rehearsal

/-- A rehearsal with these settings. -/
def ofSettings (s : Settings) : Rehearsal :=
  { settings := s, world := { state := {}, autoCreate := s.autoCreate } }

/-- The script changed. -/
def edit (r : Rehearsal) (f : Script → Script) : Rehearsal :=
  { r with world := { r.world with state := f r.world.state } }

/-- An operation performed. -/
def perform {α : Type} (r : Rehearsal) (s : Session α) : Except Error α × Rehearsal :=
  let (result, world) := s.run Script.executor r.world
  (result, { r with world })

/-- A facade that shares everything with this one but has an empty script and has
sent nothing. -/
def withScript (r : Rehearsal) : Rehearsal :=
  { r with
    world := { r.world with state := {}, calls := [] }
    polling := r.polling.map fun p =>
      { p with script := some (p.script.getD r.world.state) } }

/-- What was sent is forgotten. -/
def clearCalls (r : Rehearsal) : Rehearsal :=
  { r with world := { r.world with calls := [] } }

/-- Tables brought in line before writes, or not. -/
def setAutoCreate (r : Rehearsal) (wanted : Bool) : Rehearsal :=
  { r with world := { r.world with autoCreate := wanted } }

/-- Polling asked for; whether a task was created. -/
def startPolling (r : Rehearsal) : Bool × Rehearsal :=
  let (fresh, keepAlive) := r.keepAlive.start
  (fresh,
    { r with
      keepAlive
      polling := if fresh then some { task := .created, time := r.now } else r.polling })

/-- No more polling asked for. -/
def stopPolling (r : Rehearsal) : Rehearsal :=
  { r with keepAlive := r.keepAlive.stop }

/-- The task gone to sleep at `time`, or gone. -/
def settle (r : Rehearsal) (p : Polling) (time : Nat) (next : PollTask × KeepAlive) :
    Rehearsal :=
  { r with
    keepAlive := next.2
    polling :=
      if next.1 = .sleeping then
        some { p with task := next.1, time := time + max 1 r.settings.pollInterval }
      else none }

/-- One poll by a task that wakes: its query sent to its script, and the reply
taken. -/
def poll (r : Rehearsal) (p : Polling) : Rehearsal :=
  let reply := ((p.script.getD r.world.state).query KeepAlive.query).1
  let asked : Rehearsal := if p.script.isSome then r
    else { r with world := { r.world with calls := r.world.calls ++ [.query KeepAlive.query] } }
  let succeeded := reply.toOption.isSome
  let failure := match reply with
    | .ok _ => []
    | .error e => [.pollFailed e]
  { asked with world := { asked.world with events := asked.world.events ++ failure } }.settle p
    p.time (p.task.wake.answered succeeded r.keepAlive)

/-- The steps of the task up to a time, at most `fuel` of them. -/
def runPolling : Nat → Nat → Rehearsal → Rehearsal
  | 0, _, r => r
  | fuel + 1, target, r =>
    match r.polling with
    | none => r
    | some p =>
      if p.task = .created then runPolling fuel target (r.settle p p.time (p.task.begin r.keepAlive))
      else if p.time ≤ target then runPolling fuel target (r.poll p)
      else r

/-- Time passes. A step of the task takes at least one unit of it, except the
first. -/
def sleep (r : Rehearsal) (time : Nat) : Rehearsal :=
  { runPolling (time + 2) (r.now + time) r with now := r.now + time }

end Rehearsal

end TableMapper
