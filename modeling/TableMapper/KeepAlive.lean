/-!
# Keeping a connection alive

A poll task sends a query from time to time, so that the database does not close
an idle connection.  Facades start and stop it through two flags that they share
with it.

* `KeepAlive.start`, `KeepAlive.stop` — what a facade does;
* `PollTask.begin`, `PollTask.wake`, `PollTask.answered` — the steps of the task.
-/

namespace TableMapper

/-- The flags: whether polling is asked for, and whether there is a task. -/
structure KeepAlive where
  wanted : Bool := false
  running : Bool := false
  deriving DecidableEq, Repr

/-- What a poll sends. -/
def KeepAlive.query : String :=
  "SHOW TABLES"

/-- Where a poll task is: not begun, between two polls, waiting for the reply to
one, or at its end. -/
inductive PollTask
  | created
  | sleeping
  | asking
  | ended
  deriving DecidableEq, Repr

namespace KeepAlive

/-- Ask for polling. The answer is whether a new task has to begin, which is so
unless there is one. -/
def start (k : KeepAlive) : Bool × KeepAlive :=
  (!k.running, ⟨true, true⟩)

/-- Ask for no more polling. -/
def stop (k : KeepAlive) : KeepAlive :=
  { k with wanted := false }

end KeepAlive

namespace PollTask

/-- The task looks whether polling is asked for, and sleeps or ends. -/
def check (k : KeepAlive) : PollTask × KeepAlive :=
  if k.wanted then (sleeping, k) else (ended, { k with running := false })

/-- The first step of a task. -/
def begin (k : KeepAlive) : PollTask → PollTask × KeepAlive
  | created => check k
  | task => (task, k)

/-- The time between two polls is over: the task sends its query. -/
def wake : PollTask → PollTask
  | sleeping => asking
  | task => task

/-- The reply to a poll is there. A task ends at the first failure. -/
def answered (succeeded : Bool) (k : KeepAlive) : PollTask → PollTask × KeepAlive
  | asking => if succeeded then check k else (ended, { k with running := false })
  | task => (task, k)

end PollTask

end TableMapper
