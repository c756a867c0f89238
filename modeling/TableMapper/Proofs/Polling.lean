import Mathlib.Data.List.Basic
import TableMapper.KeepAlive

/-!
# Polling over time

Facades of a family start and stop polling, and poll tasks begin, wake and hear
replies, in any order.  A stop is only a flag that a task looks at between two
polls, so a task may be alive when nobody wants it any more, and be wanted again
before it has looked.

* `PollEvent` — what can happen; `Polls.step`, `Polls.signs` — what it changes, and
  what is seen of it;
* `Polls.Step` — everything that a step can do;
* `Polls.Sound` — while the flag says so one task is alive, and otherwise none;
* `Polls.asked_le_due` — once nobody wants polls, the tasks asleep may each send one more;
* `polling_history` — what this means for all that can happen.
-/

namespace TableMapper

/-- What can happen where facades poll: one of them starts or stops polling, or a task,
told by its number, takes its first step, wakes, or hears the reply to its poll. -/
inductive PollEvent
  | start
  | stop
  | begin (task : Nat)
  | wake (task : Nat)
  | reply (task : Nat) (succeeded : Bool)
  deriving DecidableEq, Repr

/-- What is seen of an event: whether a start gave a handle, a poll that was sent, a poll
that failed. -/
inductive PollSign
  | started (handle : Bool)
  | asked (task : Nat)
  | failed (task : Nat)
  deriving DecidableEq, Repr

/-- Whether a poll was sent. -/
def PollSign.isAsked : PollSign → Bool
  | asked _ => true
  | _ => false

/-- The flags of a family of facades, and its tasks in the order in which they were
created. -/
structure Polls where
  flags : KeepAlive := {}
  tasks : List PollTask := []
  deriving DecidableEq, Repr

namespace Polls

/-- One task goes on, if there is such a task. -/
def advance (p : Polls) (i : Nat) (f : PollTask → PollTask × KeepAlive) : Polls :=
  match p.tasks[i]? with
  | some task => ⟨(f task).2, p.tasks.set i (f task).1⟩
  | none => p

/-- What an event changes. A task that is elsewhere does not heed it. -/
def step (p : Polls) : PollEvent → Polls
  | .start =>
    let (fresh, flags) := p.flags.start
    ⟨flags, if fresh then p.tasks ++ [.created] else p.tasks⟩
  | .stop => { p with flags := p.flags.stop }
  | .begin i => p.advance i (PollTask.begin p.flags)
  | .wake i => p.advance i fun task => (task.wake, p.flags)
  | .reply i succeeded => p.advance i (PollTask.answered succeeded p.flags)

/-- What is seen of an event. -/
def signs (p : Polls) : PollEvent → List PollSign
  | .start => [.started p.flags.start.1]
  | .wake i => if p.tasks[i]? = some .sleeping then [.asked i] else []
  | .reply i false => if p.tasks[i]? = some .asking then [.failed i] else []
  | _ => []

/-- What there is after events. -/
def after (p : Polls) (events : List PollEvent) : Polls :=
  events.foldl step p

/-- What is seen of events. -/
def history (p : Polls) : List PollEvent → List PollSign
  | [] => []
  | e :: es => p.signs e ++ (p.step e).history es

/-- The number of tasks that have not ended. -/
def alive (p : Polls) : Nat :=
  p.tasks.countP (· ≠ .ended)

/-- Everything that a step can do. -/
inductive Step : Polls → PollEvent → Polls → List PollSign → Prop
  /-- No task was alive, so there is a new one. -/
  | created {wanted : Bool} {tasks : List PollTask} :
      Step ⟨⟨wanted, false⟩, tasks⟩ .start ⟨⟨true, true⟩, tasks ++ [.created]⟩ [.started true]
  /-- The task that is alive is wanted, or wanted again. -/
  | joined {wanted : Bool} {tasks : List PollTask} :
      Step ⟨⟨wanted, true⟩, tasks⟩ .start ⟨⟨true, true⟩, tasks⟩ [.started false]
  | stopped {flags : KeepAlive} {tasks : List PollTask} :
      Step ⟨flags, tasks⟩ .stop ⟨{ flags with wanted := false }, tasks⟩ []
  | idle {p : Polls} {e : PollEvent} : Step p e p []
  /-- A task finds that polls are wanted. -/
  | settled {flags : KeepAlive} {tasks : List PollTask} {e : PollEvent} {i : Nat}
      {task : PollTask} (htask : tasks[i]? = some task)
      (hlooks : task = .created ∨ task = .asking) (hwanted : flags.wanted = true) :
      Step ⟨flags, tasks⟩ e ⟨flags, tasks.set i .sleeping⟩ []
  /-- A task finds that no polls are wanted. -/
  | ended {flags : KeepAlive} {tasks : List PollTask} {e : PollEvent} {i : Nat}
      {task : PollTask} (htask : tasks[i]? = some task)
      (hlooks : task = .created ∨ task = .asking) (hunwanted : flags.wanted = false) :
      Step ⟨flags, tasks⟩ e ⟨{ flags with running := false }, tasks.set i .ended⟩ []
  | asked {flags : KeepAlive} {tasks : List PollTask} {i : Nat}
      (htask : tasks[i]? = some .sleeping) :
      Step ⟨flags, tasks⟩ (.wake i) ⟨flags, tasks.set i .asking⟩ [.asked i]
  | failed {flags : KeepAlive} {tasks : List PollTask} {i : Nat}
      (htask : tasks[i]? = some .asking) :
      Step ⟨flags, tasks⟩ (.reply i false) ⟨{ flags with running := false }, tasks.set i .ended⟩
        [.failed i]

variable {p p' : Polls} {e : PollEvent} {signs : List PollSign}

/-- What a step of a known task does to the flags and to the list of tasks. -/
theorem advance_eq {i : Nat} {task : PollTask} (f : PollTask → PollTask × KeepAlive)
    (htask : p.tasks[i]? = some task) :
    p.advance i f = ⟨(f task).2, p.tasks.set i (f task).1⟩ := by
  rw [advance, htask]

/-- A task that does not move changes nothing. -/
theorem advance_of_stays {i : Nat} {f : PollTask → PollTask × KeepAlive}
    (h : ∀ task, p.tasks[i]? = some task → f task = (task, p.flags)) : p.advance i f = p := by
  cases htask : p.tasks[i]? with
  | none => rw [advance, htask]
  | some task =>
      obtain ⟨hi, hget⟩ := List.getElem?_eq_some_iff.mp htask
      rw [advance_eq f htask, h task htask, ← hget, List.set_getElem_self]

/-- A task that looks at the flags sleeps or ends. -/
theorem step_of_looks {i : Nat} {task : PollTask} {f : PollTask → PollTask × KeepAlive}
    (htask : p.tasks[i]? = some task) (hlooks : task = .created ∨ task = .asking)
    (hf : f task = PollTask.check p.flags) : p.Step e (p.advance i f) [] := by
  rw [advance_eq f htask, hf, PollTask.check]
  by_cases hwanted : p.flags.wanted = true
  · rw [if_pos hwanted]
    exact .settled htask hlooks hwanted
  · rw [if_neg hwanted]
    exact .ended htask hlooks (Bool.eq_false_iff.mpr hwanted)

/-- No step does anything else. -/
theorem step_spec (p : Polls) (e : PollEvent) : p.Step e (p.step e) (p.signs e) := by
  cases e with
  | start =>
      obtain ⟨⟨wanted, running⟩, tasks⟩ := p
      cases running with
      | false => exact .created
      | true => exact .joined
  | stop => exact .stopped
  | begin i =>
      by_cases htask : p.tasks[i]? = some .created
      · exact step_of_looks htask (.inl rfl) rfl
      · have hstays : p.step (.begin i) = p := by
          refine advance_of_stays fun task h => ?_
          cases task with
          | created => exact absurd h htask
          | sleeping | asking | ended => rfl
        rw [hstays]
        exact .idle
  | wake i =>
      by_cases htask : p.tasks[i]? = some .sleeping
      · have hsigns : p.signs (.wake i) = [.asked i] := if_pos htask
        have hstep : p.step (.wake i) = ⟨p.flags, p.tasks.set i .asking⟩ := advance_eq _ htask
        rw [hsigns, hstep]
        exact .asked htask
      · have hsigns : p.signs (.wake i) = [] := if_neg htask
        have hstays : p.step (.wake i) = p := by
          refine advance_of_stays fun task h => ?_
          cases task with
          | sleeping => exact absurd h htask
          | created | asking | ended => rfl
        rw [hsigns, hstays]
        exact .idle
  | reply i succeeded =>
      by_cases htask : p.tasks[i]? = some .asking
      · cases succeeded with
        | true => exact step_of_looks htask (.inr rfl) rfl
        | false =>
            have hsigns : p.signs (.reply i false) = [.failed i] := if_pos htask
            have hstep : p.step (.reply i false) =
                ⟨{ p.flags with running := false }, p.tasks.set i .ended⟩ := advance_eq _ htask
            rw [hsigns, hstep]
            exact .failed htask
      · have hsigns : p.signs (.reply i succeeded) = [] := by
          cases succeeded with
          | true => rfl
          | false => exact if_neg htask
        have hstays : p.step (.reply i succeeded) = p := by
          refine advance_of_stays fun task h => ?_
          cases task with
          | asking => exact absurd h htask
          | created | sleeping | ended => rfl
        rw [hsigns, hstays]
        exact .idle

/-- One member of a list replaced, how many there are of a kind. -/
theorem countP_set_add {α : Type} {P : α → Bool} {l : List α} {i : Nat} {a b : α}
    (h : l[i]? = some a) :
    (l.set i b).countP P + (if P a then 1 else 0) = l.countP P + (if P b then 1 else 0) := by
  induction l generalizing i with
  | nil => simp at h
  | cons c l ih =>
      cases i with
      | zero =>
          obtain rfl : c = a := by simpa using h
          simp only [List.set_cons_zero, List.countP_cons]
          omega
      | succ i =>
          have hrest := ih (i := i) (by simpa using h)
          simp only [List.set_cons_succ, List.countP_cons]
          omega

/-- While the flag says that there is a task, one is alive, and otherwise none. -/
def Sound (p : Polls) : Prop :=
  p.alive = if p.flags.running then 1 else 0

/-- A task that looks at the flags has not ended. -/
theorem ne_ended_of_looks {task : PollTask} (h : task = .created ∨ task = .asking) :
    task ≠ .ended := by
  rcases h with rfl | rfl
  · decide
  · decide

/-- A task that moves on stays alive. -/
theorem alive_set_of_ne {flags flags' : KeepAlive} {tasks : List PollTask} {i : Nat}
    {task task' : PollTask} (htask : tasks[i]? = some task) (halive : task ≠ .ended)
    (halive' : task' ≠ .ended) :
    (⟨flags', tasks.set i task'⟩ : Polls).alive = (⟨flags, tasks⟩ : Polls).alive := by
  have hcount := countP_set_add (P := (· ≠ PollTask.ended)) (b := task') htask
  simpa [alive, halive, halive'] using hcount

/-- A task that ends was one of those alive. -/
theorem alive_set_ended (flags flags' : KeepAlive) {tasks : List PollTask} {i : Nat}
    {task : PollTask} (htask : tasks[i]? = some task) (halive : task ≠ .ended) :
    (⟨flags', tasks.set i .ended⟩ : Polls).alive + 1 = (⟨flags, tasks⟩ : Polls).alive := by
  have hcount := countP_set_add (P := (· ≠ PollTask.ended)) (b := .ended) htask
  simpa [alive, halive] using hcount

/-- When the last task ends and says so, the flag is right again. -/
theorem Sound.ended {flags : KeepAlive} {tasks : List PollTask} {i : Nat} {task : PollTask}
    (h : Sound ⟨flags, tasks⟩) (htask : tasks[i]? = some task) (halive : task ≠ .ended) :
    Sound ⟨{ flags with running := false }, tasks.set i .ended⟩ := by
  have hless := alive_set_ended flags { flags with running := false } htask halive
  have hone : (⟨flags, tasks⟩ : Polls).alive ≤ 1 := by
    rw [h]
    split <;> omega
  have hnone : (⟨{ flags with running := false }, tasks.set i .ended⟩ : Polls).alive = 0 := by
    omega
  exact hnone

/-- A step keeps the flag right. -/
theorem Step.sound (h : p.Step e p' signs) (hp : p.Sound) : p'.Sound := by
  cases h with
  | @created wanted tasks =>
      have hnone : tasks.countP (· ≠ .ended) = 0 := hp
      have hone : (tasks ++ [PollTask.created]).countP (· ≠ .ended) = 1 := by
        rw [List.countP_append, hnone]
        rfl
      exact hone
  | joined => exact hp
  | stopped => exact hp
  | idle => exact hp
  | settled htask hlooks _ =>
      exact (alive_set_of_ne htask (ne_ended_of_looks hlooks) (by decide)).trans hp
  | ended htask hlooks _ => exact hp.ended htask (ne_ended_of_looks hlooks)
  | asked htask => exact (alive_set_of_ne htask (by decide) (by decide)).trans hp
  | failed htask => exact hp.ended htask (by decide)

/-- The state behind two runs of events one after the other. -/
theorem after_append (p : Polls) (before behind : List PollEvent) :
    p.after (before ++ behind) = (p.after before).after behind :=
  List.foldl_append ..

/-- A run keeps the flag right. -/
theorem Sound.after (hp : p.Sound) (events : List PollEvent) : (p.after events).Sound := by
  induction events generalizing p with
  | nil => exact hp
  | cons e events ih => exact ih ((p.step_spec e).sound hp)

/-- At most one task is alive in a sound state. -/
theorem Sound.alive_le_one (h : p.Sound) : p.alive ≤ 1 := by
  rw [h]
  split <;> omega

/-- In a sound state the running flag says whether a task is alive. -/
theorem Sound.running_iff (h : p.Sound) : p.flags.running = true ↔ p.alive = 1 := by
  rw [h]
  cases p.flags.running with
  | false => decide
  | true => decide

/-- A start is heeded exactly when no task is alive. -/
theorem Sound.start (h : p.Sound) : p.signs .start = [.started (p.alive = 0)] ∧
    (p.step .start).tasks = if p.alive = 0 then p.tasks ++ [.created] else p.tasks := by
  rw [h]
  obtain ⟨⟨wanted, running⟩, tasks⟩ := p
  cases running with
  | false => exact ⟨rfl, rfl⟩
  | true => exact ⟨rfl, rfl⟩

/-- The tasks that sleep: each may send a poll before it looks at the flags again. -/
def due (p : Polls) : Nat :=
  p.tasks.countP (· = .sleeping)

/-- A task that is due to ask is alive. -/
theorem due_le_alive (p : Polls) : p.due ≤ p.alive := by
  refine List.countP_mono_left fun task _ h => ?_
  have hsleeping : task = .sleeping := of_decide_eq_true h
  subst hsleeping
  rfl

/-- A task that does not sleep is not due. -/
theorem due_set_of_ne (flags flags' : KeepAlive) {tasks : List PollTask} {i : Nat}
    {task : PollTask} (htask : tasks[i]? = some task) (hawake : task ≠ .sleeping)
    {task' : PollTask} (hawake' : task' ≠ .sleeping) :
    (⟨flags', tasks.set i task'⟩ : Polls).due = (⟨flags, tasks⟩ : Polls).due := by
  have hcount := countP_set_add (P := (· = PollTask.sleeping)) (b := task') htask
  simpa [due, hawake, hawake'] using hcount

/-- A task that sends its poll was one of those due. -/
theorem due_set_asking (flags flags' : KeepAlive) {tasks : List PollTask} {i : Nat}
    (htask : tasks[i]? = some .sleeping) :
    (⟨flags', tasks.set i .asking⟩ : Polls).due + 1 = (⟨flags, tasks⟩ : Polls).due := by
  have hcount := countP_set_add (P := (· = PollTask.sleeping)) (b := .asking) htask
  simpa [due] using hcount

/-- A task that looks at the flags does not sleep. -/
theorem ne_sleeping_of_looks {task : PollTask} (h : task = .created ∨ task = .asking) :
    task ≠ .sleeping := by
  rcases h with rfl | rfl
  · decide
  · decide

/-- While nobody wants polls, no task goes to sleep again. -/
theorem Step.asked_le_due (h : p.Step e p' signs) (hp : p.flags.wanted = false)
    (he : e ≠ .start) :
    p'.flags.wanted = false ∧ signs.countP PollSign.isAsked + p'.due ≤ p.due := by
  cases h with
  | created => exact absurd rfl he
  | joined => exact absurd rfl he
  | stopped => exact ⟨rfl, Nat.le_of_eq (Nat.zero_add _)⟩
  | idle => exact ⟨hp, Nat.le_of_eq (Nat.zero_add _)⟩
  | settled _ _ hwanted =>
      rw [hwanted] at hp
      cases hp
  | @ended flags tasks _ i task htask hlooks _ =>
      have hdue := due_set_of_ne flags { flags with running := false } htask
        (ne_sleeping_of_looks hlooks) (by decide : PollTask.ended ≠ .sleeping)
      exact ⟨hp, Nat.le_of_eq ((Nat.zero_add _).trans hdue)⟩
  | @asked flags tasks i htask =>
      have hdue := due_set_asking flags flags htask
      exact ⟨hp, Nat.le_of_eq ((Nat.add_comm 1 _).trans hdue)⟩
  | @failed flags tasks i htask =>
      have hdue := due_set_of_ne flags { flags with running := false } htask (by decide)
        (by decide : PollTask.ended ≠ .sleeping)
      exact ⟨hp, Nat.le_of_eq ((Nat.zero_add _).trans hdue)⟩

/-- Once nobody wants polls, only the tasks that sleep send one more. -/
theorem asked_le_due {events : List PollEvent} (hp : p.flags.wanted = false)
    (hevents : .start ∉ events) :
    (p.history events).countP PollSign.isAsked ≤ p.due := by
  induction events generalizing p with
  | nil => exact Nat.zero_le _
  | cons e events ih =>
      have he : e ≠ .start := (List.ne_of_not_mem_cons hevents).symm
      obtain ⟨hwanted, hstep⟩ := (p.step_spec e).asked_le_due hp he
      have hrest := ih hwanted (List.not_mem_of_not_mem_cons hevents)
      rw [history, List.countP_append]
      omega

/-- A task that has ended is another one than a task that moves, and is not touched. -/
theorem set_keeps_ended {tasks : List PollTask} {i k : Nat} {task task' : PollTask}
    (hi : tasks[i]? = some .ended) (htask : tasks[k]? = some task) (halive : task ≠ .ended) :
    (tasks.set k task')[i]? = some .ended ∧ i ≠ k := by
  have hne : k ≠ i := by
    intro heq
    rw [heq, hi] at htask
    exact halive (Option.some.inj htask).symm
  exact ⟨by rw [List.getElem?_set_ne hne, hi], hne.symm⟩

/-- A task that has ended stays so, and does nothing. -/
theorem Step.keeps_ended (h : p.Step e p' signs) {i : Nat} (hi : p.tasks[i]? = some .ended) :
    p'.tasks[i]? = some .ended ∧ .asked i ∉ signs := by
  cases h with
  | created =>
      obtain ⟨hlt, _⟩ := List.getElem?_eq_some_iff.mp hi
      exact ⟨by rw [List.getElem?_append_left hlt, hi], by simp⟩
  | joined => exact ⟨hi, by simp⟩
  | stopped => exact ⟨hi, by simp⟩
  | idle => exact ⟨hi, by simp⟩
  | settled htask hlooks _ =>
      exact ⟨(set_keeps_ended hi htask (ne_ended_of_looks hlooks)).1, by simp⟩
  | ended htask hlooks _ =>
      exact ⟨(set_keeps_ended hi htask (ne_ended_of_looks hlooks)).1, by simp⟩
  | asked htask =>
      obtain ⟨hkept, hne⟩ := set_keeps_ended hi htask (by decide)
      exact ⟨hkept, by simpa using hne⟩
  | failed htask => exact ⟨(set_keeps_ended hi htask (by decide)).1, by simp⟩

/-- A task that has ended stays ended, and asks nothing more, whatever happens. -/
theorem keeps_ended {i : Nat} (hi : p.tasks[i]? = some .ended) (events : List PollEvent) :
    (p.after events).tasks[i]? = some .ended ∧ .asked i ∉ p.history events := by
  induction events generalizing p with
  | nil => exact ⟨hi, List.not_mem_nil⟩
  | cons e events ih =>
      obtain ⟨hkept, hquiet⟩ := (p.step_spec e).keeps_ended hi
      obtain ⟨hend, hrest⟩ := ih hkept
      refine ⟨hend, ?_⟩
      rw [history, List.mem_append, not_or]
      exact ⟨hquiet, hrest⟩

/-- A task whose poll fails ends. -/
theorem ended_of_failed {i : Nat} (h : .failed i ∈ p.signs e) :
    (p.step e).tasks[i]? = some .ended := by
  have hstep := p.step_spec e
  generalize p.step e = p', p.signs e = signs at h hstep
  cases hstep with
  | failed htask =>
      obtain ⟨hlt, _⟩ := List.getElem?_eq_some_iff.mp htask
      cases List.mem_singleton.mp h
      exact List.getElem?_set_self hlt
  | created | joined | asked _ => simp at h
  | stopped | idle | settled _ _ _ | ended _ _ _ => exact absurd h List.not_mem_nil

/-- While polls are wanted, only a failure ends the task. -/
theorem Step.keeps_wanted (h : p.Step e p' signs)
    (hp : p.flags.wanted = true ∧ p.flags.running = true) (he : e ≠ .stop)
    (hok : ∀ i, .failed i ∉ signs) : p'.flags.wanted = true ∧ p'.flags.running = true := by
  cases h with
  | created | joined => exact ⟨rfl, rfl⟩
  | stopped => exact absurd rfl he
  | idle | settled _ _ _ | asked _ => exact hp
  | ended _ _ hunwanted =>
      rw [hunwanted] at hp
      cases hp.1
  | @failed _ _ i _ => exact absurd (List.mem_singleton_self _) (hok i)

/-- Without a stop and without a failure the polling goes on. -/
theorem keeps_wanted {events : List PollEvent}
    (hp : p.flags.wanted = true ∧ p.flags.running = true) (hevents : .stop ∉ events)
    (hok : ∀ i, .failed i ∉ p.history events) :
    (p.after events).flags.wanted = true ∧ (p.after events).flags.running = true := by
  induction events generalizing p with
  | nil => exact hp
  | cons e events ih =>
      have he : e ≠ .stop := (List.ne_of_not_mem_cons hevents).symm
      have hfirst : ∀ i, .failed i ∉ p.signs e := by
        intro i hi
        exact hok i (List.mem_append_left _ hi)
      have hstep := (p.step_spec e).keeps_wanted hp he hfirst
      refine ih hstep (List.not_mem_of_not_mem_cons hevents) ?_
      intro i hi
      exact hok i (List.mem_append_right _ hi)

end Polls

/-- **Polling over time.**  Whatever happens in whatever order, at most one task is alive,
and the flag says whether one is.  A start gives a handle exactly when none is alive, and
then there is one more task.  Behind a stop at most one more poll is sent, as long as
nobody starts again.  A task whose poll fails ends there and sends no other one.  And
behind a start that nobody has stopped a task is alive, as long as no poll fails: it does
not matter whether a task from before had still to notice an earlier stop. -/
theorem polling_history (events : List PollEvent) :
    (({} : Polls).after events).alive ≤ 1 ∧
      ((({} : Polls).after events).flags.running = true ↔
        (({} : Polls).after events).alive = 1) ∧
      ∀ before e behind, events = before ++ e :: behind →
        ∀ p, p = ({} : Polls).after before →
          (e = .start → p.signs e = [.started (p.alive = 0)] ∧
            (p.step e).tasks = if p.alive = 0 then p.tasks ++ [.created] else p.tasks) ∧
          (e = .stop → .start ∉ behind →
            ((p.step e).history behind).countP PollSign.isAsked ≤ 1) ∧
          (∀ i, .failed i ∈ p.signs e →
            (({} : Polls).after events).tasks[i]? = some .ended ∧
              .asked i ∉ (p.step e).history behind) ∧
          (e = .start → .stop ∉ behind → (∀ i, .failed i ∉ (p.step e).history behind) →
            (({} : Polls).after events).alive = 1) := by
  have hfresh : ({} : Polls).Sound := rfl
  have hsound := hfresh.after events
  refine ⟨hsound.alive_le_one, hsound.running_iff, ?_⟩
  rintro before e behind rfl p rfl
  have hp := hfresh.after before
  have hsplit : ({} : Polls).after (before ++ e :: behind) =
      ((({} : Polls).after before).step e).after behind := Polls.after_append ..
  rw [hsplit] at hsound ⊢
  generalize ({} : Polls).after before = p at hp hsound ⊢
  refine ⟨?_, ?_, ?_, ?_⟩
  · rintro rfl
    exact hp.start
  · rintro rfl hbehind
    have hstep : (p.step .stop).Sound := (p.step_spec .stop).sound hp
    calc ((p.step .stop).history behind).countP PollSign.isAsked
        ≤ (p.step .stop).due := Polls.asked_le_due rfl hbehind
      _ ≤ (p.step .stop).alive := Polls.due_le_alive _
      _ ≤ 1 := hstep.alive_le_one
  · intro i hfailed
    exact Polls.keeps_ended (Polls.ended_of_failed hfailed) behind
  · rintro rfl hbehind hok
    have hstart : (p.step .start).flags.wanted = true ∧ (p.step .start).flags.running = true :=
      ⟨rfl, rfl⟩
    exact hsound.running_iff.mp (Polls.keeps_wanted hstart hbehind hok).2

/-- Polling is started again before the task has noticed that it was stopped. -/
def restartedInTime : List PollEvent :=
  [.start, .begin 0, .stop, .start, .wake 0, .reply 0 true]

/-- The second start gives no handle, and is not lost. -/
theorem polling_history_restartedInTime :
    ({} : Polls).history restartedInTime = [.started true, .started false, .asked 0] ∧
      (({} : Polls).after restartedInTime).alive = 1 := by
  refine ⟨by decide, ?_⟩
  have hlast := ((polling_history restartedInTime).2.2 [.start, .begin 0, .stop] .start
    [.wake 0, .reply 0 true] rfl _ rfl).2.2.2
  refine hlast rfl (by decide) ?_
  intro i hfailed
  have hquiet : (({} : Polls).after [.start, .begin 0, .stop, .start]).history
      [.wake 0, .reply 0 true] = [.asked 0] := by decide
  exact absurd (hquiet ▸ hfailed) (by simp)

end TableMapper
