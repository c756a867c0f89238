import TableMapper.Proofs.AutoCreate
import TableMapper.Proofs.Marking

/-!
# Calls in turns

Several calls on facades of one family run in turns.  In its turn a call does
everything up to its next statement, which is answered; before it hears the reply,
other calls may have any number of turns.  Whether a table is known is looked up in
the first turn of a call, and it becomes known only in the turn behind the last of
its changes, so two calls can both find it unknown and both change it.

* `Session.turn` — the turn of a call; `Session.run_turn` says that calls run in
  turns do what they do when they are run;
* `Family.play` — the turns of several calls in the order of a schedule;
* `Family.Rest.play` — what is true of the rest of a call stays true in all turns;
* `Family.overlap_of_changed` — two calls change one table only if one began while the
  other was under way and had not yet made it known;
* `changed_by_one_call` — so one call changes it where no two calls overlap;
* `overlapping_creations` — two calls that overlap and both create a table.
-/

namespace TableMapper

namespace Session

variable {α σ : Type}

/-- A turn: everything up to the next statement, if there is one, with the reply to
it; and what is left to do. -/
def turn (x : Executor σ) : Session α → World σ → Option Exchange × Session α × World σ
  | done r, w => (none, done r, w)
  | log e next, w => next.turn x { w with events := w.events ++ [e] }
  | exec sql next, w =>
    let (reply, state) := x.exec w.state sql
    (some (.exec sql reply), next reply, { w with state, calls := w.calls ++ [.exec sql] })
  | query sql next, w =>
    let (reply, state) := x.query w.state sql
    (some (.query sql reply), next reply, { w with state, calls := w.calls ++ [.query sql] })
  | autoCreate next, w => (next w.autoCreate).turn x w
  | isCreated table next, w => (next (w.known.contains table)).turn x w
  | markCreated table next, w => next.turn x { w with known := w.known.insert table }

/-- A session that is interrupted for no one ends as if it had been run. -/
theorem run_turn (x : Executor σ) (s : Session α) (w : World σ) :
    (s.turn x w).2.1.run x (s.turn x w).2.2 = s.run x w := by
  induction s generalizing w with
  | done r => rfl
  | log e next ih => exact ih _
  | exec sql next ih => rfl
  | query sql next ih => rfl
  | autoCreate next ih => exact ih _ w
  | isCreated table next ih => exact ih _ w
  | markCreated table next ih => exact ih _

/-- What is said in a turn and behind it is what the whole session says. -/
theorem exchanges_turn (x : Executor σ) (s : Session α) (w : World σ) :
    (s.turn x w).1.toList ++ (s.turn x w).2.1.exchanges x (s.turn x w).2.2 =
      s.exchanges x w := by
  induction s generalizing w with
  | done r => rfl
  | log e next ih => exact ih _
  | exec sql next ih => rfl
  | query sql next ih => rfl
  | autoCreate next ih => exact ih _ w
  | isCreated table next ih => exact ih _ w
  | markCreated table next ih => exact ih _

/-- A turn makes no table unknown. -/
theorem known_turn {x : Executor σ} {s : Session α} {w : World σ} {table : String}
    (h : w.known.contains table = true) :
    (s.turn x w).2.2.known.contains table = true := by
  induction s generalizing w with
  | done r => exact h
  | log e next ih => exact ih (w := { w with events := w.events ++ [e] }) h
  | exec sql next ih => exact h
  | query sql next ih => exact h
  | autoCreate next ih => exact ih _ h
  | isCreated other next ih => exact ih _ h
  | markCreated other next ih =>
      exact ih (w := { w with known := w.known.insert other })
        (KnownTables.contains_insert_iff.mpr (.inr h))

/-- Whether some statement changes the table. -/
def changed (table : String) (ys : List Exchange) : Bool :=
  ys.any fun y => changesTable table y.call.sql

/-- A table is changed by a conversation if a part of it does so. -/
theorem changed_append (table : String) (ys zs : List Exchange) :
    changed table (ys ++ zs) = (changed table ys || changed table zs) :=
  List.any_append

/-- What a turn leaves to do ends where the whole would have ended, unless the
statement of the turn failed. -/
theorem Ends.turn {table : String} {Q : Bool → Bool → Except Error α → Prop}
    {x : Executor σ} {s : Session α} {w : World σ} {before marked : Bool}
    (h : s.Ends table Q before marked) (hmarked : marked = true → w.known.contains table = true)
    (hok : ∀ y ∈ (s.turn x w).1, y.error? = none) :
    ∃ marked', (s.turn x w).2.1.Ends table Q
        (before || changed table (s.turn x w).1.toList) marked' ∧
      (marked' = true → (s.turn x w).2.2.known.contains table = true) := by
  induction s generalizing w marked with
  | done r =>
      refine ⟨marked, ?_, hmarked⟩
      have hbefore : (before || changed table []) = before := Bool.or_false before
      exact hbefore.symm ▸ h
  | log e next ih => exact ih (w := { w with events := w.events ++ [e] }) h hmarked hok
  | exec sql next ih =>
      refine ⟨marked, ?_, hmarked⟩
      have hreply : (Exchange.exec sql (x.exec w.state sql).1).error? = none := hok _ rfl
      change (next (x.exec w.state sql).1).Ends table Q
        (before || (changesTable table sql || false)) marked
      rw [Bool.or_false]
      cases hresult : (x.exec w.state sql).1 with
      | error e =>
          rw [hresult] at hreply
          cases hreply
      | ok result => exact h result
  | query sql next ih =>
      refine ⟨marked, ?_, hmarked⟩
      have hreply : (Exchange.query sql (x.query w.state sql).1).error? = none := hok _ rfl
      change (next (x.query w.state sql).1).Ends table Q
        (before || (changesTable table sql || false)) marked
      rw [Bool.or_false]
      cases hrows : (x.query w.state sql).1 with
      | error e =>
          rw [hrows] at hreply
          cases hreply
      | ok rows => exact h rows
  | autoCreate next ih => exact ih _ (h w.autoCreate) hmarked hok
  | isCreated other next ih => exact ih _ (h (w.known.contains other)) hmarked hok
  | markCreated other next ih =>
      refine ih (w := { w with known := w.known.insert other }) h ?_ hok
      intro hnow
      rcases Bool.or_eq_true_iff.mp hnow with hbefore | hother
      · exact KnownTables.contains_insert_iff.mpr (.inr (hmarked hbefore))
      · exact KnownTables.contains_insert_iff.mpr (.inl (of_decide_eq_true hother).symm)

/-- A turn of a call that heeds the table and finds it known leaves a rest that does
not change it, and has not changed it. -/
theorem Heeds.turn {table : String} {x : Executor σ} {s : Session α} {w : World σ}
    (h : s.Heeds table) (hknown : w.known.contains table = true)
    (hok : ∀ y ∈ (s.turn x w).1, y.error? = none) :
    ∃ marked, (s.turn x w).2.1.Ends table (fun changed _ _ => changed = false)
        (changed table (s.turn x w).1.toList) marked ∧
      (marked = true → (s.turn x w).2.2.known.contains table = true) := by
  have hquiet (next : Session α) (w : World σ) (hok : ∀ y ∈ (next.turn x w).1, y.error? = none)
      (h : next.Ends table (fun changed _ _ => changed = false) false false) :
      ∃ marked, (next.turn x w).2.1.Ends table (fun changed _ _ => changed = false)
          (changed table (next.turn x w).1.toList) marked ∧
        (marked = true → (next.turn x w).2.2.known.contains table = true) :=
    h.turn (by simp) hok
  induction s generalizing w with
  | done r => exact ⟨false, rfl, by simp⟩
  | log e next ih => exact ih (w := { w with events := w.events ++ [e] }) h hknown hok
  | exec sql next ih => exact hquiet _ w hok h
  | query sql next ih => exact hquiet _ w hok h
  | autoCreate next ih => exact ih _ (h w.autoCreate) hknown hok
  | isCreated other next ih =>
      have hnext : (next (w.known.contains other)).Ends table
          (fun changed _ _ => changed = false) false false := by
        cases hother : w.known.contains other with
        | true => exact h.1
        | false =>
            refine h.2 fun heq => ?_
            rw [heq, hknown] at hother
            cases hother
      exact hquiet (next (w.known.contains other)) w hok hnext
  | markCreated other next ih =>
      exact ih (w := { w with known := w.known.insert other }) h
        (KnownTables.contains_insert_iff.mpr (.inr hknown)) hok

end Session

/-- Calls on facades that share one state: what each has still to do, and what it
has exchanged so far. -/
structure Family (ι σ : Type) where
  world : World σ
  calls : ι → Session (Outcome Effect)
  sent : ι → List Exchange

/-- A call of an operation on records. -/
structure RecordCall where
  type : RecordType
  args : List Argument
  task : Task

namespace Family

variable {ι σ : Type} [DecidableEq ι]

/-- The calls before any of them has had a turn. -/
def begin (s : Settings) (call : ι → RecordCall) (w : World σ) : Family ι σ where
  world := w
  calls i := (call i).task.session s (call i).type (call i).args
  sent _ := []

/-- A turn of one call. -/
def turn (x : ι → Executor σ) (f : Family ι σ) (i : ι) : Family ι σ :=
  let (y, rest, w) := (f.calls i).turn (x i) f.world
  ⟨w, Function.update f.calls i rest, Function.update f.sent i (f.sent i ++ y.toList)⟩

/-- Turns in the order of a schedule. -/
def play (x : ι → Executor σ) (f : Family ι σ) (schedule : List ι) : Family ι σ :=
  schedule.foldl (turn x) f

section Turns

variable {x : ι → Executor σ} {f : Family ι σ} {i k : ι} {table : String}

/-- A turn takes its own call one exchange further. -/
theorem calls_turn_self : (f.turn x i).calls i = ((f.calls i).turn (x i) f.world).2.1 :=
  Function.update_self ..

/-- A turn leaves the other calls where they are. -/
theorem calls_turn_of_ne (h : i ≠ k) : (f.turn x k).calls i = f.calls i :=
  Function.update_of_ne h ..

/-- A turn adds what its own call sends. -/
theorem sent_turn_self :
    (f.turn x i).sent i = f.sent i ++ ((f.calls i).turn (x i) f.world).1.toList :=
  Function.update_self ..

/-- A turn adds nothing to what the other calls have sent. -/
theorem sent_turn_of_ne (h : i ≠ k) : (f.turn x k).sent i = f.sent i :=
  Function.update_of_ne h ..

/-- A schedule behind another goes on where that has ended. -/
theorem play_append (schedule schedule' : List ι) :
    f.play x (schedule ++ schedule') = (f.play x schedule).play x schedule' :=
  List.foldl_append ..

/-- What was sent stays sent. -/
theorem sent_prefix_play (schedule : List ι) : f.sent i <+: (f.play x schedule).sent i := by
  induction schedule generalizing f with
  | nil => exact List.prefix_rfl
  | cons k schedule ih =>
      refine List.IsPrefix.trans ?_ (ih (f := f.turn x k))
      by_cases hk : i = k
      · subst hk
        rw [sent_turn_self]
        exact List.prefix_append _ _
      · simp only [sent_turn_of_ne hk, List.prefix_refl]

/-- A call without a turn has done nothing. -/
theorem play_of_not_mem {schedule : List ι} (h : i ∉ schedule) :
    (f.play x schedule).calls i = f.calls i ∧ (f.play x schedule).sent i = f.sent i := by
  induction schedule generalizing f with
  | nil => exact ⟨rfl, rfl⟩
  | cons k schedule ih =>
      have hk : i ≠ k := List.ne_of_not_mem_cons h
      obtain ⟨hcalls, hsent⟩ := ih (f := f.turn x k) (List.not_mem_of_not_mem_cons h)
      exact ⟨hcalls.trans (calls_turn_of_ne hk), hsent.trans (sent_turn_of_ne hk)⟩

/-- A call that has ended sends nothing more. -/
theorem sent_play_of_done {r : Except Error (Outcome Effect)} (h : f.calls i = .done r)
    (schedule : List ι) : (f.play x schedule).sent i = f.sent i := by
  induction schedule generalizing f with
  | nil => rfl
  | cons k schedule ih =>
      by_cases hk : i = k
      · subst hk
        have hcalls : (f.turn x i).calls i = .done r := by
          rw [calls_turn_self, h]
          rfl
        refine (ih hcalls).trans ?_
        rw [sent_turn_self, h]
        exact List.append_nil _
      · have hcalls : (f.turn x k).calls i = .done r := (calls_turn_of_ne hk).trans h
        exact (ih hcalls).trans (sent_turn_of_ne hk)

/-- What a call has still to do ends in `Q`; what it has marked is known. -/
def Rest (f : Family ι σ) (table : String)
    (Q : Bool → Bool → Except Error (Outcome Effect) → Prop) (i : ι) : Prop :=
  ∃ marked, (f.calls i).Ends table Q (Session.changed table (f.sent i)) marked ∧
    (marked = true → f.world.known.contains table = true)

variable {Q : Bool → Bool → Except Error (Outcome Effect) → Prop}

/-- One turn, be it of the call or of another one, keeps what is true of its rest. -/
theorem Rest.turn (h : f.Rest table Q i)
    (hok : ∀ y ∈ (f.turn x k).sent i, y.error? = none) : (f.turn x k).Rest table Q i := by
  obtain ⟨marked, hends, hmarked⟩ := h
  by_cases hk : i = k
  · subst hk
    rw [sent_turn_self] at hok
    have hown : ∀ y ∈ ((f.calls i).turn (x i) f.world).1, y.error? = none := by
      intro y hy
      exact hok y (List.mem_append_right _ (Option.mem_toList.mpr hy))
    obtain ⟨marked', hrest, hknown⟩ := hends.turn hmarked hown
    refine ⟨marked', ?_, hknown⟩
    rw [calls_turn_self, sent_turn_self, Session.changed_append]
    exact hrest
  · refine ⟨marked, ?_, ?_⟩
    · rw [calls_turn_of_ne hk, sent_turn_of_ne hk]
      exact hends
    · intro hnow
      exact Session.known_turn (hmarked hnow)

/-- All turns do. -/
theorem Rest.play (h : f.Rest table Q i) {schedule : List ι}
    (hok : ∀ y ∈ (f.play x schedule).sent i, y.error? = none) :
    (f.play x schedule).Rest table Q i := by
  induction schedule generalizing f with
  | nil => exact h
  | cons k schedule ih =>
      have hturn : ∀ y ∈ (f.turn x k).sent i, y.error? = none := by
        intro y hy
        exact hok y ((sent_prefix_play schedule).subset hy)
      exact ih (h.turn hturn) hok

/-- A call that begins when the table is known does not change it. -/
theorem changed_of_known (hheeds : (f.calls i).Heeds table) (hsent : f.sent i = [])
    (hknown : f.world.known.contains table = true) {schedule : List ι}
    (hok : ∀ y ∈ (f.play x (i :: schedule)).sent i, y.error? = none) :
    Session.changed table ((f.play x (i :: schedule)).sent i) = false := by
  have hfirst : (f.turn x i).sent i = ((f.calls i).turn (x i) f.world).1.toList := by
    rw [sent_turn_self, hsent, List.nil_append]
  have hown : ∀ y ∈ ((f.calls i).turn (x i) f.world).1, y.error? = none := by
    intro y hy
    refine hok y ((sent_prefix_play (f := f.turn x i) schedule).subset ?_)
    rw [hfirst]
    exact Option.mem_toList.mpr hy
  obtain ⟨marked, hrest, hmarked⟩ := hheeds.turn hknown hown
  have hbegun : (f.turn x i).Rest table (fun changed _ _ => changed = false) i := by
    refine ⟨marked, ?_, hmarked⟩
    rw [calls_turn_self, hfirst]
    exact hrest
  have hrestOk : ∀ y ∈ ((f.turn x i).play x schedule).sent i, y.error? = none := hok
  obtain ⟨marked', hends, _⟩ := hbegun.play hrestOk
  cases hchanged : Session.changed table ((f.play x (i :: schedule)).sent i) with
  | false => rfl
  | true =>
      change Session.changed table (((f.turn x i).play x schedule).sent i) = true at hchanged
      rw [hchanged] at hends
      exact absurd hends Session.not_ends_unchanged

end Turns

end Family

/-- The first place of a member behind the head of a list. -/
theorem exists_behind_head {ι : Type} {i j : ι} {l : List ι} (hij : i ≠ j) (hj : j ∈ l) :
    ∃ before behind, i :: l = before ++ j :: behind ∧ i ∈ before ∧ j ∉ before := by
  obtain ⟨as, bs, rfl, hnot⟩ := List.eq_append_cons_of_mem hj
  exact ⟨i :: as, bs, rfl, List.mem_cons_self, List.not_mem_cons_of_ne_of_not_mem hij.symm hnot⟩

/-- Of two members of a list one stands in front of the other. -/
theorem exists_in_front {ι : Type} [DecidableEq ι] {i j : ι} {l : List ι} (hij : i ≠ j)
    (hi : i ∈ l) (hj : j ∈ l) :
    (∃ before behind, l = before ++ j :: behind ∧ i ∈ before ∧ j ∉ before) ∨
      ∃ before behind, l = before ++ i :: behind ∧ j ∈ before ∧ i ∉ before := by
  have hcons {k a b : ι} {l : List ι} (hk : k ≠ b)
      (h : ∃ before behind, l = before ++ b :: behind ∧ a ∈ before ∧ b ∉ before) :
      ∃ before behind, k :: l = before ++ b :: behind ∧ a ∈ before ∧ b ∉ before := by
    obtain ⟨before, behind, rfl, ha, hb⟩ := h
    exact ⟨k :: before, behind, rfl, List.mem_cons_of_mem _ ha,
      List.not_mem_cons_of_ne_of_not_mem hk.symm hb⟩
  induction l with
  | nil => exact absurd hi List.not_mem_nil
  | cons k l ih =>
      by_cases hki : k = i
      · subst hki
        exact .inl (exists_behind_head hij (List.mem_of_ne_of_mem hij.symm hj))
      · by_cases hkj : k = j
        · subst hkj
          exact .inr (exists_behind_head hij.symm (List.mem_of_ne_of_mem hij hi))
        · have htwo := ih (List.mem_of_ne_of_mem (Ne.symm hki) hi)
            (List.mem_of_ne_of_mem (Ne.symm hkj) hj)
          exact htwo.imp (hcons hkj) (hcons hki)

section Overlap

variable {ι σ : Type} [DecidableEq ι] {s : Settings} {x : ι → Executor σ}
  {call : ι → RecordCall} {w : World σ} {schedule : List ι} {table : String} {i j : ι}

/-- The second call has its first turn when the first one has begun but not ended, and
the table is not yet known. -/
def Family.Overlap (x : ι → Executor σ) (f : Family ι σ) (schedule : List ι) (table : String)
    (first second : ι) : Prop :=
  ∃ before behind, schedule = before ++ second :: behind ∧ first ∈ before ∧ second ∉ before ∧
    (∀ r, (f.play x before).calls first ≠ .done r) ∧
    (f.play x before).world.known.contains table = false

/-- Of two calls that change a table, the later one begins before the earlier one has
made the table known. -/
theorem Family.overlap_of_changed {before behind : List ι}
    (hschedule : schedule = before ++ j :: behind) (hi : i ∈ before) (hj : j ∉ before)
    (hok : ∀ k, ∀ y ∈ ((Family.begin s call w).play x schedule).sent k, y.error? = none)
    (hchangedFirst :
      Session.changed table (((Family.begin s call w).play x schedule).sent i) = true)
    (hchangedSecond :
      Session.changed table (((Family.begin s call w).play x schedule).sent j) = true) :
    (Family.begin s call w).Overlap x schedule table i j := by
  refine ⟨before, behind, hschedule, hi, hj, ?_⟩
  rw [hschedule, Family.play_append] at hok hchangedFirst hchangedSecond
  -- The second call has done nothing, so if the table were known it would not change it.
  have hunknown :
      ((Family.begin s call w).play x before).world.known.contains table = false := by
    rw [Bool.eq_false_iff]
    intro hknown
    obtain ⟨hcalls, hsent⟩ := Family.play_of_not_mem (x := x) (f := Family.begin s call w) hj
    have hheeds : (((Family.begin s call w).play x before).calls j).Heeds table := by
      rw [hcalls]
      exact Task.heeds s _ _ _ table
    have hkept := Family.changed_of_known hheeds hsent hknown (hok j)
    rw [hchangedSecond] at hkept
    cases hkept
  refine ⟨?_, hunknown⟩
  -- If the first call had ended, what it changed would be marked.
  intro r hended
  have hbegin : (Family.begin s call w).Rest table
      (fun changed marked _ => changed = true → marked = true) i :=
    ⟨false, Task.ends_marked s _ _ _ table, by simp⟩
  have hsofar : ∀ y ∈ ((Family.begin s call w).play x before).sent i, y.error? = none := by
    intro y hy
    exact hok i y ((Family.sent_prefix_play _).subset hy)
  obtain ⟨marked, hends, hmarked⟩ := hbegin.play hsofar
  rw [hended] at hends
  rw [Family.sent_play_of_done hended] at hchangedFirst
  have hknown := hmarked (hends hchangedFirst)
  rw [hunknown] at hknown
  cases hknown

/-- **One call changes a table, unless calls overlap.**  Operations on records run in
turns, and no statement fails.  Where one call changes the table, another one does not,
provided none of the two begins while the other one is under way and the table not yet
known. -/
theorem changed_by_one_call (hdistinct : i ≠ j)
    (hij : ¬(Family.begin s call w).Overlap x schedule table i j)
    (hji : ¬(Family.begin s call w).Overlap x schedule table j i)
    (hok : ∀ k, ∀ y ∈ ((Family.begin s call w).play x schedule).sent k, y.error? = none)
    (hi : Session.changed table (((Family.begin s call w).play x schedule).sent i) = true) :
    Session.changed table (((Family.begin s call w).play x schedule).sent j) = false := by
  rw [← Bool.not_eq_true]
  intro hj
  have hturn {k : ι}
      (hk : Session.changed table (((Family.begin s call w).play x schedule).sent k) = true) :
      k ∈ schedule := by
    by_contra hnot
    rw [(Family.play_of_not_mem hnot).2] at hk
    cases hk
  rcases exists_in_front hdistinct (hturn hi) (hturn hj) with
    ⟨before, behind, hschedule, hfirst, hsecond⟩ | ⟨before, behind, hschedule, hfirst, hsecond⟩
  · exact hij (Family.overlap_of_changed hschedule hfirst hsecond hok hi hj)
  · exact hji (Family.overlap_of_changed hschedule hfirst hsecond hok hj hi)

end Overlap

/-- An insertion of one number. -/
def countVisit : RecordCall where
  type := countType
  args := []
  task := .write (.insert [.value (.int 1)])

/-- Two insertions into one table, which is created automatically. -/
def twoInsertions : Family Bool Unit :=
  .begin {} (fun _ => countVisit) { state := (), autoCreate := true }

/-- The second insertion begins when the first one has ended. -/
theorem twoInsertions_apart (first second : Bool) :
    ¬twoInsertions.Overlap (fun _ => emptyDatabase) [false, false, false, true] "visits"
      first second := by
  intro hoverlap
  obtain ⟨before, behind, hschedule, hfirst, hsecond, _, hunknown⟩ := hoverlap
  have hcut : before = [false, false, false, true].takeWhile (· != second) := by
    have hbefore : ∀ k ∈ before, (k != second) = true := by
      intro k hk
      exact bne_iff_ne.mpr (ne_of_mem_of_not_mem hk hsecond)
    rw [hschedule, List.takeWhile_append_of_pos hbefore,
      List.takeWhile_cons_of_neg (by simp), List.append_nil]
  subst hcut
  cases second with
  | false => cases hfirst
  | true =>
      have hknown : (twoInsertions.play (fun _ => emptyDatabase)
          [false, false, false]).world.known.contains "visits" = true := by
        decide +kernel
      exact Bool.false_ne_true (hunknown.symm.trans hknown)

/-- The first one creates the table and nothing fails, so the second one does not create
it. -/
theorem changed_by_one_call_insertions :
    let ended := twoInsertions.play (fun _ => emptyDatabase) [false, false, false, true]
    (∀ k, ∀ y ∈ ended.sent k, y.error? = none) ∧
      Session.changed "visits" (ended.sent false) = true ∧
      Session.changed "visits" (ended.sent true) = false := by
  have hok : ∀ k, ∀ y ∈ (twoInsertions.play (fun _ => emptyDatabase)
      [false, false, false, true]).sent k, y.error? = none := by
    decide +kernel
  have hcreates : Session.changed "visits" ((twoInsertions.play (fun _ => emptyDatabase)
      [false, false, false, true]).sent false) = true := by
    decide +kernel
  refine ⟨hok, hcreates, ?_⟩
  exact changed_by_one_call Bool.false_ne_true (twoInsertions_apart false true)
    (twoInsertions_apart true false) hok hcreates

/-- That nothing fails and tables are created automatically does not keep two writes
from changing one table. -/
theorem overlapping_creations :
    ¬∀ (call : Bool → RecordCall) (x : Bool → Executor Unit) (w : World Unit)
      (schedule : List Bool) (table : String),
      w.autoCreate = true → (∀ k, (call k).task ≠ .select) →
      (∀ k, ∀ y ∈ ((Family.begin {} call w).play x schedule).sent k, y.error? = none) →
      ∀ i j, Session.changed table (((Family.begin {} call w).play x schedule).sent i) = true →
        Session.changed table (((Family.begin {} call w).play x schedule).sent j) = true →
        i = j := by
  intro honce
  -- Both ask for the columns before any of them creates the table.
  have hok : ∀ k, ∀ y ∈ (twoInsertions.play (fun _ => emptyDatabase)
      [false, true, false, true]).sent k, y.error? = none := by
    decide +kernel
  have hboth : ∀ k, Session.changed "visits" ((twoInsertions.play (fun _ => emptyDatabase)
      [false, true, false, true]).sent k) = true := by
    decide +kernel
  have hwrites : ∀ _ : Bool, countVisit.task ≠ .select := by
    intro _ h
    cases h
  have hsame := honce (fun _ => countVisit) (fun _ => emptyDatabase)
    { state := (), autoCreate := true } [false, true, false, true] "visits" rfl hwrites hok
    false true (hboth false) (hboth true)
  exact Bool.false_ne_true hsame

end TableMapper
