import Mathlib.Data.List.Forall2

/-!
# Attempts

Laws of computations that may fail, for proofs that follow one step by step: what
a step does once the one in front of it has succeeded or failed, what a success
says about the steps it was made of, and how a list of steps commutes with
functions on its inputs and results.
-/

namespace TableMapper

variable {ε α β α' β' : Type}

/-- A computation goes on with the result of its first step. -/
@[simp] theorem ok_bind (a : α) (f : α → Except ε β) : (Except.ok a >>= f) = f a := rfl

/-- A computation ends with the error of its first step. -/
@[simp] theorem error_bind (e : ε) (f : α → Except ε β) :
    (Except.error e >>= f) = Except.error e := rfl

/-- A success of two steps is a success of each. -/
theorem bind_eq_ok {x : Except ε α} {f : α → Except ε β} {b : β} :
    (x >>= f) = .ok b ↔ ∃ a, x = .ok a ∧ f a = .ok b := by
  cases x with
  | error e => simp
  | ok a => simp

/-- Two steps fail where the first one fails or else the second one. -/
theorem bind_eq_error {x : Except ε α} {f : α → Except ε β} {e : ε} :
    (x >>= f) = .error e ↔ x = .error e ∨ ∃ a, x = .ok a ∧ f a = .error e := by
  cases x with
  | error e' => simp
  | ok a => simp

/-- A mapped result is a result that was mapped. -/
theorem map_eq_ok {x : Except ε α} {f : α → β} {b : β} :
    x.map f = .ok b ↔ ∃ a, x = .ok a ∧ f a = b := by
  cases x with
  | error e => simp [Except.map]
  | ok a => simp [Except.map]

/-- A function of the result leaves errors alone. -/
theorem map_eq_error {x : Except ε α} {f : α → β} {e : ε} :
    x.map f = .error e ↔ x = .error e := by
  cases x with
  | error e' => simp [Except.map]
  | ok a => simp [Except.map]

/-- What holds of the second step whatever the first one gives holds of both. -/
theorem bind_eq_map_bind {x : Except ε α} {f : α → Except ε β} {f' : α → Except ε β'}
    {g : β → β'} (h : ∀ a, f' a = (f a).map g) : (x >>= f') = (x >>= f).map g := by
  cases x with
  | error e => rfl
  | ok a => exact h a

/-- Steps that commute one by one commute along a list. -/
theorem mapM_comm {f : α → Except ε β} {f' : α' → Except ε β'} {g : α → α'} {h : β → β'}
    (hcomm : ∀ a, f' (g a) = (f a).map h) (l : List α) :
    (l.map g).mapM f' = (l.mapM f).map (List.map h) := by
  induction l with
  | nil => rfl
  | cons a l ih =>
      rw [List.map_cons, List.mapM_cons, List.mapM_cons, hcomm, ih]
      cases f a with
      | error e => rfl
      | ok b => cases l.mapM f <;> rfl

/-- Every result along a list is the result of one of its steps. -/
theorem exists_of_mem_mapM {f : α → Except ε β} {l : List α} {bs : List β}
    (h : l.mapM f = .ok bs) : ∀ b ∈ bs, ∃ a ∈ l, f a = .ok b := by
  induction l generalizing bs with
  | nil =>
      cases h
      intro b hb
      exact absurd hb List.not_mem_nil
  | cons a l ih =>
      rw [List.mapM_cons] at h
      obtain ⟨first, hfirst, h⟩ := bind_eq_ok.mp h
      obtain ⟨rest, hrest, h⟩ := bind_eq_ok.mp h
      cases h
      intro b hb
      rcases List.mem_cons.mp hb with rfl | hb
      · exact ⟨a, List.mem_cons_self, hfirst⟩
      · obtain ⟨c, hc, hbc⟩ := ih hrest b hb
        exact ⟨c, List.mem_cons_of_mem _ hc, hbc⟩

/-- The results of a list stand beside its elements. -/
theorem forall₂_of_mapM {f : α → Except ε β} {l : List α} {bs : List β}
    (h : l.mapM f = .ok bs) : List.Forall₂ (fun a b => f a = .ok b) l bs := by
  induction l generalizing bs with
  | nil =>
      cases h
      exact .nil
  | cons a l ih =>
      rw [List.mapM_cons] at h
      obtain ⟨first, hfirst, h⟩ := bind_eq_ok.mp h
      obtain ⟨rest, hrest, h⟩ := bind_eq_ok.mp h
      cases h
      exact .cons hfirst (ih hrest)

/-- Relations that are the same on the elements of a list relate the list to the same
ones. -/
theorem forall₂_congr_left {R S : α → β → Prop} {l : List α} {bs : List β}
    (h : ∀ a ∈ l, ∀ b, R a b ↔ S a b) : List.Forall₂ R l bs ↔ List.Forall₂ S l bs := by
  induction l generalizing bs with
  | nil =>
      constructor
      · rintro ⟨⟩
        exact .nil
      · rintro ⟨⟩
        exact .nil
  | cons a l ih =>
      have hrest : ∀ a ∈ l, ∀ b, R a b ↔ S a b := fun a ha => h a (List.mem_cons_of_mem _ ha)
      constructor
      · rintro (_ | ⟨hfirst, htail⟩)
        exact .cons ((h a List.mem_cons_self _).mp hfirst) ((ih hrest).mp htail)
      · rintro (_ | ⟨hfirst, htail⟩)
        exact .cons ((h a List.mem_cons_self _).mpr hfirst) ((ih hrest).mpr htail)

/-- Steps succeed together exactly if each of them does. -/
theorem mapM_eq_ok_iff {f : α → Except ε β} {l : List α} {bs : List β} :
    l.mapM f = .ok bs ↔ List.Forall₂ (fun a b => f a = .ok b) l bs := by
  constructor
  · exact forall₂_of_mapM
  · intro h
    induction h with
    | nil => rfl
    | cons hfirst _ ih =>
        rw [List.mapM_cons, hfirst, ok_bind, ih]
        rfl

/-- Steps on the images of a list that all succeed give one result for each element. -/
theorem mapM_map_eq_ok {f : α' → Except ε β} {g : α → α'} {h : α → β} {l : List α}
    (hok : ∀ a ∈ l, f (g a) = .ok (h a)) : (l.map g).mapM f = .ok (l.map h) := by
  rw [mapM_eq_ok_iff, List.forall₂_map_left_iff, List.forall₂_map_right_iff, List.forall₂_same]
  exact hok

/-- Steps can succeed together exactly if each of them can. -/
theorem exists_mapM_iff {f : α → Except ε β} {l : List α} :
    (∃ bs, l.mapM f = .ok bs) ↔ ∀ a ∈ l, ∃ b, f a = .ok b := by
  induction l with
  | nil => exact ⟨fun _ => by simp, fun _ => ⟨[], rfl⟩⟩
  | cons a l ih =>
      rw [List.forall_mem_cons, ← ih, List.mapM_cons]
      constructor
      · rintro ⟨bs, h⟩
        obtain ⟨first, hfirst, h⟩ := bind_eq_ok.mp h
        obtain ⟨rest, hrest, _⟩ := bind_eq_ok.mp h
        exact ⟨⟨first, hfirst⟩, rest, hrest⟩
      · rintro ⟨⟨first, hfirst⟩, rest, hrest⟩
        rw [hfirst, ok_bind, hrest]
        exact ⟨first :: rest, rfl⟩

/-- The first element of a list that does not go well fails with `e`. -/
def FirstFails (goesWell : α → Prop) (fails : α → ε → Prop) (l : List α) (e : ε) : Prop :=
  ∃ before a after, l = before ++ a :: after ∧ (∀ b ∈ before, goesWell b) ∧ fails a e

namespace FirstFails

variable {goesWell : α → Prop} {fails : α → ε → Prop} {a : α} {l : List α} {e : ε}

/-- In an empty list nothing fails. -/
theorem not_nil : ¬FirstFails goesWell fails [] e := by
  rintro ⟨before, a, after, hl, _⟩
  simp at hl

/-- Either the first element fails, or it goes well and the first failure is behind it. -/
theorem cons_iff : FirstFails goesWell fails (a :: l) e ↔
    fails a e ∨ goesWell a ∧ FirstFails goesWell fails l e := by
  constructor
  · rintro ⟨before, b, after, hl, hbefore, hb⟩
    cases before with
    | nil =>
        cases hl
        exact .inl hb
    | cons c before =>
        cases hl
        refine .inr ⟨hbefore a List.mem_cons_self, before, b, after, rfl, ?_, hb⟩
        exact fun c hc => hbefore c (List.mem_cons_of_mem a hc)
  · rintro (ha | ⟨ha, before, b, after, rfl, hbefore, hb⟩)
    · exact ⟨[], a, l, rfl, by simp, ha⟩
    · refine ⟨a :: before, b, after, rfl, ?_, hb⟩
      intro c hc
      rcases List.mem_cons.mp hc with rfl | hc
      · exact ha
      · exact hbefore c hc

/-- The first failure along a list whose elements stand for other ones. -/
theorem map_iff {g : α' → Prop} {f : α' → ε → Prop} {h : α → α'}
    (hg : ∀ a ∈ l, g (h a) ↔ goesWell a) (hf : ∀ a ∈ l, f (h a) e ↔ fails a e) :
    FirstFails g f (l.map h) e ↔ FirstFails goesWell fails l e := by
  induction l with
  | nil =>
      constructor
      · intro hfails
        exact absurd hfails not_nil
      · intro hfails
        exact absurd hfails not_nil
  | cons a l ih =>
      have hrest := ih (fun b hb => hg b (List.mem_cons_of_mem a hb))
        (fun b hb => hf b (List.mem_cons_of_mem a hb))
      rw [List.map_cons, cons_iff, cons_iff, hg a List.mem_cons_self, hf a List.mem_cons_self,
        hrest]

/-- What fails first depends only on which elements go well and how the others fail. -/
theorem congr {goesWell' : α → Prop} {fails' : α → ε → Prop}
    (hgood : ∀ a ∈ l, goesWell a ↔ goesWell' a) (hbad : ∀ a ∈ l, fails a e ↔ fails' a e) :
    FirstFails goesWell fails l e ↔ FirstFails goesWell' fails' l e := by
  have h := @map_iff ε α α goesWell' fails' l e goesWell fails id hgood hbad
  rwa [List.map_id] at h

end FirstFails

/-- The error of several steps is that of the first one that fails. -/
theorem mapM_eq_error_iff {f : α → Except ε β} {l : List α} {e : ε} :
    l.mapM f = .error e ↔
      FirstFails (fun a => ∃ b, f a = .ok b) (fun a e => f a = .error e) l e := by
  induction l with
  | nil =>
      constructor
      · intro h
        cases h
      · intro h
        exact absurd h FirstFails.not_nil
  | cons a l ih =>
      rw [List.mapM_cons, FirstFails.cons_iff, ← ih]
      cases f a with
      | error e' => simp
      | ok b =>
          cases l.mapM f with
          | error e' => simp
          | ok bs => simp [pure, Except.pure]

/-- Every error that is the result satisfies `P`. -/
def FailsOnly (P : ε → Prop) (x : Except ε α) : Prop :=
  ∀ e, x = .error e → P e

namespace FailsOnly

variable {P : ε → Prop} {x : Except ε α}

theorem ok (a : α) : FailsOnly P (.ok a) := by
  intro e h
  cases h

theorem error {e : ε} (he : P e) : FailsOnly P (.error e : Except ε α) := by
  intro e' h
  cases h
  exact he

/-- Two steps that fail only so fail only so one after the other. -/
theorem bind {f : α → Except ε β} (hx : FailsOnly P x) (hf : ∀ a, FailsOnly P (f a)) :
    FailsOnly P (x >>= f) := by
  cases x with
  | error e => exact error (hx e rfl)
  | ok a => exact hf a

theorem map {f : α → β} (hx : FailsOnly P x) : FailsOnly P (x.map f) := by
  cases x with
  | error e => exact error (hx e rfl)
  | ok a => exact ok (f a)

/-- A traversal fails as its steps do. -/
theorem mapM {f : α → Except ε β} (hf : ∀ a, FailsOnly P (f a)) (l : List α) :
    FailsOnly P (l.mapM f) := by
  induction l with
  | nil => exact ok []
  | cons a l ih =>
      rw [List.mapM_cons]
      exact (hf a).bind fun b => ih.bind fun bs => ok (b :: bs)

end FailsOnly

end TableMapper
