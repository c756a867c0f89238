import Mathlib.Data.Finset.Card
import TableMapper.Proofs.AutoCreate

/-!
# Calls that share a cache of schemas

Several calls ask one registry for schemas, in turns.  In its first turn a call looks
its record type up, and derives a schema where it finds none; in its second turn it
offers what it has derived.  Other calls may have had turns in between, so several of
them can derive a schema for one type, but only what is offered first is kept.

* `SchemaCall.Steps` — everything that a turn of a call can do;
* `Registry.Extends` — what a registry can become: entries are added behind the others;
* `Readers.play` — the turns of calls, and of writers that make a table known, in the
  order of a schedule;
* `Readers.Sound` — what a call has been given is what the registry keeps;
* `Readers.mem_types_play` — there is an entry for every type that was offered one;
* `first_writer_wins` — what this means for a whole schedule.
-/

namespace TableMapper

namespace Registry

variable {r r' r'' : Registry} {type other : Nat} {o kept : SchemaObject}

/-- The numbers of the record types that have an entry. -/
def types (r : Registry) : List Nat :=
  r.cached.map (·.1)

/-- The registry with one more entry. -/
def store (r : Registry) (type : Nat) (o : SchemaObject) : Registry :=
  { r with cached := r.cached ++ [(type, o)] }

/-- Nothing is found exactly for the types without an entry. -/
theorem find?_eq_none_iff : r.find? type = none ↔ type ∉ r.types := by
  rw [find?, Option.map_eq_none_iff, List.find?_eq_none]
  constructor
  · intro h hmem
    obtain ⟨entry, hentry, rfl⟩ := List.mem_map.mp hmem
    exact h entry hentry (beq_self_eq_true _)
  · intro h entry hentry heq
    exact h (List.mem_map.mpr ⟨entry, hentry, eq_of_beq heq⟩)

/-- A type has an entry exactly if one is found. -/
theorem mem_types_iff : type ∈ r.types ↔ ∃ o, r.find? type = some o := by
  rw [← Option.ne_none_iff_exists', Ne, find?_eq_none_iff, not_not]

/-- An entry is stored behind the others. -/
theorem types_store : (r.store type o).types = r.types ++ [type] := by
  simp [types, store]

/-- The entry of a type that had none. -/
theorem find?_store_self (h : r.find? type = none) : (r.store type o).find? type = some o := by
  have hnone : r.cached.find? (·.1 == type) = none := Option.map_eq_none_iff.mp h
  simp [find?, store, List.find?_append, hnone]

/-- Nothing is replaced or removed; and what has been derived has been derived. -/
structure Extends (r' r : Registry) : Prop where
  cached : r.cached <+: r'.cached
  derived : r.derived ≤ r'.derived

/-- A registry extends itself. -/
theorem Extends.refl (r : Registry) : r.Extends r :=
  ⟨List.prefix_rfl, Nat.le_refl _⟩

/-- Growth in two stages is growth. -/
theorem Extends.trans (h : r''.Extends r') (h' : r'.Extends r) : r''.Extends r :=
  ⟨h'.cached.trans h.cached, h'.derived.trans h.derived⟩

/-- Storing an entry is growth. -/
theorem Extends.store (r : Registry) (type : Nat) (o : SchemaObject) :
    (r.store type o).Extends r :=
  ⟨List.prefix_append _ _, Nat.le_refl _⟩

/-- An entry stays what it is. -/
theorem Extends.find? (h : r'.Extends r) (hfind : r.find? type = some o) :
    r'.find? type = some o := by
  obtain ⟨more, hmore⟩ := h.cached
  obtain ⟨entry, hentry, rfl⟩ := Option.map_eq_some_iff.mp hfind
  rw [Registry.find?, ← hmore, List.find?_append, hentry]
  rfl

/-- Every entry is an earlier one or the one stored. -/
theorem find?_store_cases (h : (r.store type o).find? other = some kept) :
    r.find? other = some kept ∨ other = type ∧ kept = o := by
  cases hother : r.find? other with
  | some earlier =>
      rw [(Extends.store r type o).find? hother] at h
      exact .inl h
  | none =>
      by_cases heq : other = type
      · subst heq
        rw [find?_store_self hother] at h
        exact .inr ⟨rfl, (Option.some.inj h).symm⟩
      · have hmem := mem_types_iff.mpr ⟨kept, h⟩
        rw [types_store] at hmem
        exact absurd hmem (by simp [find?_eq_none_iff.mp hother, heq])

end Registry

/-- Everything that a turn of a call can do to itself and to a registry. -/
inductive SchemaCall.Steps (type : Nat) (t : RecordType) (r : Registry) :
    SchemaCall → SchemaCall → Registry → Prop
  | found {o : SchemaObject} (h : r.find? type = some o) :
      Steps type t r .begun (.answered (.ok o)) r
  | refused {e : Error} (hschema : t.schema = .error e) :
      Steps type t r .begun (.answered (.error e)) r
  | derived {schema : Schema} (hschema : t.schema = .ok schema) :
      Steps type t r .begun (.offering ⟨r.derived, schema⟩) { r with derived := r.derived + 1 }
  /-- Another call was faster. -/
  | beaten {o kept : SchemaObject} (h : r.find? type = some kept) :
      Steps type t r (.offering o) (.answered (.ok kept)) r
  | stored {o : SchemaObject} (h : r.find? type = none) :
      Steps type t r (.offering o) (.answered (.ok o)) (r.store type o)
  | idle {result : Except Error SchemaObject} :
      Steps type t r (.answered result) (.answered result) r

namespace SchemaCall

variable {type : Nat} {t : RecordType} {r r' : Registry} {call call' : SchemaCall}

/-- No turn does anything else. -/
theorem step_spec (type : Nat) (t : RecordType) (r : Registry) (call : SchemaCall) :
    Steps type t r call (call.step type t r).1 (call.step type t r).2 := by
  cases call with
  | begun =>
      unfold step
      dsimp only
      cases hfind : r.find? type with
      | some kept => exact .found hfind
      | none =>
          cases hschema : t.schema with
          | error e => exact .refused hschema
          | ok schema => exact .derived hschema
  | offering o =>
      unfold step Registry.offer
      dsimp only
      cases hfind : r.find? type with
      | some kept => exact .beaten hfind
      | none => exact .stored hfind
  | answered result => exact .idle

/-- No step replaces or removes anything. -/
theorem Steps.extends (h : Steps type t r call call' r') : r'.Extends r := by
  cases h with
  | found _ | refused _ | beaten _ | idle => exact .refl r
  | derived _ => exact ⟨List.prefix_rfl, Nat.le_succ _⟩
  | stored _ => exact .store r _ _

/-- No call makes a table known. -/
theorem Steps.known (h : Steps type t r call call' r') : r'.known = r.known := by
  cases h <;> rfl

/-- What is derived gets the next serial number. -/
theorem Steps.serial_eq {o : SchemaObject} (h : Steps type t r .begun (.offering o) r') :
    o.serial = r.derived := by
  cases h
  rfl

/-- A call that ends in an error leaves everything as it was. -/
theorem Steps.eq_of_error {e : Error} (h : Steps type t r call (.answered (.error e)) r') :
    r' = r := by
  cases h <;> rfl

end SchemaCall

/-- A call for a schema: the record type, and the number that tells it from others. -/
structure SchemaRequest where
  type : Nat
  record : RecordType

/-- The registry that calls share, and where each of them is. -/
structure Readers (ι : Type) where
  registry : Registry
  calls : ι → SchemaCall

/-- Who has the turn: a call for a schema, or a writer that makes a table known. -/
inductive CacheTurn (ι : Type)
  | call (i : ι)
  | mark (table : String)

namespace Readers

variable {ι : Type} [DecidableEq ι]

/-- An empty registry, and no call has had a turn. -/
def fresh : Readers ι :=
  ⟨{}, fun _ => .begun⟩

/-- One turn. -/
def turn (request : ι → SchemaRequest) (c : Readers ι) : CacheTurn ι → Readers ι
  | .call i =>
    let (call, registry) := (c.calls i).step (request i).type (request i).record c.registry
    ⟨registry, Function.update c.calls i call⟩
  | .mark table => { c with registry := c.registry.markCreated table }

/-- Turns in the order of a schedule. -/
def play (request : ι → SchemaRequest) (c : Readers ι) (schedule : List (CacheTurn ι)) :
    Readers ι :=
  schedule.foldl (turn request) c

/-- The record type for which a turn offers a schema, if it does. -/
def offered? (request : ι → SchemaRequest) (c : Readers ι) : CacheTurn ι → Option Nat
  | .call i =>
    match c.calls i with
    | .offering _ => some (request i).type
    | _ => none
  | .mark _ => none

/-- The record types for which the turns of a schedule offer schemas. -/
def offered (request : ι → SchemaRequest) (c : Readers ι) : List (CacheTurn ι) → List Nat
  | [] => []
  | t :: schedule => (c.offered? request t).toList ++ (c.turn request t).offered request schedule

end Readers

/-- What a call holds: a schema of its type that it has derived, the entry of its type,
or why there is no schema. -/
def SchemaRequest.Holds (q : SchemaRequest) (r : Registry) : SchemaCall → Prop
  | .begun => True
  | .offering o => o.serial < r.derived ∧ q.record.schema = .ok o.schema
  | .answered (.ok o) => r.find? q.type = some o
  | .answered (.error e) => q.record.schema = .error e

/-- What a call may hold it may hold in a grown registry too. -/
theorem SchemaRequest.Holds.mono {q : SchemaRequest} {r r' : Registry} {call : SchemaCall}
    (h : q.Holds r call) (hr : r'.Extends r) : q.Holds r' call := by
  cases call with
  | begun => trivial
  | offering o => exact ⟨Nat.lt_of_lt_of_le h.1 hr.derived, h.2⟩
  | answered result =>
      cases result with
      | ok o => exact hr.find? h
      | error e => exact h

namespace Readers

variable {ι : Type}

/-- Every type has one entry at most, which some call for it has derived, and every call
holds what it may hold. -/
structure Sound (request : ι → SchemaRequest) (c : Readers ι) : Prop where
  nodup : c.registry.types.Nodup
  derived : ∀ type o, c.registry.find? type = some o → o.serial < c.registry.derived ∧
    ∃ k, (request k).type = type ∧ (request k).record.schema = .ok o.schema
  holds : ∀ i, (request i).Holds c.registry (c.calls i)

variable {request : ι → SchemaRequest} {c : Readers ι}

/-- The fresh registry is sound, and no call holds anything yet. -/
theorem sound_fresh : (fresh : Readers ι).Sound request where
  nodup := List.nodup_nil
  derived := by simp [fresh, Registry.find?]
  holds _ := trivial

/-- What a call has been given in its turn. -/
theorem Sound.holds_step (h : c.Sound request) {i : ι} {call : SchemaCall} {r : Registry}
    (hstep : SchemaCall.Steps (request i).type (request i).record c.registry (c.calls i) call r) :
    (request i).Holds r call := by
  have hheld := h.holds i
  generalize c.calls i = before at hstep hheld
  cases hstep with
  | found hfind | beaten hfind => exact hfind
  | refused hschema => exact hschema
  | derived hschema => exact ⟨Nat.lt_succ_self _, hschema⟩
  | stored hnone => exact Registry.find?_store_self hnone
  | idle => exact hheld

/-- Entries stay single and derived in the turn of a call. -/
theorem Sound.entries_step (h : c.Sound request) {i : ι} {call : SchemaCall} {r : Registry}
    (hstep : SchemaCall.Steps (request i).type (request i).record c.registry (c.calls i) call r) :
    r.types.Nodup ∧ ∀ type o, r.find? type = some o → o.serial < r.derived ∧
      ∃ k, (request k).type = type ∧ (request k).record.schema = .ok o.schema := by
  have hheld := h.holds i
  generalize c.calls i = before at hstep hheld
  cases hstep with
  | found _ | refused _ | beaten _ | idle => exact ⟨h.nodup, h.derived⟩
  | derived _ =>
      refine ⟨h.nodup, ?_⟩
      intro type o hfind
      obtain ⟨hserial, howner⟩ := h.derived type o hfind
      exact ⟨Nat.lt_succ_of_lt hserial, howner⟩
  | @stored offer hnone =>
      refine ⟨?_, ?_⟩
      · rw [Registry.types_store]
        have hnew := Registry.find?_eq_none_iff.mp hnone
        exact h.nodup.append (List.nodup_singleton _) (List.disjoint_singleton.mpr hnew)
      · intro type o hfind
        rcases Registry.find?_store_cases hfind with hearlier | ⟨rfl, rfl⟩
        · exact h.derived type o hearlier
        · exact ⟨hheld.1, i, rfl, hheld.2⟩

/-- A call that has got a schema has got the one that is kept. -/
theorem Sound.find?_of_answered (h : c.Sound request) {i : ι} {o : SchemaObject}
    (hi : c.calls i = .answered (.ok o)) : c.registry.find? (request i).type = some o := by
  have hheld := h.holds i
  rwa [hi] at hheld

variable [DecidableEq ι]

variable (request) in
/-- A turn of a call, case by case. -/
theorem steps_turn (c : Readers ι) (i : ι) :
    SchemaCall.Steps (request i).type (request i).record c.registry (c.calls i)
      ((c.turn request (.call i)).calls i) (c.turn request (.call i)).registry := by
  have hself : (c.turn request (.call i)).calls i =
      ((c.calls i).step (request i).type (request i).record c.registry).1 :=
    Function.update_self ..
  rw [hself]
  exact SchemaCall.step_spec ..

/-- A turn of one call leaves the others where they are. -/
theorem calls_turn_of_ne {i k : ι} (h : k ≠ i) :
    (c.turn request (.call i)).calls k = c.calls k :=
  Function.update_of_ne h ..

/-- No turn replaces or removes anything. -/
theorem extends_turn (c : Readers ι) (t : CacheTurn ι) :
    (c.turn request t).registry.Extends c.registry := by
  cases t with
  | call i => exact (c.steps_turn request i).extends
  | mark table => exact ⟨List.prefix_rfl, Nat.le_refl _⟩

/-- A turn keeps soundness, whoever has it. -/
theorem Sound.turn (h : c.Sound request) (t : CacheTurn ι) : (c.turn request t).Sound request := by
  cases t with
  | call i =>
      have hstep := c.steps_turn request i
      obtain ⟨hnodup, hderived⟩ := h.entries_step hstep
      refine ⟨hnodup, hderived, ?_⟩
      intro k
      by_cases hk : k = i
      · subst hk
        exact h.holds_step hstep
      · rw [calls_turn_of_ne hk]
        exact (h.holds k).mono hstep.extends
  | mark table =>
      have hextends : (c.turn request (.mark table)).registry.Extends c.registry :=
        c.extends_turn _
      exact ⟨h.nodup, h.derived, fun i => (h.holds i).mono hextends⟩

/-- So does a schedule. -/
theorem Sound.play (h : c.Sound request) (schedule : List (CacheTurn ι)) :
    (c.play request schedule).Sound request := by
  induction schedule generalizing c with
  | nil => exact h
  | cons t schedule ih => exact ih (h.turn t)

/-- No schedule replaces or removes anything. -/
theorem extends_play (c : Readers ι) (schedule : List (CacheTurn ι)) :
    (c.play request schedule).registry.Extends c.registry := by
  induction schedule generalizing c with
  | nil => exact .refl _
  | cons t schedule ih => exact (ih _).trans (c.extends_turn t)

/-- A schedule behind another is played from where that one ends. -/
theorem play_append (c : Readers ι) (schedule schedule' : List (CacheTurn ι)) :
    c.play request (schedule ++ schedule') = (c.play request schedule).play request schedule' :=
  List.foldl_append ..

/-- What a call derives is an object that nobody has yet. -/
theorem Sound.serial_ne_of_derived (h : c.Sound request) {i : ι} {o o' : SchemaObject}
    (hbegun : c.calls i = .begun) (hoffering : (c.turn request (.call i)).calls i = .offering o)
    (hthere : (∃ type, c.registry.find? type = some o') ∨ ∃ j, c.calls j = .offering o') :
    o'.serial ≠ o.serial := by
  have hstep := c.steps_turn request i
  rw [hbegun, hoffering] at hstep
  have hserial := hstep.serial_eq
  have hearlier : o'.serial < c.registry.derived := by
    rcases hthere with ⟨type, hkept⟩ | ⟨j, hj⟩
    · exact (h.derived type o' hkept).1
    · have hheld := h.holds j
      rw [hj] at hheld
      exact hheld.1
  omega

/-- A turn that ends in an error has changed nothing, and no schema could be derived. -/
theorem Sound.turn_of_error (h : c.Sound request) {i : ι} {e : Error}
    (herror : (c.turn request (.call i)).calls i = .answered (.error e)) :
    (c.turn request (.call i)).registry = c.registry ∧ (request i).record.schema = .error e := by
  have hstep := c.steps_turn request i
  rw [herror] at hstep
  have hheld := (h.turn (.call i)).holds i
  rw [herror] at hheld
  exact ⟨hstep.eq_of_error, hheld⟩

/-- A turn adds an entry for the type that it offers a schema for, unless there is one. -/
theorem mem_types_turn (c : Readers ι) (t : CacheTurn ι) {type : Nat} :
    type ∈ (c.turn request t).registry.types ↔
      type ∈ c.registry.types ∨ c.offered? request t = some type := by
  cases t with
  | mark table => simp [turn, offered?, Registry.markCreated, Registry.types]
  | call i =>
      have hstep := c.steps_turn request i
      generalize (c.turn request (.call i)).calls i = call,
        (c.turn request (.call i)).registry = r at hstep
      unfold offered?
      dsimp only
      generalize c.calls i = before at hstep ⊢
      cases hstep with
      | found _ | refused _ | idle => simp
      | derived _ => simp [Registry.types]
      | beaten hfind =>
          have hmem := Registry.mem_types_iff.mpr ⟨_, hfind⟩
          simp only [Option.some.injEq]
          constructor
          · exact .inl
          · rintro (h | rfl)
            · exact h
            · exact hmem
      | stored _ => simp [Registry.types_store, eq_comm]

/-- There is an entry for every type that was offered one. -/
theorem mem_types_play (c : Readers ι) (schedule : List (CacheTurn ι)) {type : Nat} :
    type ∈ (c.play request schedule).registry.types ↔
      type ∈ c.registry.types ∨ type ∈ c.offered request schedule := by
  induction schedule generalizing c with
  | nil => simp [play, offered]
  | cons t schedule ih =>
      refine (ih (c.turn request t)).trans ?_
      rw [mem_types_turn, offered, List.mem_append, Option.mem_toList, or_assoc]

/-- There are as many entries as types that were offered one. -/
theorem size_play_fresh (request : ι → SchemaRequest) (schedule : List (CacheTurn ι)) :
    (fresh.play request schedule).registry.size =
      (fresh.offered request schedule).toFinset.card := by
  have htypes : (fresh.play request schedule).registry.types.toFinset =
      (fresh.offered request schedule).toFinset := by
    ext type
    rw [List.mem_toFinset, List.mem_toFinset, mem_types_play]
    exact or_iff_right List.not_mem_nil
  have hsound : (fresh.play request schedule).Sound request := sound_fresh.play schedule
  rw [← htypes, List.toFinset_card_of_nodup hsound.nodup]
  exact (List.length_map Prod.fst).symm

/-- A table is known behind a turn if it was, or if the turn marks it. -/
theorem isCreated_turn (c : Readers ι) (t : CacheTurn ι) {table : String} :
    (c.turn request t).registry.isCreated table = true ↔
      c.registry.isCreated table = true ∨ t = .mark table := by
  cases t with
  | call i =>
      rw [Registry.isCreated, (c.steps_turn request i).known]
      simp [Registry.isCreated]
  | mark other =>
      rw [CacheTurn.mark.injEq]
      refine KnownTables.contains_insert_iff.trans (or_comm.trans (or_congr_right ?_))
      exact eq_comm

/-- A table is known behind a schedule if it was, or if a turn marks it. -/
theorem isCreated_play (c : Readers ι) (schedule : List (CacheTurn ι)) {table : String} :
    (c.play request schedule).registry.isCreated table = true ↔
      c.registry.isCreated table = true ∨ .mark table ∈ schedule := by
  induction schedule generalizing c with
  | nil => simp [play]
  | cons t schedule ih =>
      refine (ih (c.turn request t)).trans ?_
      rw [isCreated_turn, List.mem_cons, or_assoc, eq_comm (a := t)]

end Readers

/-- **The first writer wins.**  Calls for schemas and writers that make tables known have
turns in any order, on a registry that was empty.  All calls for one record type that get
a schema get the very object that is kept for it, which one of them has derived.  There is
one entry for each type for which some turn offered a schema, and a table is known exactly
if a writer made it known.  Looking closer, a turn replaces and removes no entry; what it
derives is an object that was not there before; one that ends in an error has changed
nothing; a call makes no table known, and a writer makes known only its own table and
changes no entry. -/
theorem first_writer_wins {ι : Type} [DecidableEq ι] (request : ι → SchemaRequest)
    (schedule : List (CacheTurn ι)) :
    let ended := Readers.fresh.play request schedule
    (∀ i j o o', (request i).type = (request j).type → ended.calls i = .answered (.ok o) →
        ended.calls j = .answered (.ok o') →
        o = o' ∧ ended.registry.find? (request i).type = some o ∧
          ∃ k, (request k).type = (request i).type ∧
            (request k).record.schema = .ok o.schema) ∧
      ended.registry.size = (Readers.fresh.offered request schedule).toFinset.card ∧
      (∀ table, ended.registry.isCreated table = true ↔ .mark table ∈ schedule) ∧
      ∀ before t behind, schedule = before ++ t :: behind →
        ∀ c c', c = Readers.fresh.play request before → c' = c.turn request t →
          c.registry.cached <+: ended.registry.cached ∧
          (∀ type o, c.registry.find? type = some o → ended.registry.find? type = some o) ∧
          (∀ i o, t = .call i → c.calls i = .begun → c'.calls i = .offering o →
            ∀ o', ((∃ type, c.registry.find? type = some o') ∨ ∃ j, c.calls j = .offering o') →
              o'.serial ≠ o.serial) ∧
          (∀ i e, t = .call i → c'.calls i = .answered (.error e) →
            c'.registry = c.registry ∧ (request i).record.schema = .error e) ∧
          (∀ i, t = .call i → c'.registry.known = c.registry.known) ∧
          ∀ table, t = .mark table → c'.registry.cached = c.registry.cached ∧
            ∀ other, c'.registry.isCreated other = true ↔
              c.registry.isCreated other = true ∨ table = other := by
  intro ended
  have hsound : ended.Sound request := Readers.sound_fresh.play schedule
  refine ⟨?_, Readers.size_play_fresh request schedule, ?_, ?_⟩
  · intro i j o o' htype hi hj
    have hfirst := hsound.find?_of_answered hi
    have hsecond := hsound.find?_of_answered hj
    rw [← htype, hfirst] at hsecond
    exact ⟨Option.some.inj hsecond, hfirst, (hsound.derived _ o hfirst).2⟩
  · intro table
    refine (Readers.isCreated_play _ schedule).trans (or_iff_right ?_)
    exact Bool.eq_false_iff.mp (World.known_fresh () false table)
  · rintro before t behind rfl c c' hc rfl
    have hbefore : c.Sound request := hc ▸ Readers.sound_fresh.play before
    have hextends : ended.registry.Extends c.registry := by
      have hended : ended = c.play request (t :: behind) := by
        rw [hc]
        exact Readers.play_append ..
      exact hended ▸ c.extends_play (t :: behind)
    refine ⟨hextends.cached, fun _ _ => hextends.find?, ?_, ?_, ?_, ?_⟩
    · rintro i o rfl hbegun hoffering o' hthere
      exact hbefore.serial_ne_of_derived hbegun hoffering hthere
    · rintro i e rfl herror
      exact hbefore.turn_of_error herror
    · rintro i rfl
      exact (c.steps_turn request i).known
    · rintro table rfl
      refine ⟨rfl, ?_⟩
      intro other
      refine (c.isCreated_turn (.mark table)).trans (or_congr_right ?_)
      rw [CacheTurn.mark.injEq]

/-- Two calls for one record type. -/
def twoRequests (_ : Bool) : SchemaRequest :=
  ⟨0, countType⟩

/-- Both calls derive a schema, and the second one offers its own first. -/
def overtaking : List (CacheTurn Bool) :=
  [.call false, .call true, .call true, .call false]

/-- Both calls get the object that the second one has derived. -/
theorem first_writer_wins_overtaking :
    ∃ o, (Readers.fresh.play twoRequests overtaking).calls false = .answered (.ok o) ∧
      (Readers.fresh.play twoRequests overtaking).calls true = .answered (.ok o) ∧
      o.serial = 1 ∧ (Readers.fresh.play twoRequests overtaking).registry.find? 0 = some o := by
  obtain ⟨o, hsecond, hserial⟩ : ∃ o,
      (Readers.fresh.play twoRequests overtaking).calls true = .answered (.ok o) ∧
        o.serial = 1 := ⟨_, rfl, rfl⟩
  obtain ⟨o', hfirst⟩ : ∃ o',
      (Readers.fresh.play twoRequests overtaking).calls false = .answered (.ok o') := ⟨_, rfl⟩
  obtain ⟨rfl, hkept, _⟩ :=
    (first_writer_wins twoRequests overtaking).1 true false o o' rfl hsecond hfirst
  exact ⟨o, hfirst, hsecond, hserial, hkept⟩

end TableMapper
