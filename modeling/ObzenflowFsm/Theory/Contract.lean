import ObzenflowFsm.Data.Future

namespace Polling

/-! Contracts of futures and of async bodies. They also speak of the states in
which control is handed back, where a future can be dropped. -/

namespace Future

variable {State Part Value Result : Type}

structure Meets (future : Future State Value) (held : State → Prop)
    (post : Value → State → Prop) : Prop where
  suspended : ∀ state ∈ future.suspensions, held state
  completed : post future.value future.state

variable {future : Future State Value} {held otherHeld : State → Prop}
  {post otherPost : Value → State → Prop}

@[simp] theorem meets_ready_iff {value : Value} {state : State} :
    (Future.ready value state).Meets held post ↔ post value state := by
  constructor
  · exact Meets.completed
  · intro completed
    refine ⟨?_, completed⟩
    intro left member
    cases member

theorem meets_bind_iff {next : Value → State → Future State Result}
    {last : Result → State → Prop} :
    (future.bind next).Meets held last ↔
      future.Meets held fun value state =>
        (next value state).Meets held last := by
  constructor
  · rintro ⟨suspended, completed⟩
    rw [suspensions_bind] at suspended
    rw [value_bind, state_bind] at completed
    exact ⟨fun state member => suspended state (List.mem_append_left _ member),
      fun state member => suspended state (List.mem_append_right _ member),
      completed⟩
  · rintro ⟨suspended, rest⟩
    constructor
    · intro state member
      rw [suspensions_bind] at member
      rcases List.mem_append.mp member with member | member
      · exact suspended state member
      · exact rest.suspended state member
    · rw [value_bind, state_bind]
      exact rest.completed

/-- A contract of a future that borrows a part is one of the whole. -/
theorem meets_within_iff {embed : Part → State} {future : Future Part Value} :
    (future.within embed).Meets held post ↔
      future.Meets (fun part => held (embed part))
        fun value part => post value (embed part) := by
  constructor
  · rintro ⟨suspended, completed⟩
    rw [value_within, state_within] at completed
    refine ⟨fun part member => suspended _ ?_, completed⟩
    rw [suspensions_within]
    exact List.mem_map_of_mem member
  · rintro ⟨suspended, completed⟩
    constructor
    · intro state member
      rw [suspensions_within] at member
      obtain ⟨part, partMember, rfl⟩ := List.mem_map.mp member
      exact suspended part partMember
    · rw [value_within, state_within]
      exact completed

theorem Meets.weaken (meets : future.Meets held post)
    (suspended : ∀ state, held state → otherHeld state)
    (completed : ∀ value state, post value state → otherPost value state) :
    future.Meets otherHeld otherPost where
  suspended := fun state member => suspended state (meets.suspended state member)
  completed := completed _ _ meets.completed

theorem Meets.and (meets : future.Meets held post)
    (other : future.Meets otherHeld otherPost) :
    future.Meets (fun state => held state ∧ otherHeld state)
      (fun value state => post value state ∧ otherPost value state) where
  suspended := fun state member =>
    ⟨meets.suspended state member, other.suspended state member⟩
  completed := ⟨meets.completed, other.completed⟩

theorem meets_congr
    (same : ∀ value state, post value state ↔ otherPost value state) :
    future.Meets held post ↔ future.Meets held otherPost := by
  constructor
  · exact fun meets => meets.weaken (fun _ holds => holds) fun value state =>
      (same value state).mp
  · exact fun meets => meets.weaken (fun _ holds => holds) fun value state =>
      (same value state).mpr

theorem Completes.meets_iff {value : Value} {state : State}
    {suspensions : List State}
    (completes : future.Completes value state suspensions) :
    future.Meets held post ↔
      (∀ state ∈ suspensions, held state) ∧ post value state := by
  rw [← completes.value_eq, ← completes.state_eq, ← completes.suspensions_eq]
  exact ⟨fun meets => ⟨meets.suspended, meets.completed⟩,
    fun meets => ⟨meets.1, meets.2⟩⟩

theorem Meets.dropped (meets : future.Meets held post) {state : State}
    (dropped : future.DroppedAt state) : held state :=
  meets.suspended state (droppedAt_iff_mem_suspensions.mp dropped)

end Future

namespace Async

open Future (meets_ready_iff meets_within_iff meets_congr)

variable {State Part Error Value Result Item : Type}

/-- Await a future on a part of the state, whatever it answers. -/
def awaiting (embed : State → Part → State)
    (future : State → Future Part Value) : Async State Error Value :=
  fun state =>
    ((future state).within (embed state)).bind
      fun value left => .ready (.ok value) left

/-- From a state with `pre`, a body ends in `post` or fails in `raised`, and
hands control back in `held` only. -/
def Triple (held : State → Prop) (raised : Error → State → Prop)
    (pre : State → Prop) (body : Async State Error Value)
    (post : Value → State → Prop) : Prop :=
  ∀ state, pre state → (body state).Meets held fun result left =>
    match result with
    | .ok value => post value left
    | .error error => raised error left

section Rules

variable {held : State → Prop} {raised : Error → State → Prop}
  {pre : State → Prop}

theorem Triple.pure {post : Value → State → Prop} (value : Value)
    (holds : ∀ state, pre state → post value state) :
    Triple held raised pre (Pure.pure value) post :=
  fun state start => meets_ready_iff.mpr (holds state start)

theorem Triple.fail {post : Value → State → Prop} {error : Error}
    (raises : ∀ state, pre state → raised error state) :
    Triple held raised pre (Async.fail error) post :=
  fun state start => meets_ready_iff.mpr (raises state start)

theorem Triple.modify {post : Unit → State → Prop} {update : State → State}
    (holds : ∀ state, pre state → post () (update state)) :
    Triple held raised pre (Async.modify update) post :=
  fun state start => meets_ready_iff.mpr (holds state start)

/-- What the contract of a sequence asks of its first part. -/
theorem meets_bind_iff {body : Async State Error Value}
    {next : Value → Async State Error Result} {state : State}
    {post : Except Error Result → State → Prop} :
    ((body >>= next) state).Meets held post ↔
      (body state).Meets held fun result left =>
        match result with
        | .ok value => (next value left).Meets held post
        | .error error => post (.error error) left := by
  refine Future.meets_bind_iff.trans (meets_congr fun result left => ?_)
  cases result with
  | ok value => rfl
  | error error => exact meets_ready_iff

theorem Triple.bind {body : Async State Error Value}
    {next : Value → Async State Error Result}
    {middle : Value → State → Prop} {post : Result → State → Prop}
    (head : Triple held raised pre body middle)
    (tail : ∀ value, Triple held raised (middle value) (next value) post) :
    Triple held raised pre (body >>= next) post := by
  intro state start
  rw [meets_bind_iff]
  refine (head state start).weaken (fun _ holds => holds) ?_
  intro result left reached
  cases result with
  | ok value => exact tail value left reached
  | error error => exact reached

theorem Triple.weaken {body : Async State Error Value}
    {stronger : State → Prop} {middle post : Value → State → Prop}
    (triple : Triple held raised pre body middle)
    (strengthens : ∀ state, stronger state → pre state)
    (weakens : ∀ value state, middle value state → post value state) :
    Triple held raised stronger body post := by
  intro state start
  refine (triple state (strengthens state start)).weaken
    (fun _ holds => holds) ?_
  intro result left reached
  cases result with
  | ok value => exact weakens value left reached
  | error error => exact reached

theorem Triple.awaiting {embed : State → Part → State}
    {future : State → Future Part Value} {post : Value → State → Prop}
    (meets : ∀ state, pre state → (future state).Meets
      (fun part => held (embed state part))
      fun value part => post value (embed state part)) :
    Triple held raised pre (Async.awaiting embed future) post := by
  intro state start
  rw [Async.awaiting, Future.meets_bind_iff, meets_within_iff]
  exact (meets state start).weaken (fun _ holds => holds)
    fun value part reached => meets_ready_iff.mpr reached

/-- The state a body starts by reading is known to what comes after. -/
theorem Triple.read {next : State → Async State Error Value}
    {post : Value → State → Prop}
    (tail : ∀ start, pre start →
      Triple held raised (fun state => state = start) (next start) post) :
    Triple held raised pre (Async.read >>= next) post :=
  fun state start => tail state start state rfl

end Rules

/-! ### Loops -/

def forEach (body : Item → Async State Error Unit) :
    List Item → Async State Error Unit
  | [] => pure ()
  | item :: rest => do
      body item
      forEach body rest

def rounds (body : Async State Error Unit) : Nat → Async State Error Unit
  | 0 => pure ()
  | count + 1 => do
      body
      rounds body count

variable {held : State → Prop} {raised : Error → State → Prop}

/-- The invariant of a loop over items speaks of those still to come. -/
theorem Triple.forEach {body : Item → Async State Error Unit}
    (invariant : List Item → State → Prop)
    (each : ∀ item rest, Triple held raised (invariant (item :: rest))
      (body item) fun _ => invariant rest) (items : List Item) :
    Triple held raised (invariant items) (forEach body items)
      fun _ => invariant [] := by
  induction items with
  | nil => exact .pure () fun _ holds => holds
  | cons item rest induction => exact (each item rest).bind fun _ => induction

theorem Triple.rounds {body : Async State Error Unit}
    {invariant : State → Prop}
    (each : Triple held raised invariant body fun _ => invariant)
    (count : Nat) :
    Triple held raised invariant (rounds body count) fun _ => invariant := by
  induction count with
  | zero => exact .pure () fun _ holds => holds
  | succ count induction => exact each.bind fun _ => induction

end Async

end Polling
