import Mathlib.Logic.Relation

namespace Polling

/-! Futures as their executor sees them, and async bodies that borrow a state
mutably and can fail. -/

/-- A future completes with a value and the state it leaves, or hands control
back with the state as it stands and waits to be polled again. -/
inductive Future (State Value : Type) where
  | ready (value : Value) (state : State)
  | pending (state : State) (resume : Future State Value)

namespace Future

variable {State Part Value Result : Type}

def value : Future State Value → Value
  | .ready value _ => value
  | .pending _ resume => resume.value

def state : Future State Value → State
  | .ready _ state => state
  | .pending _ resume => resume.state

/-- The states in which a future hands control back, in order. -/
def suspensions : Future State Value → List State
  | .ready _ _ => []
  | .pending state resume => state :: resume.suspensions

def bind : Future State Value →
    (Value → State → Future State Result) → Future State Result
  | .ready value state, next => next value state
  | .pending state resume, next => .pending state (resume.bind next)

/-- Drive a future that borrows only a part of a larger state. -/
def within (embed : Part → State) : Future Part Value → Future State Value
  | .ready value part => .ready value (embed part)
  | .pending part resume => .pending (embed part) (resume.within embed)

inductive Poll : Future State Value → Future State Value → Prop
  | resume {held : State} {future : Future State Value} :
      Poll (.pending held future) future

/-- Dropping the future after some number of polls can leave this state. -/
def DroppedAt (future : Future State Value) (state : State) : Prop :=
  ∃ resume, Relation.ReflTransGen Poll future (.pending state resume)

@[simp] theorem value_ready (value : Value) (state : State) :
    (ready value state).value = value := rfl

@[simp] theorem state_ready (value : Value) (state : State) :
    (ready value state).state = state := rfl

@[simp] theorem suspensions_ready (value : Value) (state : State) :
    (ready value state).suspensions = [] := rfl

@[simp] theorem value_bind (future : Future State Value)
    (next : Value → State → Future State Result) :
    (future.bind next).value = (next future.value future.state).value := by
  induction future with
  | ready value state => rfl
  | pending state resume induction => exact induction

@[simp] theorem state_bind (future : Future State Value)
    (next : Value → State → Future State Result) :
    (future.bind next).state = (next future.value future.state).state := by
  induction future with
  | ready value state => rfl
  | pending state resume induction => exact induction

@[simp] theorem suspensions_bind (future : Future State Value)
    (next : Value → State → Future State Result) :
    (future.bind next).suspensions =
      future.suspensions ++ (next future.value future.state).suspensions := by
  induction future with
  | ready value state => rfl
  | pending state resume induction =>
      exact congrArg (List.cons state) induction

@[simp] theorem value_within (embed : Part → State)
    (future : Future Part Value) :
    (future.within embed).value = future.value := by
  induction future with
  | ready value part => rfl
  | pending part resume induction => exact induction

@[simp] theorem state_within (embed : Part → State)
    (future : Future Part Value) :
    (future.within embed).state = embed future.state := by
  induction future with
  | ready value part => rfl
  | pending part resume induction => exact induction

@[simp] theorem suspensions_within (embed : Part → State)
    (future : Future Part Value) :
    (future.within embed).suspensions = future.suspensions.map embed := by
  induction future with
  | ready value part => rfl
  | pending part resume induction =>
      exact congrArg (List.cons (embed part)) induction

theorem within_within {Whole : Type} (embed : Part → State)
    (outer : State → Whole) (future : Future Part Value) :
    (future.within embed).within outer =
      future.within fun part => outer (embed part) := by
  induction future with
  | ready value part => rfl
  | pending part resume induction =>
      exact congrArg (Future.pending (outer (embed part))) induction

theorem bind_assoc {Final : Type} (future : Future State Value)
    (next : Value → State → Future State Result)
    (last : Result → State → Future State Final) :
    (future.bind next).bind last =
      future.bind fun value state => (next value state).bind last := by
  induction future with
  | ready value state => rfl
  | pending state resume induction =>
      exact congrArg (Future.pending state) induction

theorem bind_congr {future : Future State Value}
    {next other : Value → State → Future State Result}
    (same : next future.value future.state =
      other future.value future.state) :
    future.bind next = future.bind other := by
  induction future with
  | ready value state => exact same
  | pending state resume induction =>
      exact congrArg (Future.pending state) (induction same)

/-- The whole course of a future: what it completes with, the state it leaves,
and the states it was suspended in on the way. -/
structure Completes (future : Future State Value) (value : Value)
    (state : State) (suspensions : List State) : Prop where
  value_eq : future.value = value
  state_eq : future.state = state
  suspensions_eq : future.suspensions = suspensions

theorem Completes.self (future : Future State Value) :
    future.Completes future.value future.state future.suspensions :=
  ⟨rfl, rfl, rfl⟩

theorem Completes.ready (value : Value) (state : State) :
    (Future.ready value state).Completes value state [] :=
  ⟨rfl, rfl, rfl⟩

/-- A body's course is the course of its first step followed by the course of
what it does next. -/
theorem Completes.bind {future : Future State Value}
    {next : Value → State → Future State Result} {value : Value}
    {result : Result} {middle final : State} {first second : List State}
    (head : future.Completes value middle first)
    (tail : (next value middle).Completes result final second) :
    (future.bind next).Completes result final (first ++ second) where
  value_eq := by
    rw [value_bind, head.value_eq, head.state_eq, tail.value_eq]
  state_eq := by
    rw [state_bind, head.value_eq, head.state_eq, tail.state_eq]
  suspensions_eq := by
    rw [suspensions_bind, head.suspensions_eq, head.value_eq, head.state_eq,
      tail.suspensions_eq]

theorem Completes.within {future : Future Part Value} {value : Value}
    {part : Part} {suspensions : List Part}
    (completes : future.Completes value part suspensions)
    (embed : Part → State) :
    (future.within embed).Completes value (embed part)
      (suspensions.map embed) where
  value_eq := by rw [value_within, completes.value_eq]
  state_eq := by rw [state_within, completes.state_eq]
  suspensions_eq := by rw [suspensions_within, completes.suspensions_eq]

theorem DroppedAt.of_poll {future : Future State Value} {left held : State}
    (dropped : future.DroppedAt left) :
    (pending held future).DroppedAt left := by
  obtain ⟨rest, polls⟩ := dropped
  exact ⟨rest, .head .resume polls⟩

/-- A future can be dropped exactly in the states it suspends in. -/
theorem droppedAt_iff_mem_suspensions {future : Future State Value}
    {left : State} :
    future.DroppedAt left ↔ left ∈ future.suspensions := by
  induction future with
  | ready value final =>
      constructor
      · rintro ⟨resume, polls⟩
        rcases polls.cases_head with equal | ⟨_, poll, _⟩
        · cases equal
        · cases poll
      · intro member
        simp at member
  | pending held resume induction =>
      constructor
      · rintro ⟨rest, polls⟩
        rcases polls.cases_head with equal | ⟨_, ⟨⟩, polls⟩
        · cases equal
          exact List.mem_cons_self
        · exact List.mem_cons_of_mem held (induction.mp ⟨rest, polls⟩)
      · intro member
        rcases List.mem_cons.mp member with rfl | member
        · exact ⟨resume, .refl⟩
        · exact (induction.mpr member).of_poll

end Future

/-- An async body over a mutable state: `?` on an error ends it. -/
def Async (State Error Value : Type) : Type :=
  State → Future State (Except Error Value)

namespace Async

variable {State Error Value Result : Type}

def continueWith (next : Value → Async State Error Result) :
    Except Error Value → Async State Error Result
  | .ok value => next value
  | .error error => fun state => .ready (.error error) state

instance : Monad (Async State Error) where
  pure value := fun state => .ready (.ok value) state
  bind body next := fun state => (body state).bind (continueWith next)

def read : Async State Error State :=
  fun state => .ready (.ok state) state

def modify (update : State → State) : Async State Error Unit :=
  fun state => .ready (.ok ()) (update state)

def fail (error : Error) : Async State Error Value :=
  fun state => .ready (.error error) state

theorem run_bind (body : Async State Error Value)
    (next : Value → Async State Error Result) (state : State) :
    (body >>= next) state = (body state).bind (continueWith next) := rfl

theorem bind_assoc {Final : Type} (body : Async State Error Value)
    (next : Value → Async State Error Result)
    (last : Result → Async State Error Final) :
    body >>= next >>= last = body >>= fun value => next value >>= last := by
  funext state
  refine (Future.bind_assoc _ _ _).trans (Future.bind_congr ?_)
  cases (body state).value with
  | ok value => rfl
  | error error => rfl

theorem completes_pure (value : Value) (state : State) :
    ((pure value : Async State Error Value) state).Completes
      (.ok value) state [] :=
  ⟨rfl, rfl, rfl⟩

theorem completes_fail (error : Error) (state : State) :
    ((fail error : Async State Error Value) state).Completes
      (.error error) state [] :=
  ⟨rfl, rfl, rfl⟩

theorem run_instant {body : Async State Error Value}
    {next : Value → Async State Error Result} {value : Value}
    {start middle : State} (head : body start = .ready (.ok value) middle) :
    (body >>= next) start = next value middle := by
  rw [run_bind, head]
  rfl

theorem completes_instant {body : Async State Error Value}
    {next : Value → Async State Error Result} {value : Value}
    {result : Except Error Result} {start middle final : State}
    {suspensions : List State}
    (head : body start = .ready (.ok value) middle)
    (tail : (next value middle).Completes result final suspensions) :
    ((body >>= next) start).Completes result final suspensions := by
  rwa [run_instant head]

theorem completes_step {body : Async State Error Value}
    {next : Value → Async State Error Result} {value : Value}
    {result : Except Error Result} {start middle final : State}
    {first second : List State}
    (head : (body start).Completes (.ok value) middle first)
    (tail : (next value middle).Completes result final second) :
    ((body >>= next) start).Completes result final (first ++ second) :=
  head.bind tail

theorem completes_stop {body : Async State Error Value}
    (next : Value → Async State Error Result) {error : Error}
    {start final : State} {suspensions : List State}
    (head : (body start).Completes (.error error) final suspensions) :
    ((body >>= next) start).Completes (.error error) final suspensions := by
  have ended : (continueWith next (.error error) final).Completes
      (.error error) final [] := ⟨rfl, rfl, rfl⟩
  have stopped := head.bind ended
  rwa [List.append_nil] at stopped

/-! ### Bodies run as a part of bodies that can end in more ways -/

variable {Failure : Type}

def mapError (wrap : Error → Failure) (body : Async State Error Value) :
    Async State Failure Value :=
  fun state =>
    (body state).bind fun result left => .ready (result.mapError wrap) left

theorem value_mapError (wrap : Error → Failure)
    (body : Async State Error Value) (state : State) :
    (mapError wrap body state).value = (body state).value.mapError wrap :=
  Future.value_bind _ _

theorem state_mapError (wrap : Error → Failure)
    (body : Async State Error Value) (state : State) :
    (mapError wrap body state).state = (body state).state :=
  Future.state_bind _ _

theorem run_mapError_bind (wrap : Error → Failure)
    (body : Async State Error Value)
    (next : Value → Async State Failure Result) (state : State) :
    (mapError wrap body >>= next) state =
      (body state).bind fun result =>
        continueWith next (result.mapError wrap) :=
  Future.bind_assoc _ _ _

theorem value_mapError_bind_of_ok (wrap : Error → Failure)
    {body : Async State Error Value} {state : State} {value : Value}
    (answered : (body state).value = .ok value)
    (next : Value → Async State Failure Result) :
    ((mapError wrap body >>= next) state).value =
      (next value (body state).state).value := by
  rw [run_mapError_bind]
  refine (Future.value_bind _ _).trans ?_
  rw [answered]
  rfl

theorem state_mapError_bind_of_ok (wrap : Error → Failure)
    {body : Async State Error Value} {state : State} {value : Value}
    (answered : (body state).value = .ok value)
    (next : Value → Async State Failure Result) :
    ((mapError wrap body >>= next) state).state =
      (next value (body state).state).state := by
  rw [run_mapError_bind]
  refine (Future.state_bind _ _).trans ?_
  rw [answered]
  rfl

/-- A body may be continued outside as it would be inside, as long as the two
ways to go on agree where it ends. -/
theorem run_mapError_bind_congr (wrap : Error → Failure)
    {body : Async State Error Value} {next : Value → Async State Error Result}
    {other : Value → Async State Failure Result} {state : State}
    (same : ∀ value, (body state).value = .ok value →
      other value (body state).state =
        mapError wrap (next value) (body state).state) :
    (mapError wrap body >>= other) state =
      mapError wrap (body >>= next) state := by
  have inside : mapError wrap (body >>= next) state =
      (body state).bind fun result left =>
        (continueWith next result left).bind fun result left =>
          .ready (result.mapError wrap) left :=
    Future.bind_assoc _ _ _
  rw [inside, run_mapError_bind]
  refine Future.bind_congr ?_
  cases answered : (body state).value with
  | ok value => exact same value answered
  | error error => rfl

end Async

end Polling
