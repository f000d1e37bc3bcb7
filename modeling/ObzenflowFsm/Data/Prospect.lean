import ObzenflowFsm.Data.Future

namespace Polling

/-! Futures that may never complete, and async bodies that await them. -/

/-- What polling a future again and again comes to: it completes, or every poll
hands control back with the state as it then stands. -/
inductive Prospect (State Value : Type) where
  | returns (future : Future State Value)
  | hangs (held : Nat → State)

namespace Prospect

variable {State Part Value Result : Type}

def ready (value : Value) (state : State) : Prospect State Value :=
  .returns (.ready value state)

/-- The same future, suspended in this state first. -/
def suspend (state : State) : Prospect State Value → Prospect State Value
  | .returns future => .returns (.pending state future)
  | .hangs held => .hangs fun
      | 0 => state
      | polls + 1 => held polls

def follow : Future State Value →
    (Value → State → Prospect State Result) → Prospect State Result
  | .ready value state, next => next value state
  | .pending state resume, next => (follow resume next).suspend state

/-- What follows a future that never completes is never reached. -/
def bind : Prospect State Value →
    (Value → State → Prospect State Result) → Prospect State Result
  | .returns future, next => follow future next
  | .hangs held, _ => .hangs held

/-- Drive a future that borrows only a part of a larger state. -/
def within (embed : Part → State) : Prospect Part Value → Prospect State Value
  | .returns future => .returns (future.within embed)
  | .hangs held => .hangs fun polls => embed (held polls)

/-- Dropping the future after some number of polls can leave this state. -/
def DroppedAt : Prospect State Value → State → Prop
  | .returns future, state => future.DroppedAt state
  | .hangs held, state => ∃ polls, held polls = state

def Completes : Prospect State Value → Value → State → Prop
  | .returns future, value, state =>
      future.value = value ∧ future.state = state
  | .hangs _, _, _ => False

@[simp] theorem completes_returns_iff {future : Future State Value}
    {value : Value} {state : State} :
    (returns future).Completes value state ↔
      future.value = value ∧ future.state = state :=
  Iff.rfl

@[simp] theorem completes_hangs_iff {held : Nat → State} {value : Value}
    {state : State} :
    (hangs held).Completes value state ↔ False :=
  Iff.rfl

@[simp] theorem droppedAt_returns_iff {future : Future State Value}
    {state : State} :
    (returns future).DroppedAt state ↔ state ∈ future.suspensions :=
  Future.droppedAt_iff_mem_suspensions

@[simp] theorem droppedAt_hangs_iff {held : Nat → State} {state : State} :
    (hangs held : Prospect State Value).DroppedAt state ↔
      ∃ polls, held polls = state :=
  Iff.rfl

theorem Completes.unique {prospect : Prospect State Value}
    {value other : Value} {state left : State}
    (completes : prospect.Completes value state)
    (again : prospect.Completes other left) : other = value ∧ left = state := by
  cases prospect with
  | returns future =>
      obtain ⟨rfl, rfl⟩ := completes
      exact ⟨again.1.symm, again.2.symm⟩
  | hangs held => exact completes.elim

@[simp] theorem completes_ready_iff {value result : Value}
    {state final : State} :
    (ready value state).Completes result final ↔
      value = result ∧ state = final :=
  Iff.rfl

@[simp] theorem droppedAt_ready_iff {value : Value} {state left : State} :
    (ready value state).DroppedAt left ↔ False := by
  simp [ready]

@[simp] theorem completes_suspend_iff {prospect : Prospect State Value}
    {value : Value} {state final : State} :
    (prospect.suspend state).Completes value final ↔
      prospect.Completes value final := by
  cases prospect with
  | returns future => rfl
  | hangs held => rfl

@[simp] theorem droppedAt_suspend_iff {prospect : Prospect State Value}
    {state left : State} :
    (prospect.suspend state).DroppedAt left ↔
      left = state ∨ prospect.DroppedAt left := by
  cases prospect with
  | returns future => simp [suspend, Future.suspensions]
  | hangs held =>
      constructor
      · intro dropped
        obtain ⟨polls, rfl⟩ := dropped
        cases polls with
        | zero => exact .inl rfl
        | succ polls => exact .inr ⟨polls, rfl⟩
      · rintro (rfl | ⟨polls, rfl⟩)
        · exact ⟨0, rfl⟩
        · exact ⟨polls + 1, rfl⟩

theorem completes_follow_iff {future : Future State Value}
    {next : Value → State → Prospect State Result} {result : Result}
    {final : State} :
    (follow future next).Completes result final ↔
      (next future.value future.state).Completes result final := by
  induction future with
  | ready value state => rfl
  | pending state resume induction =>
      exact completes_suspend_iff.trans induction

theorem droppedAt_follow_iff {future : Future State Value}
    {next : Value → State → Prospect State Result} {left : State} :
    (follow future next).DroppedAt left ↔
      left ∈ future.suspensions ∨
        (next future.value future.state).DroppedAt left := by
  induction future with
  | ready value state => simp [follow]
  | pending state resume induction =>
      simp only [follow, droppedAt_suspend_iff, induction,
        Future.suspensions, List.mem_cons, or_assoc, Future.value,
        Future.state]

/-- A sequence completes if and only if both of its parts do. -/
theorem completes_bind_iff {prospect : Prospect State Value}
    {next : Value → State → Prospect State Result} {result : Result}
    {final : State} :
    (prospect.bind next).Completes result final ↔
      ∃ value middle, prospect.Completes value middle ∧
        (next value middle).Completes result final := by
  cases prospect with
  | returns future => simp [bind, completes_follow_iff, and_assoc]
  | hangs held => simp [bind]

/-- A sequence is dropped in its first part, or in its second part after the
first has completed. -/
theorem droppedAt_bind_iff {prospect : Prospect State Value}
    {next : Value → State → Prospect State Result} {left : State} :
    (prospect.bind next).DroppedAt left ↔
      prospect.DroppedAt left ∨
        ∃ value middle, prospect.Completes value middle ∧
          (next value middle).DroppedAt left := by
  cases prospect with
  | returns future => simp [bind, droppedAt_follow_iff, and_assoc]
  | hangs held => simp [bind]

theorem completes_within_iff {embed : Part → State}
    {prospect : Prospect Part Value} {value : Value} {final : State} :
    (prospect.within embed).Completes value final ↔
      ∃ part, prospect.Completes value part ∧ embed part = final := by
  cases prospect with
  | returns future => simp [within, and_assoc]
  | hangs held => simp [within]

theorem droppedAt_within_iff {embed : Part → State}
    {prospect : Prospect Part Value} {left : State} :
    (prospect.within embed).DroppedAt left ↔
      ∃ part, prospect.DroppedAt part ∧ embed part = left := by
  cases prospect with
  | returns future => simp [within]
  | hangs held =>
      constructor
      · intro dropped
        obtain ⟨polls, rfl⟩ := dropped
        exact ⟨held polls, ⟨polls, rfl⟩, rfl⟩
      · intro dropped
        obtain ⟨_, ⟨polls, rfl⟩, rfl⟩ := dropped
        exact ⟨polls, rfl⟩

/-- Where all that follows completes, the sequence is that of futures. -/
theorem follow_within {Other : Type} {embed : State → Other}
    {future : Future State Value}
    {next : Value → State → Future State Result}
    {other : Value → Other → Prospect Other Result}
    (same : ∀ value state,
      other value (embed state) = .returns ((next value state).within embed)) :
    follow (future.within embed) other =
      .returns ((future.bind next).within embed) := by
  induction future with
  | ready value state => exact same value state
  | pending state resume induction =>
      exact congrArg (suspend (embed state)) induction

end Prospect

/-- An async body over a mutable state, which may never complete. -/
def Task (State Error Value : Type) : Type :=
  State → Prospect State (Except Error Value)

namespace Task

variable {State Error Value Result : Type}

def continueWith (next : Value → Task State Error Result) :
    Except Error Value → Task State Error Result
  | .ok value => next value
  | .error error => fun state => .ready (.error error) state

instance : Monad (Task State Error) where
  pure value := fun state => .ready (.ok value) state
  bind body next := fun state => (body state).bind (continueWith next)

def read : Task State Error State :=
  fun state => .ready (.ok state) state

def modify (update : State → State) : Task State Error Unit :=
  fun state => .ready (.ok ()) (update state)

def fail (error : Error) : Task State Error Value :=
  fun state => .ready (.error error) state

variable {body : Task State Error Value}
  {next : Value → Task State Error Result} {state final left : State}

theorem completes_bind_iff {result : Except Error Result} :
    ((body >>= next) state).Completes result final ↔
      (∃ value middle, (body state).Completes (.ok value) middle ∧
          (next value middle).Completes result final) ∨
        ∃ error, (body state).Completes (.error error) final ∧
          .error error = result := by
  refine Prospect.completes_bind_iff.trans ?_
  constructor
  · intro completes
    obtain ⟨answer, middle, completed, continued⟩ := completes
    cases answer with
    | ok value => exact .inl ⟨value, middle, completed, continued⟩
    | error error =>
        obtain ⟨rfl, rfl⟩ := continued
        exact .inr ⟨error, completed, rfl⟩
  · rintro (⟨value, middle, completed, continued⟩ | ⟨error, failed, rfl⟩)
    · exact ⟨.ok value, middle, completed, continued⟩
    · exact ⟨.error error, final, failed, rfl, rfl⟩

/-- After a body that completes, the rest decides. -/
theorem completes_bind_iff_of_ok {value : Value} {middle : State}
    {result : Except Error Result}
    (completed : (body state).Completes (.ok value) middle) :
    ((body >>= next) state).Completes result final ↔
      (next value middle).Completes result final := by
  rw [completes_bind_iff]
  constructor
  · rintro (⟨other, left, again, continued⟩ | ⟨error, failed, _⟩)
    · obtain ⟨same, rfl⟩ := completed.unique again
      cases same
      exact continued
    · cases (completed.unique failed).1
  · intro continued
    exact .inl ⟨value, middle, completed, continued⟩

theorem droppedAt_bind_iff :
    ((body >>= next) state).DroppedAt left ↔
      (body state).DroppedAt left ∨
        ∃ value middle, (body state).Completes (.ok value) middle ∧
          (next value middle).DroppedAt left := by
  refine Prospect.droppedAt_bind_iff.trans (or_congr_right ?_)
  constructor
  · intro dropped
    obtain ⟨answer, middle, completed, continued⟩ := dropped
    cases answer with
    | ok value => exact ⟨value, middle, completed, continued⟩
    | error error => exact (Prospect.droppedAt_ready_iff.mp continued).elim
  · intro dropped
    obtain ⟨value, middle, completed, continued⟩ := dropped
    exact ⟨.ok value, middle, completed, continued⟩

/-! ### Bodies all of whose handlers complete -/

/-- The task does on what it sees of the state as the body does. -/
def Mirrors {Other : Type} (embed : State → Other)
    (body : Async State Error Value) (task : Task Other Error Value) : Prop :=
  ∀ state, task (embed state) = .returns ((body state).within embed)

variable {Other : Type} {embed : State → Other}

theorem Mirrors.pure (value : Value) :
    Mirrors embed (Pure.pure value : Async State Error Value)
      (Pure.pure value) :=
  fun _ => rfl

theorem Mirrors.fail (error : Error) :
    Mirrors embed (Async.fail error : Async State Error Value)
      (Task.fail error) :=
  fun _ => rfl

theorem Mirrors.bind {body : Async State Error Value}
    {next : Value → Async State Error Result}
    {task : Task Other Error Value} {others : Value → Task Other Error Result}
    (head : Mirrors embed body task)
    (tail : ∀ value, Mirrors embed (next value) (others value)) :
    Mirrors embed (body >>= next) (task >>= others) := by
  intro state
  have run : (task >>= others) (embed state) =
      (task (embed state)).bind (continueWith others) := rfl
  rw [run, head state, Async.run_bind]
  apply Prospect.follow_within
  intro answer middle
  cases answer with
  | ok value => exact tail value middle
  | error error => rfl

end Task

end Polling
