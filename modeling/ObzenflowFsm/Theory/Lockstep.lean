import Mathlib.Data.List.Forall2
import ObzenflowFsm.Theory.Contract

namespace Polling

/-! Two futures in lockstep hand control back together, each time in related
states, and complete alike: an executor cannot tell them apart, wherever it
drops them, but by what the relation leaves out. -/

namespace Future

variable {State Other Part Piece Value Answer Result Reply : Type}

inductive Lockstep (answers : Value → Answer → Prop)
    (related : State → Other → Prop) :
    Future State Value → Future Other Answer → Prop
  | ready {value : Value} {answer : Answer} {state : State} {other : Other}
      (answered : answers value answer) (holds : related state other) :
      Lockstep answers related (.ready value state) (.ready answer other)
  | pending {state : State} {other : Other} {resume : Future State Value}
      {twin : Future Other Answer} (holds : related state other)
      (rest : Lockstep answers related resume twin) :
      Lockstep answers related (.pending state resume) (.pending other twin)

variable {answers : Value → Answer → Prop} {related : State → Other → Prop}
  {first : Future State Value} {second : Future Other Answer}

theorem Lockstep.weaken {others : Value → Answer → Prop}
    (lockstep : Lockstep answers related first second)
    (weakens : ∀ value answer, answers value answer → others value answer) :
    Lockstep others related first second := by
  induction lockstep with
  | ready answered holds => exact .ready (weakens _ _ answered) holds
  | pending holds rest induction => exact .pending holds induction

theorem Lockstep.bind {results : Result → Reply → Prop}
    {next : Value → State → Future State Result}
    {after : Answer → Other → Future Other Reply}
    (head : Lockstep answers related first second)
    (tail : ∀ value answer state other, answers value answer →
      related state other →
        Lockstep results related (next value state) (after answer other)) :
    Lockstep results related (first.bind next) (second.bind after) := by
  induction head with
  | ready answered holds => exact tail _ _ _ _ answered holds
  | pending holds rest induction => exact .pending holds induction

/-- Futures that borrow parts are in lockstep on the wholes. -/
theorem Lockstep.within {parts : Part → Piece → Prop}
    {first : Future Part Value} {second : Future Piece Answer}
    {embed : Part → State} {place : Piece → Other}
    (lockstep : Lockstep answers parts first second)
    (holds : ∀ part piece, parts part piece →
      related (embed part) (place piece)) :
    Lockstep answers related (first.within embed) (second.within place) := by
  induction lockstep with
  | ready answered part => exact .ready answered (holds _ _ part)
  | pending part rest induction => exact .pending (holds _ _ part) induction

end Future

namespace Async

variable {State Other Part Piece Error Value Answer Result Reply Item Twin :
  Type}

/-- Both succeed with values that agree, or fail with the same error. -/
inductive Agree (answers : Value → Answer → Prop) :
    Except Error Value → Except Error Answer → Prop
  | ok (answered : answers value answer) : Agree answers (.ok value) (.ok answer)
  | error : Agree answers (.error error) (.error error)

theorem Agree.eq {result other : Except Error Value}
    (agree : Agree Eq result other) : result = other := by
  cases agree with
  | ok answered => rw [answered]
  | error => rfl

/-- From related states the bodies run in lockstep. -/
def Lockstep (related : State → Other → Prop) (answers : Value → Answer → Prop)
    (body : Async State Error Value) (other : Async Other Error Answer) :
    Prop :=
  ∀ first second, related first second →
    (body first).Lockstep (Agree answers) related (other second)

variable {related : State → Other → Prop} {answers : Value → Answer → Prop}
  {body : Async State Error Value} {other : Async Other Error Answer}

theorem Lockstep.pure {value : Value} {answer : Answer}
    (answered : answers value answer) :
    Lockstep related answers (Pure.pure value : Async State Error Value)
      (Pure.pure answer : Async Other Error Answer) :=
  fun _ _ holds => .ready (.ok answered) holds

theorem Lockstep.fail (error : Error) :
    Lockstep related answers (Async.fail error) (Async.fail error) :=
  fun _ _ holds => .ready .error holds

theorem Lockstep.modify {update : State → State} {change : Other → Other}
    (holds : ∀ first second, related first second →
      related (update first) (change second)) :
    Lockstep related Eq (Async.modify update : Async State Error Unit)
      (Async.modify change) :=
  fun first second start => .ready (.ok rfl) (holds first second start)

theorem Lockstep.read :
    Lockstep related related (Async.read : Async State Error State)
      (Async.read : Async Other Error Other) :=
  fun _ _ holds => .ready (.ok holds) holds

theorem Lockstep.bind {results : Result → Reply → Prop}
    {next : Value → Async State Error Result}
    {after : Answer → Async Other Error Reply}
    (head : Lockstep related answers body other)
    (tail : ∀ value answer, answers value answer →
      Lockstep related results (next value) (after answer)) :
    Lockstep related results (body >>= next) (other >>= after) := by
  intro first second start
  refine (head first second start).bind ?_
  intro result reply left right agree holds
  cases agree with
  | ok answered => exact tail _ _ answered left right holds
  | error => exact .ready .error holds

theorem Lockstep.awaiting (parts : State → Other → Part → Piece → Prop)
    {embed : State → Part → State} {place : Other → Piece → Other}
    {future : State → Future Part Value} {twin : Other → Future Piece Answer}
    (runs : ∀ first second, related first second →
      (future first).Lockstep answers (parts first second) (twin second))
    (holds : ∀ first second part piece, related first second →
      parts first second part piece →
        related (embed first part) (place second piece)) :
    Lockstep related answers
      (Async.awaiting embed future : Async State Error Value)
      (Async.awaiting place twin) := by
  intro first second start
  have within := (runs first second start).within fun part piece =>
    holds first second part piece start
  exact within.bind fun value answer left right answered stays =>
    .ready (.ok answered) stays

theorem Lockstep.forEach {matching : Item → Twin → Prop}
    {each : Item → Async State Error Unit}
    {every : Twin → Async Other Error Unit}
    (runs : ∀ item twin, matching item twin →
      Lockstep related Eq (each item) (every twin))
    {items : List Item} {twins : List Twin}
    (matched : List.Forall₂ matching items twins) :
    Lockstep related Eq (forEach each items) (forEach every twins) := by
  induction matched with
  | nil => exact .pure rfl
  | cons head tail induction =>
      exact (runs _ _ head).bind fun _ _ _ => induction

theorem Lockstep.rounds {body : Async State Error Unit}
    {other : Async Other Error Unit} (runs : Lockstep related Eq body other)
    (count : Nat) :
    Lockstep related Eq (rounds body count) (rounds other count) := by
  induction count with
  | zero => exact .pure rfl
  | succ count induction => exact runs.bind fun _ _ _ => induction

end Async

end Polling
