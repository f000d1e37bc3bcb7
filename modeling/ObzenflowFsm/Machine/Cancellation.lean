import ObzenflowFsm.Machine.Live
import ObzenflowFsm.Machine.Run

namespace ObzenflowFsm

open Polling TimedMealy

namespace Live

variable {S E C A Value : Type}

/-! ### Where a call is dropped, and what it completes with -/

section Await

variable {handler : C → BoxFuture C (FsmResult Value)}
  {machine : StateMachine S E C A} {context : C}

theorem completes_invoke_iff {result : Except Interruption Value}
    {final : World S E C A} :
    (invoke handler ⟨machine, context⟩).Completes result final ↔
      ∃ answer left, (handler context).Completes answer left ∧
        answer.mapError .returned = result ∧ ⟨machine, left⟩ = final := by
  simp only [invoke, Prospect.completes_bind_iff,
    Prospect.completes_within_iff, Prospect.completes_ready_iff]
  constructor
  · intro completes
    obtain ⟨answer, _, ⟨left, answered, rfl⟩, same, rfl⟩ := completes
    exact ⟨answer, left, answered, same, rfl⟩
  · intro completes
    obtain ⟨answer, left, answered, same, rfl⟩ := completes
    exact ⟨answer, _, ⟨left, answered, rfl⟩, same, rfl⟩

theorem completes_invoke_ok_iff {value : Value} {final : World S E C A} :
    (invoke handler ⟨machine, context⟩).Completes (.ok value) final ↔
      ∃ left, (handler context).Completes (.ok value) left ∧
        ⟨machine, left⟩ = final := by
  rw [completes_invoke_iff]
  constructor
  · intro completes
    obtain ⟨answer, left, answered, same, rfl⟩ := completes
    cases answer with
    | ok answer =>
        cases same
        exact ⟨left, answered, rfl⟩
    | error error => cases same
  · intro completes
    obtain ⟨left, answered, rfl⟩ := completes
    exact ⟨.ok value, left, answered, rfl, rfl⟩

theorem droppedAt_invoke_iff {dropped : World S E C A} :
    (invoke handler ⟨machine, context⟩).DroppedAt dropped ↔
      ∃ held, (handler context).DroppedAt held ∧
        ⟨machine, held⟩ = dropped := by
  simp [invoke, Prospect.droppedAt_bind_iff, Prospect.droppedAt_within_iff,
    World.holding]

end Await

section Machine

variable [StateVariant S]

def hookFuture (handlers : StateHandlerMap S C A) (state : S) (context : C) :
    BoxFuture C (FsmResult (List A)) :=
  match handlers.lookup (StateVariant.variantName state) with
  | some handler => handler state context
  | none => .ready (.ok []) context

theorem awaitHook_eq_invoke (handlers : StateHandlerMap S C A) (state : S) :
    (awaitHook handlers (StateVariant.variantName state) state :
        Engine S E C A (List A)) =
      invoke (hookFuture handlers state) := by
  funext world
  unfold awaitHook invoke hookFuture
  cases handlers.lookup (StateVariant.variantName state) with
  | some handler => rfl
  | none => rfl

namespace StateMachine

def position (machine : StateMachine S E C A) : Position S :=
  ⟨machine.currentState, machine.stateTimeout⟩

def moved (machine : StateMachine S E C A) (state : S) : StateMachine S E C A :=
  { machine with currentState := state }

/-- The deadline armed when the state has been entered, if its sum does not
panic. -/
def rearmed (machine : StateMachine S E C A) (state : S) (armed : Instant) :
    Option (Option Instant) :=
  match machine.timeoutHandlers.lookup (StateVariant.variantName state) with
  | some (duration, _) => (armed.checkedAdd duration).map some
  | none => some none

/-- What a machine that has entered the new state completes with and leaves. -/
def settle (entered : StateMachine S E C A) (armed : Instant)
    (transition : Transition S A) (actions : List A) (context : C) :
    Except Interruption (List A) × World S E C A :=
  match entered.rearmed transition.nextState armed with
  | some deadline =>
      (.ok (actions ++ transition.actions),
        ⟨{ entered with stateTimeout := deadline }, context⟩)
  | none => (.error .panicked, ⟨entered, context⟩)

/-- The same, by what the entry hook answers. -/
def conclude (entered : StateMachine S E C A) (armed : Instant)
    (transition : Transition S A) (exitActions : List A) :
    FsmResult (List A) → C → Except Interruption (List A) × World S E C A
  | .ok entryActions, held =>
      entered.settle armed transition (exitActions ++ entryActions) held
  | .error error, held => (.error (.returned error), ⟨entered, held⟩)

end StateMachine

/-- What is left of `apply_transition` when the old state has been left. -/
def depart (armed : Instant) (transition : Transition S A)
    (exitActions : List A) : Engine S E C A (List A) := do
  let newStateName := StateVariant.variantName transition.nextState
  assignState transition.nextState
  let machine ← self
  let entryActions ←
    awaitHook machine.entryHandlers newStateName machine.currentState
  scheduleTimeout machine.timeoutHandlers newStateName armed
  return exitActions ++ entryActions ++ transition.actions

/-- What is left of it when the new state has been assigned. -/
def enter (entered : StateMachine S E C A) (armed : Instant)
    (transition : Transition S A) (exitActions : List A) :
    Engine S E C A (List A) := do
  let entryActions ←
    invoke (hookFuture entered.entryHandlers transition.nextState)
  scheduleTimeout entered.timeoutHandlers
    (StateVariant.variantName transition.nextState) armed
  return exitActions ++ entryActions ++ transition.actions

variable {machine entered : StateMachine S E C A} {armed : Instant}
  {transition : Transition S A} {exitActions actions : List A}
  {replied left context : C} {final dropped : World S E C A}
  {result : Except Interruption (List A)}

theorem run_settle :
    ((do
      scheduleTimeout entered.timeoutHandlers
        (StateVariant.variantName transition.nextState) armed
      return actions ++ transition.actions : Engine S E C A (List A))
        ⟨entered, context⟩) =
      .ready (entered.settle armed transition actions context).1
        (entered.settle armed transition actions context).2 := by
  unfold scheduleTimeout StateMachine.settle StateMachine.rearmed
  cases entered.timeoutHandlers.lookup
      (StateVariant.variantName transition.nextState) with
  | none => rfl
  | some timeout =>
      simp only
      cases armed.checkedAdd timeout.1 with
      | none => rfl
      | some deadline => rfl

theorem applyTransition_eq :
    applyTransition armed transition ⟨machine, replied⟩ =
      (invoke (hookFuture machine.exitHandlers machine.currentState) >>=
        depart armed transition) ⟨machine, replied⟩ := by
  rw [← awaitHook_eq_invoke]
  rfl

theorem depart_eq :
    depart armed transition exitActions ⟨machine, left⟩ =
      enter (machine.moved transition.nextState) armed transition exitActions
        ⟨machine.moved transition.nextState, left⟩ := by
  rw [enter, ← awaitHook_eq_invoke]
  rfl

theorem droppedAt_enter_iff :
    (enter entered armed transition exitActions ⟨entered, left⟩).DroppedAt
        dropped ↔
      ∃ held, (hookFuture entered.entryHandlers transition.nextState
          left).DroppedAt held ∧ ⟨entered, held⟩ = dropped := by
  rw [enter, Task.droppedAt_bind_iff, droppedAt_invoke_iff]
  refine or_iff_left ?_
  intro scheduling
  obtain ⟨entryActions, middle, awaited, scheduling⟩ := scheduling
  obtain ⟨held, _, rfl⟩ := completes_invoke_ok_iff.mp awaited
  rw [run_settle] at scheduling
  exact Prospect.droppedAt_ready_iff.mp scheduling

/-- What the entry hook answers decides what is completed with and left. -/
theorem completes_enter_iff :
    (enter entered armed transition exitActions ⟨entered, left⟩).Completes
        result final ↔
      ∃ answer held, (hookFuture entered.entryHandlers transition.nextState
          left).Completes answer held ∧
        entered.conclude armed transition exitActions answer held =
          (result, final) := by
  rw [enter, Task.completes_bind_iff]
  constructor
  · rintro (⟨entryActions, middle, awaited, settled⟩ | ⟨error, failed, rfl⟩)
    · obtain ⟨held, answered, rfl⟩ := completes_invoke_ok_iff.mp awaited
      rw [run_settle, Prospect.completes_ready_iff] at settled
      exact ⟨.ok entryActions, held, answered,
        Prod.ext settled.1 settled.2⟩
    · obtain ⟨answer, held, answered, same, rfl⟩ :=
        completes_invoke_iff.mp failed
      cases answer with
      | ok entryActions => cases same
      | error failure =>
          cases same
          exact ⟨.error failure, held, answered, rfl⟩
  · intro completes
    obtain ⟨answer, held, answered, settled⟩ := completes
    cases answer with
    | ok entryActions =>
        refine .inl ⟨entryActions, _,
          completes_invoke_ok_iff.mpr ⟨held, answered, rfl⟩, ?_⟩
        rw [run_settle, Prospect.completes_ready_iff]
        exact Prod.mk.inj settled
    | error error =>
        cases settled
        exact .inr ⟨.returned error,
          completes_invoke_iff.mpr ⟨.error error, held, answered, rfl, rfl⟩,
          rfl⟩

/-! ### Calls -/

variable [EventVariant E] {call : Call E C}

namespace StateMachine

/-- The handler a call dispatches to, if it is one that answers with a
transition. -/
def fired (machine : StateMachine S E C A) :
    Call E C → Option (C → BoxFuture C (FsmResult (Transition S A)))
  | .handle event _ _ =>
      let stateName := StateVariant.variantName machine.currentState
      let eventName := EventVariant.variantName event
      ((machine.transitions.lookup (stateName, eventName)).or
        (machine.transitions.lookup ("_", eventName))).map
          fun handler => handler machine.currentState event
  | .checkTimeout _ polled _ =>
      match machine.stateTimeout with
      | some deadline =>
          if deadline ≤ polled then
            (machine.timeoutHandlers.lookup
              (StateVariant.variantName machine.currentState)).map
                fun timeout => timeout.2 machine.currentState
          else none
      | none => none

/-- What a call does that dispatches to no such handler. -/
def idle (machine : StateMachine S E C A) :
    Call E C → Engine S E C A (List A)
  | .handle event _ _ =>
      match machine.unhandledHandler with
      | some handler => do
          invoke (handler machine.currentState event)
          return []
      | none =>
          Task.fail (.returned (.unhandledEvent
            (StateVariant.variantName machine.currentState)
            (EventVariant.variantName event)))
  | .checkTimeout _ _ _ => return []

/-- The call gets as far as assigning the new state of this transition: its
handler answers so, and the old state is left with these actions and this
context. -/
def Leaves (machine : StateMachine S E C A) (call : Call E C)
    (transition : Transition S A) (exitActions : List A) (left : C) : Prop :=
  ∃ handler replied, machine.fired call = some handler ∧
    (handler call.context).Completes (.ok transition) replied ∧
    (hookFuture machine.exitHandlers machine.currentState replied).Completes
      (.ok exitActions) left

end StateMachine

omit [StateVariant S] [EventVariant E] in
theorem run_self_bind {next : StateMachine S E C A → Engine S E C A Value} :
    (self >>= next) ⟨machine, context⟩ = next machine ⟨machine, context⟩ :=
  rfl

theorem perform_eq (machine : StateMachine S E C A) (call : Call E C) :
    perform machine call =
      (match machine.fired call with
        | some handler => invoke handler >>= applyTransition call.armed
        | none => machine.idle call) ⟨machine, call.context⟩ := by
  cases call with
  | handle event context armed =>
      simp only [perform, body, handle, run_self_bind, StateMachine.fired]
      cases machine.transitions.lookup
          (StateVariant.variantName machine.currentState,
            EventVariant.variantName event) with
      | some handler => rfl
      | none =>
          cases machine.transitions.lookup
              ("_", EventVariant.variantName event) with
          | some handler => rfl
          | none => rfl
  | checkTimeout context polled armed =>
      simp only [perform, body, checkTimeout, run_self_bind,
        StateMachine.fired]
      cases machine.stateTimeout with
      | none => rfl
      | some deadline =>
          by_cases reached : deadline ≤ polled
          · simp only [if_pos reached]
            cases machine.timeoutHandlers.lookup
                (StateVariant.variantName machine.currentState) with
            | none => rfl
            | some timeout => rfl
          · simp only [if_neg reached]
            rfl

theorem machine_of_droppedAt_idle
    (dropping : (machine.idle call ⟨machine, context⟩).DroppedAt dropped) :
    dropped.machine = machine := by
  cases call with
  | checkTimeout _ polled armed =>
      exact (Prospect.droppedAt_ready_iff.mp dropping).elim
  | handle event _ armed =>
      simp only [StateMachine.idle] at dropping
      cases absorbs : machine.unhandledHandler with
      | none =>
          rw [absorbs] at dropping
          exact (Prospect.droppedAt_ready_iff.mp dropping).elim
      | some handler =>
          rw [absorbs] at dropping
          rcases Task.droppedAt_bind_iff.mp dropping with
            awaiting | ⟨_, _, _, returned⟩
          · obtain ⟨held, _, rfl⟩ := droppedAt_invoke_iff.mp awaiting
            rfl
          · exact (Prospect.droppedAt_ready_iff.mp returned).elim

/-- A call can be dropped with the machine untouched, or in the entry hook of
the state it moves to. -/
theorem machine_of_droppedAt
    (dropping : (perform machine call).DroppedAt dropped) :
    dropped.machine = machine ∨
      ∃ transition exitActions left held,
        machine.Leaves call transition exitActions left ∧
          (hookFuture machine.entryHandlers transition.nextState
            left).DroppedAt held ∧
          dropped = ⟨machine.moved transition.nextState, held⟩ := by
  rw [perform_eq] at dropping
  cases found : machine.fired call with
  | none =>
      rw [found] at dropping
      exact .inl (machine_of_droppedAt_idle dropping)
  | some handler =>
      rw [found] at dropping
      rcases Task.droppedAt_bind_iff.mp dropping with
        awaiting | ⟨transition, _, invoked, applying⟩
      · obtain ⟨held, _, rfl⟩ := droppedAt_invoke_iff.mp awaiting
        exact .inl rfl
      obtain ⟨replied, answered, rfl⟩ := completes_invoke_ok_iff.mp invoked
      rw [applyTransition_eq] at applying
      rcases Task.droppedAt_bind_iff.mp applying with
        awaiting | ⟨exitActions, _, awaited, departing⟩
      · obtain ⟨held, _, rfl⟩ := droppedAt_invoke_iff.mp awaiting
        exact .inl rfl
      obtain ⟨left, exited, rfl⟩ := completes_invoke_ok_iff.mp awaited
      rw [depart_eq, droppedAt_enter_iff] at departing
      obtain ⟨held, entering, rfl⟩ := departing
      exact .inr ⟨transition, exitActions, left, held,
        ⟨handler, replied, found, answered, exited⟩, entering, rfl⟩

section Leaving

variable (leaves : machine.Leaves call transition exitActions left)

include leaves in
theorem StateMachine.Leaves.droppedAt {held : C}
    (entering : (hookFuture machine.entryHandlers transition.nextState
      left).DroppedAt held) :
    (perform machine call).DroppedAt
      ⟨machine.moved transition.nextState, held⟩ := by
  obtain ⟨handler, replied, found, answered, exited⟩ := leaves
  rw [perform_eq, found]
  refine Task.droppedAt_bind_iff.mpr (.inr ⟨transition, _,
    completes_invoke_ok_iff.mpr ⟨replied, answered, rfl⟩, ?_⟩)
  rw [applyTransition_eq]
  refine Task.droppedAt_bind_iff.mpr (.inr ⟨exitActions, _,
    completes_invoke_ok_iff.mpr ⟨left, exited, rfl⟩, ?_⟩)
  rw [depart_eq]
  exact droppedAt_enter_iff.mpr ⟨held, entering, rfl⟩

include leaves in
theorem StateMachine.Leaves.completes_iff :
    (perform machine call).Completes result final ↔
      (enter (machine.moved transition.nextState) call.armed transition
        exitActions ⟨machine.moved transition.nextState, left⟩).Completes
          result final := by
  obtain ⟨handler, replied, found, answered, exited⟩ := leaves
  have invoked : (invoke handler ⟨machine, call.context⟩).Completes
      (.ok transition) ⟨machine, replied⟩ :=
    completes_invoke_ok_iff.mpr ⟨replied, answered, rfl⟩
  have awaited : (invoke (hookFuture machine.exitHandlers machine.currentState)
      ⟨machine, replied⟩).Completes (.ok exitActions) ⟨machine, left⟩ :=
    completes_invoke_ok_iff.mpr ⟨left, exited, rfl⟩
  rw [perform_eq, found, Task.completes_bind_iff_of_ok invoked,
    applyTransition_eq, Task.completes_bind_iff_of_ok awaited, depart_eq]

namespace StateMachine

/-- Wherever the call is dropped, state and deadline are those from before it
or those the completed call leaves. -/
def CancellationSafe (machine : StateMachine S E C A) (call : Call E C) :
    Prop :=
  ∀ dropped, (perform machine call).DroppedAt dropped →
    dropped.machine.position = machine.position ∨
      ∃ (result : FsmResult (List A)) (final : World S E C A),
        (perform machine call).Completes (result.mapError .returned) final ∧
          dropped.machine.position = final.machine.position

/-- The call enters another state whose entry hook suspends. If that hook
completes at all, it succeeds, and the deadline is not then armed as it was. -/
def SuspendsHalfway (machine : StateMachine S E C A) (call : Call E C) :
    Prop :=
  ∃ transition exitActions left held,
    machine.Leaves call transition exitActions left ∧
      transition.nextState ≠ machine.currentState ∧
      (hookFuture machine.entryHandlers transition.nextState left).DroppedAt
        held ∧
      ∀ answer final,
        (hookFuture machine.entryHandlers transition.nextState left).Completes
            answer final →
          (∃ actions, answer = .ok actions) ∧
            machine.rearmed transition.nextState call.armed ≠
              some machine.stateTimeout

end StateMachine

include leaves in
theorem StateMachine.Leaves.completes_of_failed {error : FsmError}
    (failed : (hookFuture machine.entryHandlers transition.nextState
      left).Completes (.error error) context) :
    (perform machine call).Completes (.error (.returned error))
      ⟨machine.moved transition.nextState, context⟩ := by
  rw [leaves.completes_iff, completes_enter_iff]
  exact ⟨.error error, context, failed, rfl⟩

include leaves in
theorem StateMachine.Leaves.completes_of_entered {deadline : Option Instant}
    (entered : (hookFuture machine.entryHandlers transition.nextState
      left).Completes (.ok actions) context)
    (rearms : machine.rearmed transition.nextState call.armed =
      some deadline) :
    (perform machine call).Completes
      (.ok (exitActions ++ actions ++ transition.actions))
      ⟨{ machine.moved transition.nextState with stateTimeout := deadline },
        context⟩ := by
  rw [leaves.completes_iff, completes_enter_iff]
  refine ⟨.ok actions, context, entered, ?_⟩
  have same : (machine.moved transition.nextState).rearmed
      transition.nextState call.armed = some deadline := rearms
  simp only [StateMachine.conclude, StateMachine.settle, same]

include leaves in
/-- An entry hook that succeeds, in a call that does not panic, is followed by
the deadline armed. -/
theorem StateMachine.Leaves.rearmed_of_completes {answer : FsmResult (List A)}
    (entered : (hookFuture machine.entryHandlers transition.nextState
      left).Completes (.ok actions) context)
    (completes :
      (perform machine call).Completes (answer.mapError .returned) final) :
    machine.rearmed transition.nextState call.armed =
      some final.machine.stateTimeout := by
  cases rearms : machine.rearmed transition.nextState call.armed with
  | some deadline =>
      obtain ⟨_, rfl⟩ :=
        (leaves.completes_of_entered entered rearms).unique completes
      rfl
  | none =>
      have same : (machine.moved transition.nextState).rearmed
          transition.nextState call.armed = none := rearms
      have panics : (perform machine call).Completes (.error .panicked)
          ⟨machine.moved transition.nextState, context⟩ := by
        rw [leaves.completes_iff, completes_enter_iff]
        refine ⟨.ok actions, context, entered, ?_⟩
        simp only [StateMachine.conclude, StateMachine.settle, same]
      have panicked := (panics.unique completes).1
      cases answer with
      | ok value => cases panicked
      | error error => cases panicked

include leaves in
theorem StateMachine.Leaves.entry_completes
    (completes : (perform machine call).Completes result final) :
    ∃ answer held, (hookFuture machine.entryHandlers transition.nextState
      left).Completes answer held := by
  rw [leaves.completes_iff, completes_enter_iff] at completes
  obtain ⟨answer, held, answered, _⟩ := completes
  exact ⟨answer, held, answered⟩

end Leaving

/-- A call of any machine may be dropped anywhere, except while the entry hook
of another state is pending that never completes, or succeeds and has another
deadline armed or the sum of one panic. -/
theorem StateMachine.cancellationSafe_iff (machine : StateMachine S E C A)
    (call : Call E C) :
    machine.CancellationSafe call ↔ ¬ machine.SuspendsHalfway call := by
  constructor
  · intro safe halfway
    obtain ⟨transition, exitActions, left, held, leaves, differs, entering,
      late⟩ := halfway
    rcases safe _ (leaves.droppedAt entering) with
      before | ⟨result, final, completes, after⟩
    · exact differs (congrArg Position.state before)
    · obtain ⟨answer, context, answered⟩ := leaves.entry_completes completes
      obtain ⟨⟨actions, rfl⟩, rearms⟩ := late answer context answered
      apply rearms
      rw [leaves.rearmed_of_completes answered completes]
      exact congrArg some (congrArg Position.deadline after).symm
  · intro whole dropped dropping
    rcases machine_of_droppedAt dropping with
      unchanged | ⟨transition, exitActions, left, held, leaves, entering, rfl⟩
    · exact .inl (congrArg position unchanged)
    by_contra mixed
    refine whole ⟨transition, exitActions, left, held, leaves, ?_, entering,
      fun answer context answered => ?_⟩
    · intro same
      exact mixed (.inl (Position.ext same rfl))
    · cases answer with
      | error error =>
          exact absurd (.inr ⟨.error error, _,
            leaves.completes_of_failed answered, rfl⟩) mixed
      | ok actions =>
          refine ⟨⟨actions, rfl⟩, fun rearms => mixed (.inr ?_)⟩
          exact ⟨.ok _, _, leaves.completes_of_entered answered rearms, rfl⟩

end Machine

end Live

namespace Door

theorem hesitant_not_cancellationSafe :
    ¬ ∀ reached, (chain hesitate).Reaches 0 reached →
      ∀ call, reached.live.CancellationSafe call := by
  intro safe
  have dropping : (Live.perform (machine hesitate).live
      (.handle .opening {} 0)).DroppedAt
        ⟨((machine hesitate).moved .opened).live, {}⟩ := by
    rw [Live.perform_live, Prospect.droppedAt_returns_iff]
    exact List.mem_cons_self
  rcases safe (machine hesitate) (reaches hesitate) _ _ dropping with
    before | ⟨_, final, completes, after⟩
  · cases congrArg Position.state before
  · rw [Live.perform_live] at completes
    obtain ⟨_, rfl⟩ := completes
    cases congrArg Position.deadline after

/-- The door, with an entry hook that is never done. -/
def unattended : Live.StateMachine DoorState DoorEvent DoorContext DoorAction :=
  { (machine greet).live with
    entryHandlers :=
      AList.singleton "Open" fun _ context => .hangs fun _ => context }

theorem unattended_not_cancellationSafe :
    ¬ unattended.CancellationSafe (.handle .opening {} 0) := by
  intro safe
  have dropping : (Live.perform unattended (.handle .opening {} 0)).DroppedAt
      ⟨unattended.moved .opened, {}⟩ := ⟨0, rfl⟩
  rcases safe _ dropping with before | ⟨_, final, completes, _⟩
  · cases congrArg Position.state before
  · exact completes

end Door

end ObzenflowFsm
