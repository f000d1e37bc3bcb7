import Mathlib.Algebra.Group.Nat.Defs
import ObzenflowFsm.Machine.Run

namespace ObzenflowFsm

open Polling Registry TimedMealy

variable {S E C A : Type}

namespace StateMachine

variable [StateVariant S] {machine : StateMachine S E C A}
  {transition : Transition S A} {replied left final : C}
  {exitActions entryActions : List A} {error : FsmError}

theorem enterState_exitFailed (trace : List (Effect S E C A))
    (failed :
      (machine.hookFuture .exit machine.currentState replied).Completes
        (.error error) final exitSuspensions) :
    (enterState transition ⟨machine, replied, trace⟩).value =
      .error error := by
  have leaves := awaitHook_completes machine .exit machine.currentState
    ⟨machine, replied, trace⟩
  simp only [failed.value_eq, failed.state_eq] at leaves
  exact (Async.completes_instant (run_self _)
    (Async.completes_stop _ leaves)).value_eq

theorem enterState_entryFailed (trace : List (Effect S E C A))
    (exited :
      (machine.hookFuture .exit machine.currentState replied).Completes
        (.ok exitActions) left exitSuspensions)
    (failed :
      (machine.hookFuture .entry transition.nextState left).Completes
        (.error error) final entrySuspensions) :
    (enterState transition ⟨machine, replied, trace⟩).value =
      .error error := by
  have leaves := awaitHook_completes machine .exit machine.currentState
    ⟨machine, replied, trace⟩
  have enters := awaitHook_completes machine .entry transition.nextState
    { machine := machine.moved transition.nextState
      context := left
      trace := trace ++
        machine.hookTrace .exit machine.currentState replied ++
        [.assignState transition.nextState] }
  simp only [exited.value_eq, exited.state_eq] at leaves
  simp only [failed.value_eq, failed.state_eq] at enters
  refine Future.Completes.value_eq
    (Async.completes_instant (run_self _)
      (Async.completes_step leaves
        (Async.completes_instant (run_assignState _ _)
          (Async.completes_instant (run_self _)
            (Async.completes_stop _ enters)))))

/-- The old deadline is still set when the new state has been entered. -/
theorem enterState_entered (trace : List (Effect S E C A))
    (exited :
      (machine.hookFuture .exit machine.currentState replied).Completes
        (.ok exitActions) left exitSuspensions)
    (entered :
      (machine.hookFuture .entry transition.nextState left).Completes
        (.ok entryActions) final entrySuspensions) :
    (enterState transition ⟨machine, replied, trace⟩).value =
        .ok (machine.moved transition.nextState,
          exitActions ++ entryActions) ∧
      (enterState transition ⟨machine, replied, trace⟩).state.machine =
        machine.moved transition.nextState := by
  have leaves := awaitHook_completes machine .exit machine.currentState
    ⟨machine, replied, trace⟩
  have enters := awaitHook_completes machine .entry transition.nextState
    { machine := machine.moved transition.nextState
      context := left
      trace := trace ++
        machine.hookTrace .exit machine.currentState replied ++
        [.assignState transition.nextState] }
  simp only [exited.value_eq, exited.state_eq] at leaves
  simp only [entered.value_eq, entered.state_eq] at enters
  have whole :
      (enterState transition ⟨machine, replied, trace⟩).Completes
        (.ok (machine.moved transition.nextState,
          exitActions ++ entryActions)) _ _ :=
    Async.completes_instant (run_self _)
      (Async.completes_step leaves
        (Async.completes_instant (run_assignState _ _)
          (Async.completes_instant (run_self _)
            (Async.completes_step enters (Async.completes_pure _ _)))))
  exact ⟨whole.value_eq, congrArg World.machine whole.state_eq⟩

variable [EventVariant E]

/-- The call enters the new state of this transition successfully. -/
def Settles (machine : StateMachine S E C A) (call : Call E C)
    (transition : Transition S A) : Prop :=
  ∃ left actions, machine.entering call = some (transition, left) ∧
    (machine.hookFuture .entry transition.nextState left).value = .ok actions

/-- The call enters a state whose duration takes the clock reading beyond what
is representable. -/
def Overflows (machine : StateMachine S E C A) (call : Call E C) : Prop :=
  ∃ transition timeout, machine.Settles call transition ∧
    machine.timeoutHandlers.lookup
        (StateVariant.variantName transition.nextState) = some timeout ∧
    ¬ Instant.Representable (call.armed + timeout.1)

theorem Settles.unique {machine : StateMachine S E C A} {call : Call E C}
    {transition other : Transition S A}
    (settles : machine.Settles call transition)
    (settlesOther : machine.Settles call other) : other = transition := by
  obtain ⟨left, _, reached, _⟩ := settles
  obtain ⟨_, _, reachedOther, _⟩ := settlesOther
  rw [reached] at reachedOther
  cases reachedOther
  rfl

theorem Settles.settled {machine : StateMachine S E C A} {call : Call E C}
    {transition : Transition S A}
    (settles : machine.Settles call transition) :
    (machine.report call).machine =
      machine.settled transition.nextState call.armed := by
  obtain ⟨left, actions, reached, entered⟩ := settles
  cases machine.ending call with
  | stayed absent unchanged suspended =>
      rw [absent] at reached
      cases reached
  | entryFailed reachedThere failed result moved suspended =>
      rw [reachedThere] at reached
      cases reached
      rw [failed] at entered
      cases entered
  | completed reachedThere succeeded result settled suspended suspends =>
      rw [reachedThere] at reached
      cases reached
      exact settled

end StateMachine

namespace Checked

open StateMachine

/-! ### Both engines select, arrive and then arm the deadline -/

theorem run_plain_self (world : World S E C A) :
    plain self world = .ready (.ok world.machine) world := rfl

theorem run_plain_now (reading : Instant) (world : World S E C A) :
    plain (now reading) world =
      .ready (.ok reading) (world.record (.clock reading)) := rfl

variable [StateVariant S]

/-- What a handler that answered does before the deadline is armed. -/
def arrive (trigger : Trigger S E C A) :
    ObzenflowFsm.Engine S E C A
      (Transition S A × StateMachine S E C A × List A) := do
  let transition ← invoke (.trigger trigger)
  let entered ← StateMachine.enterState transition
  return (transition, entered)

def finish (armed : Instant) :
    Transition S A × StateMachine S E C A × List A →
      ObzenflowFsm.Engine S E C A (List A)
  | (transition, machine, actions) => do
      StateMachine.scheduleTimeout machine.timeoutHandlers
        (StateVariant.variantName transition.nextState) armed
      return actions ++ transition.actions

def checkedFinish (armed : Instant) :
    Transition S A × StateMachine S E C A × List A → Engine S E C A (List A)
  | (transition, machine, actions) => do
      scheduleTimeout machine.timeoutHandlers
        (StateVariant.variantName transition.nextState) armed
      return actions ++ transition.actions

def serve (armed : Instant) :
    Selection S E C A → Engine S E C A (List A)
  | .fire trigger => plain (arrive trigger) >>= checkedFinish armed
  | selection => plain (StateMachine.serve armed selection)

theorem applyTransition_eq (armed : Instant) (transition : Transition S A) :
    (StateMachine.applyTransition armed transition :
        ObzenflowFsm.Engine S E C A (List A)) =
      StateMachine.enterState transition >>= fun entered =>
        finish armed (transition, entered) := by
  simp only [StateMachine.applyTransition, StateMachine.enterState, finish,
    Async.bind_assoc]
  rfl

theorem serve_fire (armed : Instant) (trigger : Trigger S E C A) :
    StateMachine.serve armed (.fire trigger) =
      arrive trigger >>= finish armed := by
  simp only [StateMachine.serve, applyTransition_eq, arrive,
    Async.bind_assoc]
  rfl

theorem fire_eq (armed : Instant) (trigger : Trigger S E C A) :
    (plain (invoke (.trigger trigger)) >>= fun transition =>
        applyTransition armed transition) =
      serve armed (.fire trigger) := by
  simp only [serve, arrive, plain_bind, Async.bind_assoc]
  rfl

theorem checkTimeout_eq_serve (machine : StateMachine S E C A) (context : C)
    (polled armed : Instant) :
    checkTimeout polled armed ⟨machine, context, []⟩ =
      serve armed (machine.selectTimeout polled)
        ⟨machine, context,
          machine.preamble (.checkTimeout (E := E) context polled armed)⟩ := by
  simp only [checkTimeout, StateMachine.selectTimeout, StateMachine.preamble]
  rw [Async.run_instant (run_plain_self _)]
  cases machine.stateTimeout with
  | none => rfl
  | some deadline =>
      simp only [Async.run_instant (run_plain_now polled _)]
      by_cases reached : deadline ≤ polled
      · rw [if_pos reached]
        cases machine.timeoutHandlers.lookup
            (StateVariant.variantName machine.currentState) with
        | none => rfl
        | some timeout =>
            simp only [if_pos reached]
            exact congrFun (fire_eq armed _) _
      · rw [if_neg reached]
        cases machine.timeoutHandlers.lookup
            (StateVariant.variantName machine.currentState) with
        | none => rfl
        | some timeout =>
            simp only [if_neg reached]
            rfl

variable [EventVariant E]

theorem handle_eq_serve (machine : StateMachine S E C A) (event : E)
    (context : C) (armed : Instant) (trace : List (Effect S E C A)) :
    handle armed event ⟨machine, context, trace⟩ =
      serve armed (machine.selectEvent event) ⟨machine, context, trace⟩ := by
  simp only [handle, StateMachine.selectEvent]
  rw [Async.run_instant (run_plain_self _)]
  cases machine.transitions.lookup
      (StateVariant.variantName machine.currentState,
        EventVariant.variantName event) with
  | some handler => exact congrFun (fire_eq armed _) _
  | none =>
      cases machine.transitions.lookup
          ("_", EventVariant.variantName event) with
      | some handler => exact congrFun (fire_eq armed _) _
      | none =>
          cases machine.unhandledHandler with
          | some handler =>
              exact congrFun (plain_bind (invoke (.unhandled handler _ event))
                fun _ => pure []).symm _
          | none => rfl

theorem perform_eq_serve (machine : StateMachine S E C A)
    (call : Call E C) :
    perform machine call =
      serve call.armed (machine.select call)
        ⟨machine, call.context, machine.preamble call⟩ := by
  cases call with
  | handle event context armed =>
      exact handle_eq_serve machine event context armed []
  | checkTimeout context polled armed =>
      exact checkTimeout_eq_serve machine context polled armed

/-- Where a call stands before the deadline is armed, if it gets there. -/
inductive Arrival (machine : StateMachine S E C A) (call : Call E C)
    (outcome : Future (World S E C A)
      (FsmResult (Transition S A × StateMachine S E C A × List A))) : Prop
  | stopped (failed : outcome.value = .error error)
      (unsettled : ∀ transition, ¬ machine.Settles call transition)
  | arrived (settles : machine.Settles call transition)
      (answered : outcome.value =
        .ok (transition, machine.moved transition.nextState, actions))
      (left : outcome.state.machine = machine.moved transition.nextState)

theorem arrival {machine : StateMachine S E C A} {call : Call E C}
    {trigger : Trigger S E C A}
    (selected : machine.select call = .fire trigger) :
    Arrival machine call
      (arrive trigger ⟨machine, call.context, machine.preamble call⟩) := by
  have answers := Future.Completes.self (trigger.future call.context)
  have invoked := invoke_completes (.trigger trigger)
    (⟨machine, call.context, machine.preamble call⟩ : World S E C A)
  simp only [Invocation.future] at invoked
  cases answered : (trigger.future call.context).value with
  | error error =>
      rw [answered] at answers invoked
      refine .stopped (Async.completes_stop _ invoked).value_eq ?_
      intro transition settles
      obtain ⟨left, actions, reached, _⟩ := settles
      rw [StateMachine.entering_of_declined selected answers] at reached
      cases reached
  | ok transition =>
      rw [answered] at answers invoked
      have enters := Future.Completes.self
        (StateMachine.enterState transition
          ⟨machine, (trigger.future call.context).state,
            machine.preamble call ++
              [.invoked (.trigger trigger) call.context
                (trigger.future call.context).state none]⟩)
      have leaves := Future.Completes.self
        (machine.hookFuture .exit machine.currentState
          (trigger.future call.context).state)
      cases exited :
          (machine.hookFuture .exit machine.currentState
            (trigger.future call.context).state).value with
      | error error =>
          rw [exited] at leaves
          refine .stopped (?_ : (arrive trigger _).value = .error error) ?_
          · rw [StateMachine.enterState_exitFailed _ leaves] at enters
            exact (Async.completes_step invoked
              (Async.completes_stop _ enters)).value_eq
          · intro other settles
            obtain ⟨left, actions, reached, _⟩ := settles
            rw [StateMachine.entering_of_exitFailed selected answers leaves]
              at reached
            cases reached
      | ok exitActions =>
          rw [exited] at leaves
          have reached :=
            StateMachine.entering_of_exited selected answers leaves
          have admits := Future.Completes.self
            (machine.hookFuture .entry transition.nextState
              (machine.hookFuture .exit machine.currentState
                (trigger.future call.context).state).state)
          cases admitted :
              (machine.hookFuture .entry transition.nextState
                (machine.hookFuture .exit machine.currentState
                  (trigger.future call.context).state).state).value with
          | error error =>
              rw [admitted] at admits
              refine .stopped (?_ : (arrive trigger _).value = .error error) ?_
              · rw [StateMachine.enterState_entryFailed _ leaves admits]
                  at enters
                exact (Async.completes_step invoked
                  (Async.completes_stop _ enters)).value_eq
              · intro other settles
                obtain ⟨left, actions, reachedOther, entered⟩ := settles
                rw [reached] at reachedOther
                cases reachedOther
                rw [admitted] at entered
                cases entered
          | ok entryActions =>
              rw [admitted] at admits
              obtain ⟨value, left⟩ :=
                StateMachine.enterState_entered _ leaves admits
              rw [value] at enters
              have whole :
                  (arrive trigger
                    ⟨machine, call.context, machine.preamble call⟩).Completes
                    (.ok (transition, machine.moved transition.nextState,
                      exitActions ++ entryActions)) _ _ :=
                Async.completes_step invoked
                  (Async.completes_step enters (Async.completes_pure _ _))
              refine .arrived ⟨_, _, reached, admitted⟩ whole.value_eq ?_
              exact (congrArg World.machine whole.state_eq).trans left

omit [StateVariant S] [EventVariant E] in
theorem run_scheduleTimeout {handlers : TimeoutHandlerMap S C A}
    {stateName : String} {timeout : Duration × TimeoutHandler S C A}
    (found : handlers.lookup stateName = some timeout) (armed : Instant)
    (world : World S E C A) :
    scheduleTimeout handlers stateName armed world =
      match armed.checkedAdd timeout.1 with
      | some deadline =>
          plain (assignTimeout (some deadline)) (world.record (.clock armed))
      | none => .ready (.error .panicked) (world.record (.clock armed)) := by
  simp only [scheduleTimeout, found]
  rw [Async.run_instant (run_plain_now armed _)]
  cases armed.checkedAdd timeout.1 with
  | some deadline => rfl
  | none => rfl

omit [EventVariant E] in
theorem checkedFinish_of_representable {armed : Instant}
    {transition : Transition S A} {machine : StateMachine S E C A}
    (fits : ∀ timeout,
      machine.timeoutHandlers.lookup
          (StateVariant.variantName transition.nextState) = some timeout →
        Instant.Representable (armed + timeout.1))
    (actions : List A) :
    checkedFinish armed (transition, machine, actions) =
      plain (finish armed (transition, machine, actions)) := by
  funext world
  cases found : machine.timeoutHandlers.lookup
      (StateVariant.variantName transition.nextState) with
  | none =>
      simp only [checkedFinish, finish, scheduleTimeout,
        StateMachine.scheduleTimeout, found]
      rfl
  | some timeout =>
      simp only [checkedFinish, finish, StateMachine.scheduleTimeout, found]
      rw [Async.run_bind, run_scheduleTimeout found, Instant.checkedAdd,
        if_pos (fits timeout found)]
      rfl

omit [EventVariant E] in
theorem run_checkedFinish_of_overflow {armed : Instant}
    {transition : Transition S A} {machine : StateMachine S E C A}
    {timeout : Duration × TimeoutHandler S C A}
    (found : machine.timeoutHandlers.lookup
      (StateVariant.variantName transition.nextState) = some timeout)
    (large : ¬ Instant.Representable (armed + timeout.1))
    (actions : List A) (world : World S E C A) :
    checkedFinish armed (transition, machine, actions) world =
      .ready (.error .panicked) (world.record (.clock armed)) := by
  simp only [checkedFinish]
  rw [Async.run_bind, run_scheduleTimeout found, Instant.checkedAdd,
    if_neg large]
  rfl

variable {machine : StateMachine S E C A} {call : Call E C}

/-- Where no deadline overflows, the addition may be taken as one of numbers. -/
theorem perform_of_fits (fits : ¬ machine.Overflows call) :
    perform machine call =
      plain (StateMachine.body call) ⟨machine, call.context, []⟩ := by
  have unchecked :
      plain (StateMachine.body call) ⟨machine, call.context, []⟩ =
        plain (StateMachine.serve call.armed (machine.select call))
          ⟨machine, call.context, machine.preamble call⟩ :=
    congrArg
      (fun future : Future (World S E C A) (FsmResult (List A)) =>
        future.bind fun result left =>
          .ready (result.mapError Interruption.returned) left)
      (machine.perform_eq_serve call)
  rw [perform_eq_serve, unchecked]
  cases selected : machine.select call with
  | idle => rfl
  | refuse error => rfl
  | absorb handler state event => rfl
  | fire trigger =>
      rw [serve_fire]
      refine Async.run_mapError_bind_congr _ ?_
      intro arrived answered
      cases arrival selected with
      | stopped failed unsettled =>
          rw [failed] at answered
          cases answered
      | arrived settles reached left =>
          rw [reached] at answered
          cases answered
          refine congrFun (checkedFinish_of_representable ?_ _) _
          intro timeout found
          by_cases small : Instant.Representable (call.armed + timeout.1)
          · exact small
          · exact absurd ⟨_, timeout, settles, found, small⟩ fits

/-- A panic comes between the assignments of the state and of the deadline. -/
theorem perform_of_overflow {transition : Transition S A}
    {timeout : Duration × TimeoutHandler S C A}
    (settles : machine.Settles call transition)
    (found : machine.timeoutHandlers.lookup
      (StateVariant.variantName transition.nextState) = some timeout)
    (large : ¬ Instant.Representable (call.armed + timeout.1)) :
    (perform machine call).value = .error .panicked ∧
      (perform machine call).state.machine =
        machine.moved transition.nextState := by
  rw [perform_eq_serve]
  cases selected : machine.select call with
  | idle | refuse error | absorb handler state event =>
      obtain ⟨left, actions, reached, _⟩ := settles
      rw [StateMachine.entering_of_unfired (by simp [selected])] at reached
      cases reached
  | fire trigger =>
      cases arrival selected with
      | stopped failed unsettled => exact absurd settles (unsettled transition)
      | arrived settlesReached reached left =>
          rename_i transition actions
          have same := settlesReached.unique settles
          subst same
          have foundThere :
              (machine.moved transition.nextState).timeoutHandlers.lookup
                (StateVariant.variantName transition.nextState) =
                  some timeout := found
          simp only [serve, plain]
          rw [Async.value_mapError_bind_of_ok _ reached,
            Async.state_mapError_bind_of_ok _ reached,
            run_checkedFinish_of_overflow foundThere large]
          exact ⟨rfl, left⟩

theorem panics_iff :
    (perform machine call).value = .error .panicked ↔
      machine.Overflows call := by
  constructor
  · intro panicked
    by_cases overflows : machine.Overflows call
    · exact overflows
    · rw [perform_of_fits overflows, plain, Async.value_mapError] at panicked
      cases answered : (StateMachine.body call
          (⟨machine, call.context, []⟩ : World S E C A)).value with
      | ok actions =>
          rw [answered] at panicked
          cases panicked
      | error error =>
          rw [answered] at panicked
          cases panicked
  · intro overflows
    obtain ⟨transition, timeout, settles, found, large⟩ := overflows
    exact (perform_of_overflow settles found large).1

/-! ### Calls, and the machines they lead to -/

def respond (machine : StateMachine S E C A) (call : Call E C) :
    Response S C A Interruption × StateMachine S E C A :=
  let future := perform machine call
  ({ result := future.value
     context := future.state.context
     position := future.state.machine.position },
    future.state.machine)

/-- A call that does not overflow is the call of the unchecked engine. -/
theorem respond_of_fits (fits : ¬ machine.Overflows call) :
    respond machine call =
      ((machine.report call).response.mapError .returned,
        (machine.report call).machine) := by
  simp only [respond, perform_of_fits fits, plain]
  rw [Async.value_mapError, Async.state_mapError]
  rfl

theorem respond_toTables (machine : StateMachine S E C A)
    (call : Call E C) :
    (respond machine call).2.toTables = machine.toTables := by
  by_cases overflows : machine.Overflows call
  · obtain ⟨transition, timeout, settles, found, large⟩ := overflows
    change (perform machine call).state.machine.toTables = _
    rw [(perform_of_overflow settles found large).2]
    rfl
  · rw [respond_of_fits overflows]
    exact machine.report_toTables call

def invocations (trace : List (Effect S E C A)) : List (Effect S E C A) :=
  trace.filter fun
    | .invoked _ _ _ _ => true
    | _ => false

omit [StateVariant S] [EventVariant E] in
theorem mem_invocations_iff {trace : List (Effect S E C A)}
    {invocation : Invocation S E C A} {given left : C}
    {error : Option FsmError} :
    .invoked invocation given left error ∈ invocations trace ↔
      .invoked invocation given left error ∈ trace := by
  simp [invocations]

/-- A body that only arms the deadline, or fails to. -/
structure Finishing {Value : Type} (future : Future (World S E C A) Value)
    (world : World S E C A) : Prop where
  suspensions : future.suspensions = []
  context : future.state.context = world.context
  state : future.state.machine.currentState = world.machine.currentState
  trace : invocations future.state.trace = invocations world.trace

omit [StateVariant S] [EventVariant E] in
theorem invocations_append {trace added : List (Effect S E C A)}
    (silent : invocations added = []) :
    invocations (trace ++ added) = invocations trace := by
  rw [invocations, List.filter_append, ← invocations, ← invocations, silent,
    List.append_nil]

omit [EventVariant E] in
theorem finishing_finish (armed : Instant) (transition : Transition S A)
    (machine : StateMachine S E C A) (actions : List A)
    (world : World S E C A) :
    Finishing (finish armed (transition, machine, actions) world) world := by
  simp only [finish, StateMachine.scheduleTimeout]
  cases machine.timeoutHandlers.lookup
      (StateVariant.variantName transition.nextState) with
  | none => exact ⟨rfl, rfl, rfl, invocations_append rfl⟩
  | some timeout =>
      refine ⟨rfl, rfl, rfl, ?_⟩
      exact (invocations_append rfl).trans (invocations_append rfl)

omit [EventVariant E] in
theorem finishing_checkedFinish (armed : Instant)
    (transition : Transition S A) (machine : StateMachine S E C A)
    (actions : List A) (world : World S E C A) :
    Finishing (checkedFinish armed (transition, machine, actions) world)
      world := by
  cases found : machine.timeoutHandlers.lookup
      (StateVariant.variantName transition.nextState) with
  | none =>
      simp only [checkedFinish, scheduleTimeout, found]
      exact ⟨rfl, rfl, rfl, invocations_append rfl⟩
  | some timeout =>
      simp only [checkedFinish]
      rw [Async.run_bind, run_scheduleTimeout found]
      cases armed.checkedAdd timeout.1 with
      | none => exact ⟨rfl, rfl, rfl, invocations_append rfl⟩
      | some deadline =>
          refine ⟨rfl, rfl, rfl, ?_⟩
          exact (invocations_append rfl).trans (invocations_append rfl)

/-- The engines agree on everything but a panic and the deadline. -/
structure Alike {Value Result : Type}
    (future : Future (World S E C A) Result)
    (unchecked : Future (World S E C A) Value) : Prop where
  suspensions : future.suspensions = unchecked.suspensions
  context : future.state.context = unchecked.state.context
  state : future.state.machine.currentState =
    unchecked.state.machine.currentState
  trace : invocations future.state.trace = invocations unchecked.state.trace

omit [StateVariant S] [EventVariant E] in
theorem Alike.bind {Value Result Reply : Type}
    {future : Future (World S E C A) Value}
    {next : Value → World S E C A → Future (World S E C A) Result}
    {unchecked : Value → World S E C A → Future (World S E C A) Reply}
    (alike : Alike (next future.value future.state)
      (unchecked future.value future.state)) :
    Alike (future.bind next) (future.bind unchecked) where
  suspensions := by
    rw [Future.suspensions_bind, Future.suspensions_bind, alike.suspensions]
  context := by rw [Future.state_bind, Future.state_bind, alike.context]
  state := by rw [Future.state_bind, Future.state_bind, alike.state]
  trace := by rw [Future.state_bind, Future.state_bind, alike.trace]

theorem alike_perform (machine : StateMachine S E C A) (call : Call E C) :
    Alike (perform machine call) (machine.perform call) := by
  rw [perform_eq_serve, machine.perform_eq_serve]
  have plainly (selection : Selection S E C A) (world : World S E C A) :
      Alike (plain (StateMachine.serve call.armed selection) world)
        (StateMachine.serve call.armed selection world) := by
    have left := Async.state_mapError Interruption.returned
      (StateMachine.serve call.armed selection) world
    refine ⟨(Future.suspensions_bind _ _).trans (List.append_nil _),
      ?_, ?_, ?_⟩
    · exact congrArg World.context left
    · exact congrArg (fun world => world.machine.currentState) left
    · exact congrArg (fun world => invocations world.trace) left
  cases machine.select call with
  | idle => exact plainly .idle _
  | refuse error => exact plainly (.refuse error) _
  | absorb handler state event => exact plainly (.absorb handler _ _) _
  | fire trigger =>
      simp only [serve_fire, serve, plain]
      rw [Async.run_mapError_bind, Async.run_bind]
      refine Alike.bind ?_
      cases (arrive trigger
          ⟨machine, call.context, machine.preamble call⟩).value with
      | error error => exact ⟨rfl, rfl, rfl, rfl⟩
      | ok arrived =>
          obtain ⟨transition, entered, actions⟩ := arrived
          have checked := finishing_checkedFinish call.armed transition
            entered actions
          have unchecked := finishing_finish call.armed transition entered
            actions
          exact {
            suspensions :=
              (checked _).suspensions.trans (unchecked _).suspensions.symm
            context := (checked _).context.trans (unchecked _).context.symm
            state := (checked _).state.trans (unchecked _).state.symm
            trace := (checked _).trace.trans (unchecked _).trace.symm }

/-- A call ends as the unchecked one does, unless that one arms a deadline that
is not representable. -/
theorem respond_eq_guard (fits : machine.position.Fits Instant.limit) :
    (respond machine call).1 =
      (machine.report call).response.guard Instant.limit .returned .panicked
        machine.position := by
  by_cases overflows : machine.Overflows call
  · obtain ⟨transition, timeout, settles, found, large⟩ := overflows
    obtain ⟨panicked, moved⟩ := perform_of_overflow settles found large
    have alike := alike_perform machine call
    have armed : (machine.report call).machine =
        machine.settled transition.nextState call.armed := settles.settled
    have beyond :
        ¬ (machine.report call).response.position.Fits Instant.limit := by
      intro within
      refine large (within (call.armed + timeout.1) ?_)
      rw [Report.response, armed, position_settled, rearmed, found]
      rfl
    rw [Response.guard, if_neg beyond]
    simp only [respond, panicked, moved, alike.context, Report.response, armed]
    rfl
  · rw [respond_of_fits overflows, Response.guard, if_pos ?_]
    intro deadline held
    rw [Report.response] at held
    cases machine.ending call with
    | stayed absent unchanged suspended =>
        rw [unchanged] at held
        exact fits deadline held
    | entryFailed reached failed result moved suspended =>
        rw [moved] at held
        exact fits deadline held
    | completed reached entered succeeded settled suspended suspends =>
        rw [settled] at held
        obtain ⟨timeout, found, rfl⟩ := Option.map_eq_some_iff.mp held
        by_contra large
        exact overflows ⟨_, timeout, ⟨_, _, reached, entered⟩, found, large⟩

/-- What a host can bring a machine to with calls that read the clock until the
horizon, also when it goes on after a panic. -/
inductive Reachable (horizon : Instant) (machine : StateMachine S E C A) :
    StateMachine S E C A → Prop
  | start : Reachable horizon machine machine
  | completed (reachable : Reachable horizon machine reached)
      (call : Call E C)
      (within : ∀ reading ∈ call.readings, reading ≤ horizon) :
      Reachable horizon machine (respond reached call).2
  | dropped (reachable : Reachable horizon machine reached)
      (call : Call E C) (within : ∀ reading ∈ call.readings, reading ≤ horizon)
      (dropped : (perform reached call).DroppedAt left) :
      Reachable horizon machine left.machine

theorem Reachable.toTables {horizon : Instant}
    {machine reached : StateMachine S E C A}
    (reachable : Reachable horizon machine reached) :
    reached.toTables = machine.toTables := by
  induction reachable with
  | start => rfl
  | completed reachable call within induction =>
      rw [respond_toTables, induction]
  | dropped reachable call within dropped induction =>
      rw [Future.droppedAt_iff_mem_suspensions,
        (alike_perform _ call).suspensions] at dropped
      rw [StateMachine.suspended_toTables (List.mem_map_of_mem dropped),
        induction]

/-! ### Runs -/

/-- A run in which no deadline overflows is the run of the unchecked engine. -/
theorem outputs_of_fits (machine : StateMachine S E C A)
    (calls : List (Call E C))
    (fits : ∀ visit ∈ Trajectory.visits respond machine calls,
      ¬ visit.1.Overflows visit.2) :
    Trajectory.outputs respond machine calls =
      (Trajectory.outputs StateMachine.respond machine calls).map
        (Response.mapError .returned) := by
  induction calls generalizing machine with
  | nil => rfl
  | cons call rest induction =>
      obtain ⟨first, later⟩ := List.forall_mem_cons.mp fits
      have same := respond_of_fits first
      simp only [Trajectory.outputs_cons, List.map_cons]
      rw [same] at later ⊢
      exact congrArg (List.cons _) (induction _ later)

theorem forall_ne_panicked_iff (machine : StateMachine S E C A)
    (calls : List (Call E C)) :
    (∀ response ∈ Trajectory.outputs respond machine calls,
        response.result ≠ .error .panicked) ↔
      ∀ visit ∈ Trajectory.visits respond machine calls,
        ¬ visit.1.Overflows visit.2 := by
  rw [Trajectory.outputs_eq_map_visits, List.forall_mem_map]
  refine forall₂_congr fun visit _ => not_congr ?_
  exact panics_iff

/-- The two engines answer a run alike exactly if none of its deadlines
overflows. -/
theorem outputs_eq_iff (machine : StateMachine S E C A)
    (calls : List (Call E C)) :
    Trajectory.outputs respond machine calls =
        (Trajectory.outputs StateMachine.respond machine calls).map
          (Response.mapError .returned) ↔
      ∀ visit ∈ Trajectory.visits respond machine calls,
        ¬ visit.1.Overflows visit.2 := by
  refine ⟨?_, outputs_of_fits machine calls⟩
  intro same
  rw [← forall_ne_panicked_iff, same, List.forall_mem_map]
  intro response _ panicked
  simp only [Response.mapError] at panicked
  cases answered : response.result with
  | ok actions =>
      rw [answered] at panicked
      cases panicked
  | error error =>
      rw [answered] at panicked
      cases panicked

theorem visits_toTables (machine : StateMachine S E C A)
    (calls : List (Call E C)) :
    ∀ visit ∈ Trajectory.visits respond machine calls,
      visit.1.toTables = machine.toTables :=
  Trajectory.visits_invariant
    (fun reached : StateMachine S E C A =>
      reached.toTables = machine.toTables) rfl
    (fun reached call tables =>
      (respond_toTables reached call).trans tables)
    calls

end Checked

section Chains

variable [StateVariant S] [EventVariant E] (chain : Chain S E C A .fsm)

/-- Deadlines fit that stay representable with every configured duration. -/
theorem Chain.run_fits {chain : Chain S E C A .fsm} {now : Instant}
    {machine : StateMachine S E C A}
    (built : chain.eval.tryBuild now = .ok machine) {calls : List (Call E C)}
    (short : ∀ call ∈ calls, ∀ timeout ∈ chain.registrations.timeouts,
      Instant.Representable (call.armed + timeout.2.1)) :
    ∀ visit ∈ Trajectory.visits Checked.respond machine calls,
      ¬ visit.1.Overflows visit.2 := by
  intro visit member overflows
  obtain ⟨transition, timeout, _, found, large⟩ := overflows
  have holds : visit.1.toTables.Hold chain.registrations := by
    rw [Checked.visits_toTables machine calls visit member]
    exact chain.hold_of_built built
  rw [holds.timeouts] at found
  exact large (short visit.2 (Trajectory.mem_of_mem_visits visit member) _
    (mem_of_latest found))

def Chain.CheckedReaches (horizon : Instant)
    (reached : StateMachine S E C A) : Prop :=
  ∃ now machine, now ≤ horizon ∧
    Checked.tryBuild chain.eval now = .ok machine ∧
    Checked.Reachable horizon machine reached

theorem Chain.CheckedReaches.hold {chain : Chain S E C A .fsm}
    {horizon : Instant} {reached : StateMachine S E C A}
    (reaches : chain.CheckedReaches horizon reached) :
    reached.toTables.Hold chain.registrations := by
  obtain ⟨now, machine, _, built, reachable⟩ := reaches
  rw [reachable.toTables]
  exact chain.hold_of_built ((chain.checked_built_iff now).mp built).1

/-- As long as the clock reads no more than the horizon, neither a build nor a
call on a machine that can be reached panics. -/
structure Chain.ArmsDeadlines (horizon : Instant) : Prop where
  builds : ∀ now ≤ horizon,
    Checked.tryBuild chain.eval now ≠ .error .panicked
  serves : ∀ reached, chain.CheckedReaches horizon reached →
    ∀ call : Call E C, (∀ reading ∈ call.readings, reading ≤ horizon) →
      (Checked.perform reached call).value ≠ .error .panicked

/-- The variants whose deadline is armed at construction, or by some call that
reads the clock until the horizon. -/
inductive Chain.Arms (horizon : Instant) : String → Prop
  | initial (unrecorded : chain.registrations.firstRecorded = none) :
      Arms horizon (StateVariant.variantName chain.initialState)
  | entered {call : Call E C} {transition : Transition S A}
      (reaches : chain.CheckedReaches horizon reached)
      (within : ∀ reading ∈ call.readings, reading ≤ horizon)
      (settles : reached.Settles call transition) :
      Arms horizon (StateVariant.variantName transition.nextState)

/-- A call may arm the deadline later than it does. -/
def Call.armedAt (armed : Instant) : Call E C → Call E C
  | .handle event context _ => .handle event context armed
  | .checkTimeout context polled _ => .checkTimeout context polled armed

theorem StateMachine.Settles.armedAt {machine : StateMachine S E C A}
    {call : Call E C} {transition : Transition S A}
    (settles : machine.Settles call transition) (armed : Instant) :
    machine.Settles (call.armedAt armed) transition := by
  cases call with
  | handle event context reading => exact settles
  | checkTimeout context polled reading => exact settles

theorem Instant.Representable.mono {earlier later : Instant}
    (fits : later.Representable) (before : earlier ≤ later) :
    earlier.Representable :=
  Nat.lt_of_le_of_lt before fits

/-- Nothing panics until the horizon exactly if every duration that can be
armed by then is short enough to be added to the horizon itself. -/
theorem Chain.armsDeadlines_iff (horizon : Instant) :
    chain.ArmsDeadlines horizon ↔
      ∀ name timeout, chain.Arms horizon name →
        latest chain.registrations.timeouts name = some timeout →
          Instant.Representable (horizon + timeout.1) := by
  constructor
  · intro arms name timeout armed found
    by_contra large
    cases armed with
    | initial unrecorded =>
        exact arms.builds horizon le_rfl
          ((chain.tryBuild_panics_iff horizon).mpr
            ⟨unrecorded, timeout, found, large⟩)
    | entered reaches within settles =>
        rename_i reached call transition
        -- The same call panics when it arms the deadline at the horizon.
        refine arms.serves reached reaches (call.armedAt horizon) ?_
          (Checked.panics_iff.mpr
            ⟨transition, timeout, settles.armedAt horizon, ?_, ?_⟩)
        · cases call with
          | handle event context reading =>
              simp [Call.armedAt, Call.readings]
          | checkTimeout context polled reading =>
              simpa [Call.armedAt, Call.readings] using
                within polled List.mem_cons_self
        · rwa [reaches.hold.timeouts]
        · cases call with
          | handle event context reading => exact large
          | checkTimeout context polled reading => exact large
  · intro short
    constructor
    · intro now before panicked
      obtain ⟨unrecorded, timeout, found, large⟩ :=
        (chain.tryBuild_panics_iff now).mp panicked
      exact large ((short _ timeout (.initial unrecorded) found).mono
        (Nat.add_le_add_right before timeout.1))
    · intro reached reaches call within panicked
      obtain ⟨transition, timeout, settles, found, large⟩ :=
        Checked.panics_iff.mp panicked
      rw [reaches.hold.timeouts] at found
      refine large ((short _ timeout (.entered reaches within settles)
        found).mono (Nat.add_le_add_right (within call.armed ?_) timeout.1))
      cases call with
      | handle event context reading => exact List.mem_cons_self
      | checkTimeout context polled reading =>
          exact List.mem_cons_of_mem _ List.mem_cons_self

end Chains

/-! ### A door that is to stay open for good -/

namespace Door

theorem openForGood_overflows
    (hook : StateHandler DoorState DoorContext DoorAction)
    (greets : (hook .opened {}).value = .ok actions) :
    ((openForGood hook).eval.machine 0).Overflows (.handle .opening {} 0) := by
  refine ⟨⟨.opened, [.ring, .log "Door opened"]⟩, (longest, autoClose), ?_,
    rfl, ?_⟩
  · exact ⟨{}, actions, rfl, greets⟩
  · decide

theorem openForGood_not_armsDeadlines :
    ¬ (openForGood greet).ArmsDeadlines 0 := by
  intro arms
  refine arms.serves ((openForGood greet).eval.machine 0)
    ⟨0, _, le_rfl, rfl, .start⟩ (.handle .opening {} 0)
    (by simp [Call.readings]) ?_
  exact Checked.panics_iff.mpr (openForGood_overflows greet rfl)

end Door

end ObzenflowFsm
