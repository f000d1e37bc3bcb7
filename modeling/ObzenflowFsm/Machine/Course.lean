import ObzenflowFsm.Machine

namespace ObzenflowFsm

open Polling

variable {S E C A : Type}

inductive Selection (S E C A : Type) where
  | idle
  | refuse (error : FsmError)
  | absorb (handler : UnhandledHandler S E C) (state : S) (event : E)
  | fire (trigger : Trigger S E C A)

/-- What a completed call leaves: its result, the machine and the context, its
effects, and the machine as it stood whenever the call was suspended. -/
structure Report (S E C A : Type) where
  result : FsmResult (List A)
  machine : StateMachine S E C A
  context : C
  trace : List (Effect S E C A)
  suspended : List (StateMachine S E C A)

/-- The actions a call returns; none with an error. -/
def Report.returned (report : Report S E C A) : List A :=
  match report.result with
  | .ok actions => actions
  | .error _ => []

namespace StateMachine

variable [StateVariant S] [EventVariant E]

def selectEvent (machine : StateMachine S E C A) (event : E) :
    Selection S E C A :=
  let stateName := StateVariant.variantName machine.currentState
  let eventName := EventVariant.variantName event
  match machine.transitions.lookup (stateName, eventName) with
  | some handler =>
      .fire (.transition (stateName, eventName) handler machine.currentState event)
  | none =>
      match machine.transitions.lookup ("_", eventName) with
      | some handler =>
          .fire (.transition ("_", eventName) handler machine.currentState event)
      | none =>
          match machine.unhandledHandler with
          | some handler => .absorb handler machine.currentState event
          | none => .refuse (.unhandledEvent stateName eventName)

def selectTimeout (machine : StateMachine S E C A) (polled : Instant) :
    Selection S E C A :=
  let stateName := StateVariant.variantName machine.currentState
  match machine.stateTimeout, machine.timeoutHandlers.lookup stateName with
  | some deadline, some (_, handler) =>
      if deadline ≤ polled then
        .fire (.timeout stateName handler machine.currentState)
      else .idle
  | _, _ => .idle

def select (machine : StateMachine S E C A) : Call E C → Selection S E C A
  | .handle event _ _ => machine.selectEvent event
  | .checkTimeout _ polled _ => machine.selectTimeout polled

def preamble (machine : StateMachine S E C A) :
    Call E C → List (Effect S E C A)
  | .handle _ _ _ => []
  | .checkTimeout _ polled _ =>
      match machine.stateTimeout with
      | some _ => [.clock polled]
      | none => []

def hooks (machine : StateMachine S E C A) : Side → StateHandlerMap S C A
  | .exit => machine.exitHandlers
  | .entry => machine.entryHandlers

/-- The hook a state's variant has on one side; a missing hook does nothing. -/
def hookFuture (machine : StateMachine S E C A) (side : Side) (state : S)
    (context : C) : BoxFuture C (FsmResult (List A)) :=
  match (machine.hooks side).lookup (StateVariant.variantName state) with
  | some handler => handler state context
  | none => .ready (.ok []) context

def hookTrace (machine : StateMachine S E C A) (side : Side) (state : S)
    (context : C) : List (Effect S E C A) :=
  match (machine.hooks side).lookup (StateVariant.variantName state) with
  | some handler =>
      [.invoked (.hook side (StateVariant.variantName state) handler state)
        context (handler state context).state
        (errorOf (handler state context).value)]
  | none => []

def rearmed (machine : StateMachine S E C A) (state : S) (armed : Instant) :
    Option Instant :=
  (machine.timeoutHandlers.lookup (StateVariant.variantName state)).map
    fun timeout => armed + timeout.1

def rearmTrace (machine : StateMachine S E C A) (state : S)
    (armed : Instant) : List (Effect S E C A) :=
  match machine.timeoutHandlers.lookup (StateVariant.variantName state) with
  | some (duration, _) =>
      [.clock armed, .assignTimeout (some (armed + duration))]
  | none => [.assignTimeout none]

/-- The transition with which a call reaches the assignment of the current
state, and the context its entry hook is then given. -/
def entering (machine : StateMachine S E C A) (call : Call E C) :
    Option (Transition S A × C) :=
  match machine.select call with
  | .fire trigger =>
      let replied := trigger.future call.context
      match replied.value with
      | .ok transition =>
          let left :=
            machine.hookFuture .exit machine.currentState replied.state
          match left.value with
          | .ok _ => some (transition, left.state)
          | .error _ => none
      | .error _ => none
  | _ => none

def report (machine : StateMachine S E C A) (call : Call E C) :
    Report S E C A :=
  let future := machine.perform call
  { result := future.value
    machine := future.state.machine
    context := future.state.context
    trace := future.state.trace
    suspended := future.suspensions.map World.machine }

def serve (armed : Instant) :
    Selection S E C A → Engine S E C A (List A)
  | .idle => pure []
  | .refuse error => Async.fail error
  | .absorb handler state event => do
      invoke (.unhandled handler state event)
      return []
  | .fire trigger => do
      let transition ← invoke (.trigger trigger)
      applyTransition armed transition

end StateMachine

/-! ### The two entry points select, then serve -/

theorem run_now (reading : Instant) (world : World S E C A) :
    now reading world = .ready (.ok reading) (world.record (.clock reading)) :=
  rfl

theorem run_self (world : World S E C A) :
    self world = .ready (.ok world.machine) world := rfl

theorem run_assignState (state : S) (world : World S E C A) :
    assignState state world =
      .ready (.ok ())
        ({ world with machine := { world.machine with currentState := state } }.record
          (.assignState state)) := rfl

namespace StateMachine

variable [StateVariant S]

theorem checkTimeout_eq_serve (machine : StateMachine S E C A) (context : C)
    (polled armed : Instant) :
    checkTimeout polled armed ⟨machine, context, []⟩ =
      serve armed (machine.selectTimeout polled)
        ⟨machine, context,
          machine.preamble (.checkTimeout (E := E) context polled armed)⟩ := by
  simp only [checkTimeout, selectTimeout, preamble]
  rw [Async.run_instant (run_self _)]
  cases machine.stateTimeout with
  | none => rfl
  | some deadline =>
      simp only [Async.run_instant (run_now polled _)]
      by_cases reached : deadline ≤ polled
      · rw [if_pos reached]
        cases machine.timeoutHandlers.lookup
            (StateVariant.variantName machine.currentState) with
        | none => rfl
        | some timeout =>
            simp only [if_pos reached]
            rfl
      · rw [if_neg reached]
        cases machine.timeoutHandlers.lookup
            (StateVariant.variantName machine.currentState) with
        | none => rfl
        | some timeout =>
            simp only [if_neg reached]
            rfl

variable [EventVariant E]

theorem handle_eq_serve (machine : StateMachine S E C A) (event : E)
    (context : C) (armed : Instant) (trace : List (Effect S E C A)) :
    handle armed event ⟨machine, context, trace⟩ =
      serve armed (machine.selectEvent event) ⟨machine, context, trace⟩ := by
  simp only [handle, selectEvent]
  rw [Async.run_instant (run_self _)]
  cases machine.transitions.lookup
      (StateVariant.variantName machine.currentState,
        EventVariant.variantName event) with
  | some handler => rfl
  | none =>
      cases machine.transitions.lookup
          ("_", EventVariant.variantName event) with
      | some handler => rfl
      | none =>
          cases machine.unhandledHandler with
          | some handler => rfl
          | none => rfl

theorem perform_eq_serve (machine : StateMachine S E C A)
    (call : Call E C) :
    machine.perform call =
      serve call.armed (machine.select call)
        ⟨machine, call.context, machine.preamble call⟩ := by
  cases call with
  | handle event context armed =>
      exact handle_eq_serve machine event context armed []
  | checkTimeout context polled armed =>
      exact checkTimeout_eq_serve machine context polled armed

/-! ### The ways a call can go -/

def moved (machine : StateMachine S E C A) (state : S) :
    StateMachine S E C A :=
  { machine with currentState := state }

def settled (machine : StateMachine S E C A) (state : S) (armed : Instant) :
    StateMachine S E C A :=
  { machine with
    currentState := state
    stateTimeout := machine.rearmed state armed }

/-- Everything a call can do, with the condition under which it does it. The
machine is suspended unchanged until the old state has been left, and with the
new state but the old deadline while the entry hook is pending. -/
inductive Course (machine : StateMachine S E C A) (call : Call E C) :
    Report S E C A → Prop
  | idle (selected : machine.select call = .idle) :
      Course machine call
        { result := .ok []
          machine := machine
          context := call.context
          trace := machine.preamble call
          suspended := [] }
  | refused (selected : machine.select call = .refuse error) :
      Course machine call
        { result := .error error
          machine := machine
          context := call.context
          trace := machine.preamble call
          suspended := [] }
  | absorbed (selected : machine.select call = .absorb handler state event)
      (answered : (handler state event call.context).Completes result final
        suspensions) :
      Course machine call
        { result := result.map fun _ => []
          machine := machine
          context := final
          trace := machine.preamble call ++
            [.invoked (.unhandled handler state event) call.context final
              (errorOf result)]
          suspended := suspensions.map fun _ => machine }
  | declined (selected : machine.select call = .fire trigger)
      (failed : (trigger.future call.context).Completes (.error error) final
        suspensions) :
      Course machine call
        { result := .error error
          machine := machine
          context := final
          trace := machine.preamble call ++
            [.invoked (.trigger trigger) call.context final (some error)]
          suspended := suspensions.map fun _ => machine }
  | exitFailed {transition : Transition S A}
      (selected : machine.select call = .fire trigger)
      (answered : (trigger.future call.context).Completes (.ok transition)
        replied suspensions)
      (failed :
        (machine.hookFuture .exit machine.currentState replied).Completes
          (.error error) final exitSuspensions) :
      Course machine call
        { result := .error error
          machine := machine
          context := final
          trace := machine.preamble call ++
            [.invoked (.trigger trigger) call.context replied none] ++
            machine.hookTrace .exit machine.currentState replied
          suspended := suspensions.map (fun _ => machine) ++
            exitSuspensions.map fun _ => machine }
  | entryFailed (selected : machine.select call = .fire trigger)
      (answered : (trigger.future call.context).Completes (.ok transition)
        replied suspensions)
      (exited :
        (machine.hookFuture .exit machine.currentState replied).Completes
          (.ok exitActions) left exitSuspensions)
      (failed :
        (machine.hookFuture .entry transition.nextState left).Completes
          (.error error) final entrySuspensions) :
      Course machine call
        { result := .error error
          machine := machine.moved transition.nextState
          context := final
          trace := machine.preamble call ++
            [.invoked (.trigger trigger) call.context replied none] ++
            machine.hookTrace .exit machine.currentState replied ++
            [.assignState transition.nextState] ++
            machine.hookTrace .entry transition.nextState left
          suspended := suspensions.map (fun _ => machine) ++
            (exitSuspensions.map (fun _ => machine) ++
              entrySuspensions.map
                fun _ => machine.moved transition.nextState) }
  | completed (selected : machine.select call = .fire trigger)
      (answered : (trigger.future call.context).Completes (.ok transition)
        replied suspensions)
      (exited :
        (machine.hookFuture .exit machine.currentState replied).Completes
          (.ok exitActions) left exitSuspensions)
      (entered :
        (machine.hookFuture .entry transition.nextState left).Completes
          (.ok entryActions) final entrySuspensions) :
      Course machine call
        { result := .ok (exitActions ++ entryActions ++ transition.actions)
          machine := machine.settled transition.nextState call.armed
          context := final
          trace := machine.preamble call ++
            [.invoked (.trigger trigger) call.context replied none] ++
            machine.hookTrace .exit machine.currentState replied ++
            [.assignState transition.nextState] ++
            machine.hookTrace .entry transition.nextState left ++
            machine.rearmTrace transition.nextState call.armed
          suspended := suspensions.map (fun _ => machine) ++
            (exitSuspensions.map (fun _ => machine) ++
              entrySuspensions.map
                fun _ => machine.moved transition.nextState) }

end StateMachine

/-! ### Every call takes one of them -/

theorem invoke_completes (invocation : Invocation S E C A)
    (world : World S E C A) :
    (invoke invocation world).Completes
      (invocation.future world.context).value
      ((world.holding (invocation.future world.context).state).record
        (.invoked invocation world.context
          (invocation.future world.context).state
          (errorOf (invocation.future world.context).value)))
      ((invocation.future world.context).suspensions.map world.holding) where
  value_eq := by simp [invoke]
  state_eq := by simp [invoke, World.holding]
  suspensions_eq := by simp [invoke]

private theorem map_machine_holding (world : World S E C A)
    (contexts : List C) :
    (contexts.map world.holding).map World.machine =
      contexts.map fun _ => world.machine := by
  rw [List.map_map]
  rfl

namespace StateMachine

variable [StateVariant S]

theorem awaitHook_completes (machine : StateMachine S E C A) (side : Side)
    (state : S) (world : World S E C A) :
    (awaitHook side (machine.hooks side) (StateVariant.variantName state) state
        world).Completes
      (machine.hookFuture side state world.context).value
      { machine := world.machine
        context := (machine.hookFuture side state world.context).state
        trace := world.trace ++ machine.hookTrace side state world.context }
      ((machine.hookFuture side state world.context).suspensions.map
        world.holding) := by
  unfold awaitHook hookFuture hookTrace
  cases (machine.hooks side).lookup (StateVariant.variantName state) with
  | none =>
      simp only [List.append_nil]
      exact ⟨rfl, rfl, rfl⟩
  | some handler =>
      exact invoke_completes (.hook side _ handler state) world

theorem run_scheduleTimeout (machine : StateMachine S E C A) (state : S)
    (armed : Instant) (world : World S E C A) :
    scheduleTimeout machine.timeoutHandlers (StateVariant.variantName state)
        armed world =
      .ready (.ok ())
        { machine :=
            { world.machine with stateTimeout := machine.rearmed state armed }
          context := world.context
          trace := world.trace ++ machine.rearmTrace state armed } := by
  unfold scheduleTimeout rearmed rearmTrace
  cases machine.timeoutHandlers.lookup (StateVariant.variantName state) with
  | none => rfl
  | some timeout =>
      simp only [Async.run_bind, run_now]
      change Future.ready _ _ = Future.ready _ _
      simp [World.record]

theorem applyTransition_exitFailed {machine : StateMachine S E C A}
    {transition : Transition S A} {replied final : C} {error : FsmError}
    (armed : Instant) (trace : List (Effect S E C A))
    (failed :
      (machine.hookFuture .exit machine.currentState replied).Completes
        (.error error) final suspensions) :
    (applyTransition armed transition ⟨machine, replied, trace⟩).Completes
      (.error error)
      { machine := machine
        context := final
        trace := trace ++
          machine.hookTrace .exit machine.currentState replied }
      (suspensions.map (World.holding ⟨machine, replied, trace⟩)) := by
  have leaves := awaitHook_completes machine .exit machine.currentState
    ⟨machine, replied, trace⟩
  simp only [failed.value_eq, failed.state_eq, failed.suspensions_eq] at leaves
  refine Async.completes_instant (run_self _) ?_
  exact Async.completes_stop _ leaves

theorem applyTransition_entryFailed {machine : StateMachine S E C A}
    {transition : Transition S A} {replied left : C} {exitActions : List A}
    {error : FsmError} (armed : Instant) (trace : List (Effect S E C A))
    (exited :
      (machine.hookFuture .exit machine.currentState replied).Completes
        (.ok exitActions) left exitSuspensions)
    (failed :
      (machine.hookFuture .entry transition.nextState left).Completes
        (.error error) final entrySuspensions) :
    (applyTransition armed transition ⟨machine, replied, trace⟩).Completes
      (.error error)
      { machine := machine.moved transition.nextState
        context := final
        trace := trace ++
          machine.hookTrace .exit machine.currentState replied ++
          [.assignState transition.nextState] ++
          machine.hookTrace .entry transition.nextState left }
      (exitSuspensions.map (World.holding ⟨machine, replied, trace⟩) ++
        entrySuspensions.map
          (World.holding
            { machine := machine.moved transition.nextState
              context := left
              trace := trace ++
                machine.hookTrace .exit machine.currentState replied ++
                [.assignState transition.nextState] })) := by
  have leaves := awaitHook_completes machine .exit machine.currentState
    ⟨machine, replied, trace⟩
  have enters := awaitHook_completes machine .entry transition.nextState
    { machine := machine.moved transition.nextState
      context := left
      trace := trace ++
        machine.hookTrace .exit machine.currentState replied ++
        [.assignState transition.nextState] }
  simp only [exited.value_eq, exited.state_eq, exited.suspensions_eq] at leaves
  simp only [failed.value_eq, failed.state_eq, failed.suspensions_eq] at enters
  refine Async.completes_instant (run_self _) ?_
  refine Async.completes_step leaves ?_
  refine Async.completes_instant (run_assignState _ _) ?_
  refine Async.completes_instant (run_self _) ?_
  exact Async.completes_stop _ enters

theorem applyTransition_completed {machine : StateMachine S E C A}
    {transition : Transition S A} {replied left final : C}
    {exitActions entryActions : List A} (armed : Instant)
    (trace : List (Effect S E C A))
    (exited :
      (machine.hookFuture .exit machine.currentState replied).Completes
        (.ok exitActions) left exitSuspensions)
    (entered :
      (machine.hookFuture .entry transition.nextState left).Completes
        (.ok entryActions) final entrySuspensions) :
    (applyTransition armed transition ⟨machine, replied, trace⟩).Completes
      (.ok (exitActions ++ entryActions ++ transition.actions))
      { machine := machine.settled transition.nextState armed
        context := final
        trace := trace ++
          machine.hookTrace .exit machine.currentState replied ++
          [.assignState transition.nextState] ++
          machine.hookTrace .entry transition.nextState left ++
          machine.rearmTrace transition.nextState armed }
      (exitSuspensions.map (World.holding ⟨machine, replied, trace⟩) ++
        entrySuspensions.map
          (World.holding
            { machine := machine.moved transition.nextState
              context := left
              trace := trace ++
                machine.hookTrace .exit machine.currentState replied ++
                [.assignState transition.nextState] })) := by
  have leaves := awaitHook_completes machine .exit machine.currentState
    ⟨machine, replied, trace⟩
  have enters := awaitHook_completes machine .entry transition.nextState
    { machine := machine.moved transition.nextState
      context := left
      trace := trace ++
        machine.hookTrace .exit machine.currentState replied ++
        [.assignState transition.nextState] }
  simp only [exited.value_eq, exited.state_eq, exited.suspensions_eq] at leaves
  simp only [entered.value_eq, entered.state_eq, entered.suspensions_eq]
    at enters
  have ends := run_scheduleTimeout (machine.moved transition.nextState)
    transition.nextState armed
    { machine := machine.moved transition.nextState
      context := final
      trace := trace ++
        machine.hookTrace .exit machine.currentState replied ++
        [.assignState transition.nextState] ++
        machine.hookTrace .entry transition.nextState left }
  refine Async.completes_instant (run_self _) ?_
  refine Async.completes_step leaves ?_
  refine Async.completes_instant (run_assignState _ _) ?_
  refine Async.completes_instant (run_self _) ?_
  rw [← List.append_nil (entrySuspensions.map _)]
  refine Async.completes_step enters ?_
  exact Async.completes_instant ends (Async.completes_pure _ _)

variable [EventVariant E]

theorem report_eq {machine : StateMachine S E C A} {call : Call E C}
    {selection : Selection S E C A} {result : FsmResult (List A)}
    {left : World S E C A} {suspensions : List (World S E C A)}
    (selected : machine.select call = selection)
    (completes :
      (serve call.armed selection
        ⟨machine, call.context, machine.preamble call⟩).Completes
          result left suspensions) :
    machine.report call =
      { result := result
        machine := left.machine
        context := left.context
        trace := left.trace
        suspended := suspensions.map World.machine } := by
  subst selected
  rw [← perform_eq_serve] at completes
  simp only [report, completes.value_eq, completes.state_eq,
    completes.suspensions_eq]

private theorem course_absorbed {machine : StateMachine S E C A}
    {call : Call E C} {handler : UnhandledHandler S E C} {state : S} {event : E}
    (selected : machine.select call = .absorb handler state event) :
    machine.Course call (machine.report call) := by
  have answers := Future.Completes.self (handler state event call.context)
  have invoked := invoke_completes (.unhandled handler state event)
    (⟨machine, call.context, machine.preamble call⟩ : World S E C A)
  simp only [Invocation.future] at invoked
  cases answered : (handler state event call.context).value with
  | ok value =>
      rw [answered] at answers invoked
      rw [report_eq selected
        (Async.completes_step invoked (Async.completes_pure [] _)),
        List.append_nil, map_machine_holding]
      exact .absorbed selected answers
  | error error =>
      rw [answered] at answers invoked
      rw [report_eq selected (Async.completes_stop _ invoked),
        map_machine_holding]
      exact .absorbed selected answers

private theorem course_fired {machine : StateMachine S E C A}
    {call : Call E C} {trigger : Trigger S E C A}
    (selected : machine.select call = .fire trigger) :
    machine.Course call (machine.report call) := by
  have answers := Future.Completes.self (trigger.future call.context)
  have invoked := invoke_completes (.trigger trigger)
    (⟨machine, call.context, machine.preamble call⟩ : World S E C A)
  simp only [Invocation.future] at invoked
  cases answered : (trigger.future call.context).value with
  | error error =>
      rw [answered] at answers invoked
      rw [report_eq selected (Async.completes_stop _ invoked),
        map_machine_holding]
      exact .declined selected answers
  | ok transition =>
      rw [answered] at answers invoked
      have leaves := Future.Completes.self
        (machine.hookFuture .exit machine.currentState
          (trigger.future call.context).state)
      cases exited :
          (machine.hookFuture .exit machine.currentState
            (trigger.future call.context).state).value with
      | error error =>
          rw [exited] at leaves
          rw [report_eq selected (Async.completes_step invoked
              (applyTransition_exitFailed call.armed _ leaves)),
            List.map_append, map_machine_holding, map_machine_holding]
          exact .exitFailed selected answers leaves
      | ok exitActions =>
          rw [exited] at leaves
          have enters := Future.Completes.self
            (machine.hookFuture .entry transition.nextState
              (machine.hookFuture .exit machine.currentState
                (trigger.future call.context).state).state)
          cases entered :
              (machine.hookFuture .entry transition.nextState
                (machine.hookFuture .exit machine.currentState
                  (trigger.future call.context).state).state).value with
          | error error =>
              rw [entered] at enters
              rw [report_eq selected (Async.completes_step invoked
                (applyTransition_entryFailed call.armed _ leaves enters))]
              simp only [List.map_append, map_machine_holding]
              exact .entryFailed selected answers leaves enters
          | ok entryActions =>
              rw [entered] at enters
              rw [report_eq selected (Async.completes_step invoked
                (applyTransition_completed call.armed _ leaves enters))]
              simp only [List.map_append, map_machine_holding]
              exact .completed selected answers leaves enters

theorem course (machine : StateMachine S E C A) (call : Call E C) :
    machine.Course call (machine.report call) := by
  cases selected : machine.select call with
  | idle =>
      rw [report_eq selected (Async.completes_pure [] _)]
      exact .idle selected
  | refuse error =>
      rw [report_eq selected (Async.completes_fail error _)]
      exact .refused selected
  | absorb handler state event => exact course_absorbed selected
  | fire trigger => exact course_fired selected

end StateMachine

end ObzenflowFsm
