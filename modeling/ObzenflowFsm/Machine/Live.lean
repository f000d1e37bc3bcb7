import ObzenflowFsm.Data.Prospect
import ObzenflowFsm.Machine.Checked

namespace ObzenflowFsm

open Polling

namespace Live

/-! The engine with handlers whose futures may never complete. -/

variable {S E C A : Type}

abbrev BoxFuture (C Value : Type) : Type := Prospect C Value

abbrev TransitionHandler (S E C A : Type) : Type :=
  S → E → C → BoxFuture C (FsmResult (Transition S A))

abbrev StateHandler (S C A : Type) : Type :=
  S → C → BoxFuture C (FsmResult (List A))

abbrev TimeoutHandler (S C A : Type) : Type :=
  S → C → BoxFuture C (FsmResult (Transition S A))

abbrev UnhandledHandler (S E C : Type) : Type :=
  S → E → C → BoxFuture C (FsmResult Unit)

abbrev StateHandlerMap (S C A : Type) : Type :=
  HashMap String (StateHandler S C A)

abbrev TimeoutHandlerMap (S C A : Type) : Type :=
  HashMap String (Duration × TimeoutHandler S C A)

structure StateMachine (S E C A : Type) where
  currentState : S
  transitions : HashMap (String × String) (TransitionHandler S E C A)
  entryHandlers : StateHandlerMap S C A
  exitHandlers : StateHandlerMap S C A
  timeoutHandlers : TimeoutHandlerMap S C A
  unhandledHandler : Option (UnhandledHandler S E C)
  stateTimeout : Option Instant

structure World (S E C A : Type) where
  machine : StateMachine S E C A
  context : C

abbrev Engine (S E C A Value : Type) : Type :=
  Task (World S E C A) Interruption Value

def World.holding (world : World S E C A) (context : C) : World S E C A :=
  { world with context := context }

/-- `handler(..).await?` -/
def invoke {Value : Type} (handler : C → BoxFuture C (FsmResult Value)) :
    Engine S E C A Value :=
  fun world =>
    ((handler world.context).within world.holding).bind fun result left =>
      .ready (result.mapError .returned) left

def self : Engine S E C A (StateMachine S E C A) := do
  return (← Task.read).machine

def assignState (state : S) : Engine S E C A Unit :=
  Task.modify fun world =>
    { world with machine := { world.machine with currentState := state } }

def assignTimeout (deadline : Option Instant) : Engine S E C A Unit :=
  Task.modify fun world =>
    { world with machine := { world.machine with stateTimeout := deadline } }

section Engine

variable [StateVariant S] [EventVariant E]

def awaitHook (handlers : StateHandlerMap S C A) (stateName : String)
    (state : S) : Engine S E C A (List A) :=
  match handlers.lookup stateName with
  | some handler => invoke (handler state)
  | none => pure []

def scheduleTimeout (handlers : TimeoutHandlerMap S C A) (stateName : String)
    (armed : Instant) : Engine S E C A Unit :=
  match handlers.lookup stateName with
  | some (duration, _) =>
      match armed.checkedAdd duration with
      | some deadline => assignTimeout (some deadline)
      | none => Task.fail .panicked
  | none => assignTimeout none

def applyTransition (armed : Instant) (transition : Transition S A) :
    Engine S E C A (List A) := do
  let machine ← self
  let oldStateName := StateVariant.variantName machine.currentState
  let newStateName := StateVariant.variantName transition.nextState
  let exitActions ←
    awaitHook machine.exitHandlers oldStateName machine.currentState
  assignState transition.nextState
  let machine ← self
  let entryActions ←
    awaitHook machine.entryHandlers newStateName machine.currentState
  scheduleTimeout machine.timeoutHandlers newStateName armed
  return exitActions ++ entryActions ++ transition.actions

def checkTimeout (polled armed : Instant) : Engine S E C A (List A) := do
  let machine ← self
  match machine.stateTimeout with
  | some timeoutInstant =>
      if timeoutInstant ≤ polled then
        let stateName := StateVariant.variantName machine.currentState
        match machine.timeoutHandlers.lookup stateName with
        | some (_, handler) => do
            let transition ← invoke (handler machine.currentState)
            applyTransition armed transition
        | none => return []
      else return []
  | none => return []

def handle (armed : Instant) (event : E) : Engine S E C A (List A) := do
  let machine ← self
  let stateName := StateVariant.variantName machine.currentState
  let eventName := EventVariant.variantName event
  match machine.transitions.lookup (stateName, eventName) with
  | some handler => do
      let transition ← invoke (handler machine.currentState event)
      applyTransition armed transition
  | none =>
      match machine.transitions.lookup ("_", eventName) with
      | some handler => do
          let transition ← invoke (handler machine.currentState event)
          applyTransition armed transition
      | none =>
          match machine.unhandledHandler with
          | some handler => do
              invoke (handler machine.currentState event)
              return []
          | none =>
              Task.fail (.returned (.unhandledEvent stateName eventName))

def body : Call E C → Engine S E C A (List A)
  | .handle event _ armed => handle armed event
  | .checkTimeout _ polled armed => checkTimeout polled armed

def perform (machine : StateMachine S E C A) (call : Call E C) :
    Prospect (World S E C A) (Except Interruption (List A)) :=
  body call ⟨machine, call.context⟩

end Engine

end Live

/-! ### Machines whose handlers all complete -/

open Registry Task

variable {S E C A : Type}

def StateMachine.live (machine : StateMachine S E C A) :
    Live.StateMachine S E C A where
  currentState := machine.currentState
  transitions :=
    mapValues (fun handler state event context =>
      .returns (handler state event context)) machine.transitions
  entryHandlers :=
    mapValues (fun handler state context => .returns (handler state context))
      machine.entryHandlers
  exitHandlers :=
    mapValues (fun handler state context => .returns (handler state context))
      machine.exitHandlers
  timeoutHandlers :=
    mapValues (fun timeout =>
      (timeout.1, fun state context => .returns (timeout.2 state context)))
      machine.timeoutHandlers
  unhandledHandler :=
    machine.unhandledHandler.map fun handler state event context =>
      .returns (handler state event context)
  stateTimeout := machine.stateTimeout

def World.live (world : World S E C A) : Live.World S E C A where
  machine := world.machine.live
  context := world.context

namespace Live

variable {Value : Type}

theorem mirrors_self_bind {next : ObzenflowFsm.StateMachine S E C A →
      Checked.Engine S E C A Value}
    {other : StateMachine S E C A → Engine S E C A Value}
    (same : ∀ machine, Mirrors World.live (next machine) (other machine.live)) :
    Mirrors World.live (Checked.plain ObzenflowFsm.self >>= next)
      (self >>= other) :=
  fun world => same world.machine world

theorem mirrors_now_bind {reading : Instant}
    {next : Instant → Checked.Engine S E C A Value}
    {other : Engine S E C A Value}
    (same : Mirrors World.live (next reading) other) :
    Mirrors World.live (Checked.plain (now reading) >>= next) other :=
  fun world => same (world.record (.clock reading))

theorem mirrors_pure_bind {Part : Type} {value : Part}
    {next : Part → Checked.Engine S E C A Value}
    {other : Engine S E C A Value}
    (same : Mirrors World.live (next value) other) :
    Mirrors World.live
      (Checked.plain (pure value : ObzenflowFsm.Engine S E C A Part) >>= next)
      other :=
  fun world => same world

theorem mirrors_assignState (state : S) :
    Mirrors World.live
      (Checked.plain
        (ObzenflowFsm.assignState state : ObzenflowFsm.Engine S E C A Unit))
      (assignState state) :=
  fun _ => rfl

theorem mirrors_assignTimeout (deadline : Option Instant) :
    Mirrors World.live
      (Checked.plain (ObzenflowFsm.assignTimeout deadline :
        ObzenflowFsm.Engine S E C A Unit))
      (assignTimeout deadline) :=
  fun _ => rfl

theorem mirrors_invoke (invocation : Invocation S E C A) :
    Mirrors World.live (Checked.plain (ObzenflowFsm.invoke invocation))
      (invoke fun context => .returns (invocation.future context)) := by
  intro world
  have plain : Checked.plain (ObzenflowFsm.invoke invocation) world =
      ((invocation.future world.context).within world.holding).bind _ :=
    Future.bind_assoc _ _ _
  have embedded : (invocation.future world.context).within world.live.holding =
      ((invocation.future world.context).within world.holding).within
        World.live :=
    (Future.within_within world.holding World.live _).symm
  rw [plain]
  change Prospect.follow
    ((invocation.future world.context).within world.live.holding) _ = _
  rw [embedded]
  exact Prospect.follow_within fun result left => rfl

section Engine

variable [StateVariant S]

omit [StateVariant S] in
theorem mirrors_awaitHook (side : Side)
    (handlers : ObzenflowFsm.StateHandlerMap S C A) (stateName : String)
    (state : S) :
    Mirrors World.live
      (Checked.plain (ObzenflowFsm.StateMachine.awaitHook side handlers
        stateName state : ObzenflowFsm.Engine S E C A (List A)))
      (awaitHook
        (mapValues (fun handler state context =>
          .returns (handler state context)) handlers) stateName state) := by
  simp only [awaitHook, ObzenflowFsm.StateMachine.awaitHook, lookup_mapValues]
  cases handlers.lookup stateName with
  | none => exact fun _ => rfl
  | some handler => exact mirrors_invoke (.hook side stateName handler state)

omit [StateVariant S] in
theorem mirrors_scheduleTimeout
    (handlers : ObzenflowFsm.TimeoutHandlerMap S C A) (stateName : String)
    (armed : Instant) :
    Mirrors World.live
      (Checked.scheduleTimeout handlers stateName armed :
        Checked.Engine S E C A Unit)
      (scheduleTimeout
        (mapValues (fun timeout =>
          (timeout.1, fun state context => .returns (timeout.2 state context)))
          handlers) stateName armed) := by
  simp only [scheduleTimeout, Checked.scheduleTimeout, lookup_mapValues]
  cases handlers.lookup stateName with
  | none => exact mirrors_assignTimeout none
  | some timeout =>
      simp only [Option.map_some]
      apply mirrors_now_bind
      cases armed.checkedAdd timeout.1 with
      | none => exact .fail _
      | some deadline => exact mirrors_assignTimeout (some deadline)

theorem mirrors_applyTransition (armed : Instant)
    (transition : Transition S A) :
    Mirrors World.live
      (Checked.applyTransition armed transition :
        Checked.Engine S E C A (List A))
      (applyTransition armed transition) := by
  simp only [Checked.applyTransition, StateMachine.enterState,
    Checked.plain_bind, Async.bind_assoc]
  refine mirrors_self_bind fun machine => ?_
  refine (mirrors_awaitHook _ _ _ _).bind fun exitActions => ?_
  refine (mirrors_assignState _).bind fun _ => ?_
  refine mirrors_self_bind fun machine => ?_
  refine (mirrors_awaitHook _ _ _ _).bind fun entryActions => ?_
  apply mirrors_pure_bind
  exact (mirrors_scheduleTimeout _ _ _).bind fun _ => .pure _

theorem mirrors_checkTimeout (polled armed : Instant) :
    Mirrors World.live
      (Checked.checkTimeout polled armed : Checked.Engine S E C A (List A))
      (checkTimeout polled armed) := by
  refine mirrors_self_bind fun machine => ?_
  simp only [StateMachine.live, lookup_mapValues]
  cases machine.stateTimeout with
  | none => exact .pure _
  | some deadline =>
      apply mirrors_now_bind
      by_cases reached : deadline ≤ polled
      · simp only [if_pos reached]
        cases machine.timeoutHandlers.lookup
            (StateVariant.variantName machine.currentState) with
        | none => exact .pure _
        | some timeout =>
            exact (mirrors_invoke (.trigger (.timeout _ timeout.2 _))).bind
              fun transition => mirrors_applyTransition armed transition
      · simp only [if_neg reached]
        exact .pure _

variable [EventVariant E]

theorem mirrors_handle (armed : Instant) (event : E) :
    Mirrors World.live
      (Checked.handle armed event : Checked.Engine S E C A (List A))
      (handle armed event) := by
  have fires (key : String × String)
      (handler : ObzenflowFsm.TransitionHandler S E C A) (state : S) :
      Mirrors World.live
        (do
          let transition ← Checked.plain
            (ObzenflowFsm.invoke (.trigger
              (.transition key handler state event)))
          Checked.applyTransition armed transition)
        (do
          let transition ← invoke fun context =>
            .returns (handler state event context)
          applyTransition armed transition) :=
    (mirrors_invoke (.trigger (.transition key handler state event))).bind
      fun transition => mirrors_applyTransition armed transition
  refine mirrors_self_bind fun machine => ?_
  simp only [StateMachine.live, lookup_mapValues]
  cases machine.transitions.lookup
      (StateVariant.variantName machine.currentState,
        EventVariant.variantName event) with
  | some handler => exact fires _ handler _
  | none =>
      simp only [Option.map_none]
      cases machine.transitions.lookup
          ("_", EventVariant.variantName event) with
      | some handler => exact fires _ handler _
      | none =>
          simp only [Option.map_none]
          cases machine.unhandledHandler with
          | some handler =>
              exact (mirrors_invoke
                (.unhandled handler machine.currentState event)).bind
                  fun _ => .pure _
          | none => exact .fail _

/-- When its handlers complete, a call is what the engine with futures that
complete makes of it. -/
theorem perform_live (machine : ObzenflowFsm.StateMachine S E C A)
    (call : Call E C) :
    perform machine.live call =
      .returns ((Checked.perform machine call).within World.live) := by
  cases call with
  | handle event context armed =>
      exact mirrors_handle armed event ⟨machine, context, []⟩
  | checkTimeout context polled armed =>
      exact mirrors_checkTimeout polled armed ⟨machine, context, []⟩

end Engine

end Live

end ObzenflowFsm
