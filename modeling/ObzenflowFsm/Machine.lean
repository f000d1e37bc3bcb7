import ObzenflowFsm.Types

namespace ObzenflowFsm

open Polling

variable {S E C A : Type}

/-- The tables a machine dispatches on. They are shared and never change. -/
structure Tables (S E C A : Type) where
  transitions : TransitionMap S E C A
  entryHandlers : StateHandlerMap S C A
  exitHandlers : StateHandlerMap S C A
  timeoutHandlers : TimeoutHandlerMap S C A
  unhandledHandler : Option (UnhandledHandler S E C)

structure StateMachine (S E C A : Type) extends Tables S E C A where
  currentState : S
  stateTimeout : Option Instant

/-- The handlers that answer with a transition, as they are invoked: the key
they were found under, and their arguments. -/
inductive Trigger (S E C A : Type) where
  | transition (key : String × String) (handler : TransitionHandler S E C A)
      (state : S) (event : E)
  | timeout (key : String) (handler : TimeoutHandler S C A) (state : S)

def Trigger.future : Trigger S E C A →
    C → BoxFuture C (FsmResult (Transition S A))
  | .transition _ handler state event => handler state event
  | .timeout _ handler state => handler state

inductive Side where
  | exit
  | entry
  deriving DecidableEq

inductive Invocation (S E C A : Type) where
  | trigger (fired : Trigger S E C A)
  | unhandled (handler : UnhandledHandler S E C) (state : S) (event : E)
  | hook (side : Side) (key : String) (handler : StateHandler S C A)
      (state : S)

@[reducible] def Invocation.Output : Invocation S E C A → Type
  | .trigger _ => Transition S A
  | .unhandled _ _ _ => Unit
  | .hook _ _ _ _ => List A

def Invocation.future : (invocation : Invocation S E C A) →
    C → BoxFuture C (FsmResult invocation.Output)
  | .trigger fired => fired.future
  | .unhandled handler state event => handler state event
  | .hook _ _ handler state => handler state

/-- What a call does, in order: the clock readings it takes, the handlers it
awaits to completion with the context before and after, and the fields it
assigns. -/
inductive Effect (S E C A : Type) where
  | clock (reading : Instant)
  | invoked (invocation : Invocation S E C A) (given left : C)
      (error : Option FsmError)
  | assignState (state : S)
  | assignTimeout (deadline : Option Instant)

/-- What a call works on: the machine and the context it borrows, and the
effects so far. -/
structure World (S E C A : Type) where
  machine : StateMachine S E C A
  context : C
  trace : List (Effect S E C A)

abbrev Engine (S E C A Value : Type) : Type :=
  Async (World S E C A) FsmError Value

def World.record (world : World S E C A) (effect : Effect S E C A) :
    World S E C A :=
  { world with trace := world.trace ++ [effect] }

def World.holding (world : World S E C A) (context : C) : World S E C A :=
  { world with context := context }

def errorOf {Value : Type} : FsmResult Value → Option FsmError
  | .ok _ => none
  | .error error => some error

/-- `handler(..).await?`: the machine is suspended whenever the handler is, and
the handler changes the context in place, also when it fails. -/
def invoke (invocation : Invocation S E C A) :
    Engine S E C A invocation.Output :=
  fun world =>
    ((invocation.future world.context).within world.holding).bind
      fun result left =>
        .ready result
          (left.record
            (.invoked invocation world.context left.context (errorOf result)))

def now (reading : Instant) : Engine S E C A Instant := do
  Async.modify fun world => world.record (.clock reading)
  return reading

def assignState (state : S) : Engine S E C A Unit :=
  Async.modify fun world =>
    { world with machine := { world.machine with currentState := state } }.record
      (.assignState state)

def assignTimeout (deadline : Option Instant) : Engine S E C A Unit :=
  Async.modify fun world =>
    { world with machine := { world.machine with stateTimeout := deadline } }.record
      (.assignTimeout deadline)

def self : Engine S E C A (StateMachine S E C A) := do
  return (← Async.read).machine

namespace StateMachine

variable [StateVariant S] [EventVariant E]

/-- `StateMachine::new`, with the clock reading it takes when the initial state
has a timeout. The deadline is a sum of numbers here and in `scheduleTimeout`;
`Checked.new` and `Checked.scheduleTimeout` panic where it is not
representable, and do the same where it is. -/
def new (now : Instant) (initialState : S)
    (transitions : TransitionMap S E C A)
    (entryHandlers exitHandlers : StateHandlerMap S C A)
    (timeoutHandlers : TimeoutHandlerMap S C A)
    (unhandledHandler : Option (UnhandledHandler S E C)) :
    StateMachine S E C A :=
  let machine : StateMachine S E C A :=
    { currentState := initialState, transitions, entryHandlers, exitHandlers,
      timeoutHandlers, unhandledHandler, stateTimeout := none }
  let stateName := StateVariant.variantName machine.currentState
  match machine.timeoutHandlers.lookup stateName with
  | some (duration, _) => { machine with stateTimeout := some (now + duration) }
  | none => machine

def awaitHook (side : Side) (handlers : StateHandlerMap S C A)
    (stateName : String) (state : S) : Engine S E C A (List A) :=
  match handlers.lookup stateName with
  | some handler => invoke (.hook side stateName handler state)
  | none => pure []

def scheduleTimeout (handlers : TimeoutHandlerMap S C A) (stateName : String)
    (armed : Instant) : Engine S E C A Unit :=
  match handlers.lookup stateName with
  | some (duration, _) => do
      let reading ← now armed
      assignTimeout (some (reading + duration))
  | none => assignTimeout none

/-- `armed` is the clock reading taken when the new state has a timeout. -/
def applyTransition (armed : Instant) (transition : Transition S A) :
    Engine S E C A (List A) := do
  let machine ← self
  let oldStateName := StateVariant.variantName machine.currentState
  let newStateName := StateVariant.variantName transition.nextState
  let exitActions ←
    awaitHook .exit machine.exitHandlers oldStateName machine.currentState
  assignState transition.nextState
  let machine ← self
  -- From here on an error leaves the new state with the old state's deadline.
  let entryActions ←
    awaitHook .entry machine.entryHandlers newStateName machine.currentState
  scheduleTimeout machine.timeoutHandlers newStateName armed
  return exitActions ++ entryActions ++ transition.actions

/-- `polled` is the clock reading compared with the deadline. -/
def checkTimeout (polled armed : Instant) : Engine S E C A (List A) := do
  let machine ← self
  match machine.stateTimeout with
  | some timeoutInstant => do
      let reading ← now polled
      if timeoutInstant ≤ reading then
        let stateName := StateVariant.variantName machine.currentState
        match machine.timeoutHandlers.lookup stateName with
        | some (_, handler) => do
            let transition ←
              invoke (.trigger (.timeout stateName handler machine.currentState))
            applyTransition armed transition
        | none => return []
      else return []
  | none => return []

def handle (armed : Instant) (event : E) : Engine S E C A (List A) := do
  let machine ← self
  let stateName := StateVariant.variantName machine.currentState
  let eventName := EventVariant.variantName event
  match machine.transitions.lookup (stateName, eventName) with
  | some handler => do
      let transition ←
        invoke (.trigger
          (.transition (stateName, eventName) handler machine.currentState event))
      applyTransition armed transition
  | none =>
      match machine.transitions.lookup ("_", eventName) with
      | some handler => do
          let transition ←
            invoke (.trigger
              (.transition ("_", eventName) handler machine.currentState event))
          applyTransition armed transition
      | none =>
          match machine.unhandledHandler with
          | some handler => do
              invoke (.unhandled handler machine.currentState event)
              return []
          | none => Async.fail (.unhandledEvent stateName eventName)

end StateMachine

/-- Run actions one after the other; the first failure ends it. -/
def executeActions [FsmAction A C] :
    List A → C → BoxFuture C (FsmResult Unit)
  | [], context => .ready (.ok ()) context
  | action :: rest, context =>
      (FsmAction.execute action context).bind fun result left =>
        match result with
        | .ok () => executeActions rest left
        | .error error => .ready (.error error) left

/-- A call of the host, with the context it lends and the clock readings the
call may take. -/
inductive Call (E C : Type) where
  | handle (event : E) (context : C) (armed : Instant)
  | checkTimeout (context : C) (polled armed : Instant)

def Call.context : Call E C → C
  | .handle _ context _ => context
  | .checkTimeout context _ _ => context

def Call.armed : Call E C → Instant
  | .handle _ _ armed => armed
  | .checkTimeout _ _ armed => armed

def Call.polled : Call E C → Option Instant
  | .handle _ _ _ => none
  | .checkTimeout _ polled _ => some polled

/-- The clock readings a call may take, in order. -/
def Call.readings : Call E C → List Instant
  | .handle _ _ armed => [armed]
  | .checkTimeout _ polled armed => [polled, armed]

namespace StateMachine

variable [StateVariant S] [EventVariant E]

def body : Call E C → Engine S E C A (List A)
  | .handle event _ armed => handle armed event
  | .checkTimeout _ polled armed => checkTimeout polled armed

def perform (machine : StateMachine S E C A) (call : Call E C) :
    Future (World S E C A) (FsmResult (List A)) :=
  body call ⟨machine, call.context, []⟩

end StateMachine

end ObzenflowFsm
