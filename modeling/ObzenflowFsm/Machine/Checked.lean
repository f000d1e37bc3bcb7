import ObzenflowFsm.Builder

namespace ObzenflowFsm

open Polling

variable {S E C A : Type}

/-! ### The engine with the addition that can panic -/

/-- `apply_transition` as far as the new state has been entered. -/
def StateMachine.enterState [StateVariant S] (transition : Transition S A) :
    Engine S E C A (StateMachine S E C A × List A) := do
  let machine ← self
  let oldStateName := StateVariant.variantName machine.currentState
  let newStateName := StateVariant.variantName transition.nextState
  let exitActions ←
    awaitHook .exit machine.exitHandlers oldStateName machine.currentState
  assignState transition.nextState
  let machine ← self
  let entryActions ←
    awaitHook .entry machine.entryHandlers newStateName machine.currentState
  return (machine, exitActions ++ entryActions)

namespace Checked

abbrev Engine (S E C A Value : Type) : Type :=
  Async (World S E C A) Interruption Value

def plain {Value : Type} (body : ObzenflowFsm.Engine S E C A Value) :
    Engine S E C A Value :=
  Async.mapError .returned body

theorem plain_bind {Value Result : Type}
    (body : ObzenflowFsm.Engine S E C A Value)
    (next : Value → ObzenflowFsm.Engine S E C A Result) :
    plain (body >>= next) = plain body >>= fun value => plain (next value) := by
  funext world
  exact (Async.run_mapError_bind_congr _ fun _ _ => rfl).symm

section Engine

variable [StateVariant S] [EventVariant E]

def new (now : Instant) (initialState : S)
    (transitions : TransitionMap S E C A)
    (entryHandlers exitHandlers : StateHandlerMap S C A)
    (timeoutHandlers : TimeoutHandlerMap S C A)
    (unhandledHandler : Option (UnhandledHandler S E C)) :
    Except Interruption (StateMachine S E C A) :=
  let machine : StateMachine S E C A :=
    { currentState := initialState, transitions, entryHandlers, exitHandlers,
      timeoutHandlers, unhandledHandler, stateTimeout := none }
  let stateName := StateVariant.variantName machine.currentState
  match machine.timeoutHandlers.lookup stateName with
  | some (duration, _) =>
      match now.checkedAdd duration with
      | some deadline => .ok { machine with stateTimeout := some deadline }
      | none => .error .panicked
  | none => .ok machine

def scheduleTimeout (handlers : TimeoutHandlerMap S C A) (stateName : String)
    (armed : Instant) : Engine S E C A Unit :=
  match handlers.lookup stateName with
  | some (duration, _) => do
      let reading ← plain (now armed)
      match reading.checkedAdd duration with
      | some deadline => plain (assignTimeout (some deadline))
      | none => Async.fail .panicked
  | none => plain (assignTimeout none)

def applyTransition (armed : Instant) (transition : Transition S A) :
    Engine S E C A (List A) := do
  let (machine, actions) ← plain (StateMachine.enterState transition)
  scheduleTimeout machine.timeoutHandlers
    (StateVariant.variantName transition.nextState) armed
  return actions ++ transition.actions

def checkTimeout (polled armed : Instant) : Engine S E C A (List A) := do
  let machine ← plain self
  match machine.stateTimeout with
  | some timeoutInstant => do
      let reading ← plain (now polled)
      if timeoutInstant ≤ reading then
        let stateName := StateVariant.variantName machine.currentState
        match machine.timeoutHandlers.lookup stateName with
        | some (_, handler) => do
            let transition ← plain
              (invoke (.trigger
                (.timeout stateName handler machine.currentState)))
            applyTransition armed transition
        | none => return []
      else return []
  | none => return []

def handle (armed : Instant) (event : E) : Engine S E C A (List A) := do
  let machine ← plain self
  let stateName := StateVariant.variantName machine.currentState
  let eventName := EventVariant.variantName event
  match machine.transitions.lookup (stateName, eventName) with
  | some handler => do
      let transition ← plain
        (invoke (.trigger
          (.transition (stateName, eventName) handler machine.currentState
            event)))
      applyTransition armed transition
  | none =>
      match machine.transitions.lookup ("_", eventName) with
      | some handler => do
          let transition ← plain
            (invoke (.trigger
              (.transition ("_", eventName) handler machine.currentState
                event)))
          applyTransition armed transition
      | none =>
          match machine.unhandledHandler with
          | some handler => do
              plain (invoke (.unhandled handler machine.currentState event))
              return []
          | none =>
              Async.fail (.returned (.unhandledEvent stateName eventName))

def body : Call E C → Engine S E C A (List A)
  | .handle event _ armed => handle armed event
  | .checkTimeout _ polled armed => checkTimeout polled armed

def perform (machine : StateMachine S E C A) (call : Call E C) :
    Future (World S E C A) (Except Interruption (List A)) :=
  body call ⟨machine, call.context, []⟩

end Engine

def tryBuild [StateVariant S] (builder : FsmBuilder S E C A)
    (now : Instant) : Except Interruption (StateMachine S E C A) := do
  if let some (state, event) := builder.duplicateHandlers.head? then
    throw (.returned (.duplicateHandler state event))
  if builder.strictValidation then
    let initialStateName := StateVariant.variantName builder.initialState
    let hasTransition :=
      builder.transitions.keys.any fun key => key.1 == initialStateName
    let hasTimeout := decide (initialStateName ∈ builder.timeoutHandlers)
    if !hasTransition && !hasTimeout then
      throw (.returned (.builderError
        ("No transitions or timeout configured for initial state '" ++
          initialStateName ++ "'")))
  new now builder.initialState builder.transitions builder.entryHandlers
    builder.exitHandlers builder.timeoutHandlers builder.unhandledHandler

/-- What the addition of a duration that is too long panics with. -/
def overflowMessage : String :=
  "overflow when adding duration to instant"

/-- `tryBuild`, panicking with a message on an error. -/
def build [StateVariant S] (builder : FsmBuilder S E C A)
    (now : Instant) : Except String (StateMachine S E C A) :=
  match tryBuild builder now with
  | .ok machine => .ok machine
  | .error (.returned error) =>
      .error ("FsmBuilder::build failed: " ++ error.display)
  | .error .panicked => .error overflowMessage

/-! ### Construction -/

variable [StateVariant S]

theorem new_panics_iff (now : Instant) (initialState : S)
    (transitions : TransitionMap S E C A)
    (entryHandlers exitHandlers : StateHandlerMap S C A)
    (timeoutHandlers : TimeoutHandlerMap S C A)
    (unhandledHandler : Option (UnhandledHandler S E C)) :
    new now initialState transitions entryHandlers exitHandlers
        timeoutHandlers unhandledHandler = .error .panicked ↔
      ∃ timeout,
        timeoutHandlers.lookup (StateVariant.variantName initialState) =
            some timeout ∧
          ¬ Instant.Representable (now + timeout.1) := by
  simp only [new]
  cases timeoutHandlers.lookup (StateVariant.variantName initialState) with
  | none => simp
  | some timeout =>
      by_cases small : Instant.Representable (now + timeout.1)
      · simp [Instant.checkedAdd, small]
      · simp [Instant.checkedAdd, small]

theorem new_of_not_panicked {now : Instant} {initialState : S}
    {transitions : TransitionMap S E C A}
    {entryHandlers exitHandlers : StateHandlerMap S C A}
    {timeoutHandlers : TimeoutHandlerMap S C A}
    {unhandledHandler : Option (UnhandledHandler S E C)}
    (returns : new now initialState transitions entryHandlers exitHandlers
      timeoutHandlers unhandledHandler ≠ .error .panicked) :
    new now initialState transitions entryHandlers exitHandlers
        timeoutHandlers unhandledHandler =
      .ok (StateMachine.new now initialState transitions entryHandlers
        exitHandlers timeoutHandlers unhandledHandler) := by
  simp only [new, StateMachine.new] at returns ⊢
  cases found : timeoutHandlers.lookup
      (StateVariant.variantName initialState) with
  | none => rfl
  | some timeout =>
      rw [found] at returns
      by_cases small : Instant.Representable (now + timeout.1)
      · simp only [Instant.checkedAdd, if_pos small]
      · simp [Instant.checkedAdd, if_neg small] at returns

/-- Validation comes first and is the same. -/
theorem tryBuild_eq (builder : FsmBuilder S E C A) (now : Instant) :
    tryBuild builder now =
      match builder.tryBuild now with
      | .ok _ =>
          new now builder.initialState builder.transitions
            builder.entryHandlers builder.exitHandlers
            builder.timeoutHandlers builder.unhandledHandler
      | .error error => .error (.returned error) := by
  unfold tryBuild FsmBuilder.tryBuild
  cases builder.duplicateHandlers.head? with
  | some key => rfl
  | none =>
      cases builder.strictValidation with
      | false => rfl
      | true =>
          simp only [if_true]
          split
          · rfl
          · rfl

end Checked

end ObzenflowFsm
