import ObzenflowFsm.Machine

namespace ObzenflowFsm

variable {S E C A : Type}

/-- String-keyed builder that `fsm!` expands to. -/
structure FsmBuilder (S E C A : Type) where
  initialState : S
  transitions : TransitionMap S E C A
  entryHandlers : StateHandlerMap S C A
  exitHandlers : StateHandlerMap S C A
  timeoutHandlers : TimeoutHandlerMap S C A
  duplicateHandlers : List (String × String)
  strictValidation : Bool
  unhandledHandler : Option (UnhandledHandler S E C)

structure WhenBuilder (S E C A : Type) where
  builder : FsmBuilder S E C A
  stateName : String

structure TimeoutBuilder (S E C A : Type) where
  builder : FsmBuilder S E C A
  stateName : String

namespace FsmBuilder

def new (initialState : S) : FsmBuilder S E C A where
  initialState := initialState
  transitions := ∅
  entryHandlers := ∅
  exitHandlers := ∅
  timeoutHandlers := ∅
  duplicateHandlers := []
  strictValidation := true
  unhandledHandler := none

def strict (builder : FsmBuilder S E C A) : FsmBuilder S E C A :=
  { builder with strictValidation := true }

def when (builder : FsmBuilder S E C A) (stateName : String) :
    WhenBuilder S E C A :=
  ⟨builder, stateName⟩

def fromAny (builder : FsmBuilder S E C A) : WhenBuilder S E C A :=
  ⟨builder, "_"⟩

def whenUnhandled (builder : FsmBuilder S E C A)
    (handler : UnhandledHandler S E C) : FsmBuilder S E C A :=
  { builder with unhandledHandler := some handler }

def onEntry (builder : FsmBuilder S E C A) (stateName : String)
    (handler : StateHandler S C A) : FsmBuilder S E C A :=
  { builder with
    entryHandlers := builder.entryHandlers.insert stateName handler }

def onExit (builder : FsmBuilder S E C A) (stateName : String)
    (handler : StateHandler S C A) : FsmBuilder S E C A :=
  { builder with
    exitHandlers := builder.exitHandlers.insert stateName handler }

/-- Validation, then construction at the clock reading `now`. -/
def tryBuild [StateVariant S] (builder : FsmBuilder S E C A)
    (now : Instant) : FsmResult (StateMachine S E C A) := do
  if let some (state, event) := builder.duplicateHandlers.head? then
    throw (.duplicateHandler state event)
  if builder.strictValidation then
    let initialStateName := StateVariant.variantName builder.initialState
    let hasTransition :=
      builder.transitions.keys.any fun key => key.1 == initialStateName
    let hasTimeout := decide (initialStateName ∈ builder.timeoutHandlers)
    if !hasTransition && !hasTimeout then
      throw (.builderError
        ("No transitions or timeout configured for initial state '" ++
          initialStateName ++ "'"))
  return StateMachine.new now builder.initialState builder.transitions
    builder.entryHandlers builder.exitHandlers builder.timeoutHandlers
    builder.unhandledHandler

def machine [StateVariant S] (builder : FsmBuilder S E C A)
    (now : Instant) : StateMachine S E C A :=
  StateMachine.new now builder.initialState builder.transitions
    builder.entryHandlers builder.exitHandlers builder.timeoutHandlers
    builder.unhandledHandler

end FsmBuilder

namespace WhenBuilder

def on (block : WhenBuilder S E C A) (eventName : String)
    (handler : TransitionHandler S E C A) : WhenBuilder S E C A :=
  let key := (block.stateName, eventName)
  let builder :=
    if key ∈ block.builder.transitions then
      { block.builder with
        duplicateHandlers := block.builder.duplicateHandlers ++ [key] }
    else block.builder
  { block with
    builder :=
      { builder with transitions := builder.transitions.insert key handler } }

def timeout (block : WhenBuilder S E C A) (duration : Duration)
    (handler : TimeoutHandler S C A) : TimeoutBuilder S E C A where
  builder :=
    { block.builder with
      timeoutHandlers :=
        block.builder.timeoutHandlers.insert block.stateName
          (duration, handler) }
  stateName := block.stateName

def done (block : WhenBuilder S E C A) : FsmBuilder S E C A :=
  block.builder

end WhenBuilder

namespace TimeoutBuilder

/-- Unlike `WhenBuilder.on`, this records no duplicate. -/
def on (block : TimeoutBuilder S E C A) (eventName : String)
    (handler : TransitionHandler S E C A) : TimeoutBuilder S E C A :=
  { block with
    builder :=
      { block.builder with
        transitions :=
          block.builder.transitions.insert (block.stateName, eventName)
            handler } }

def done (block : TimeoutBuilder S E C A) : FsmBuilder S E C A :=
  block.builder

end TimeoutBuilder

/-! ### Sequences of builder calls -/

inductive Stage where
  | fsm
  | when
  | timeout

@[reducible] def Stage.Builder (S E C A : Type) : Stage → Type
  | .fsm => FsmBuilder S E C A
  | .when => WhenBuilder S E C A
  | .timeout => TimeoutBuilder S E C A

/-- The builder methods, by the types they take the chain from and to. -/
inductive BuilderCall (S E C A : Type) : Stage → Stage → Type where
  | strict : BuilderCall S E C A .fsm .fsm
  | when (stateName : String) : BuilderCall S E C A .fsm .when
  | fromAny : BuilderCall S E C A .fsm .when
  | whenUnhandled (handler : UnhandledHandler S E C) :
      BuilderCall S E C A .fsm .fsm
  | onEntry (stateName : String) (handler : StateHandler S C A) :
      BuilderCall S E C A .fsm .fsm
  | onExit (stateName : String) (handler : StateHandler S C A) :
      BuilderCall S E C A .fsm .fsm
  | whenOn (eventName : String) (handler : TransitionHandler S E C A) :
      BuilderCall S E C A .when .when
  | timeout (duration : Duration) (handler : TimeoutHandler S C A) :
      BuilderCall S E C A .when .timeout
  | whenDone : BuilderCall S E C A .when .fsm
  | timeoutOn (eventName : String) (handler : TransitionHandler S E C A) :
      BuilderCall S E C A .timeout .timeout
  | timeoutDone : BuilderCall S E C A .timeout .fsm

def BuilderCall.apply : {source target : Stage} →
    BuilderCall S E C A source target →
    source.Builder S E C A → target.Builder S E C A
  | _, _, .strict, builder => builder.strict
  | _, _, .when stateName, builder => builder.when stateName
  | _, _, .fromAny, builder => builder.fromAny
  | _, _, .whenUnhandled handler, builder => builder.whenUnhandled handler
  | _, _, .onEntry stateName handler, builder =>
      builder.onEntry stateName handler
  | _, _, .onExit stateName handler, builder =>
      builder.onExit stateName handler
  | _, _, .whenOn eventName handler, block => block.on eventName handler
  | _, _, .timeout duration handler, block => block.timeout duration handler
  | _, _, .whenDone, block => block.done
  | _, _, .timeoutOn eventName handler, block => block.on eventName handler
  | _, _, .timeoutDone, block => block.done

/-- A sequence of builder calls the method types allow, starting with `new`. -/
inductive Chain (S E C A : Type) : Stage → Type where
  | new (initialState : S) : Chain S E C A .fsm
  | call {source target : Stage} (chain : Chain S E C A source)
      (next : BuilderCall S E C A source target) : Chain S E C A target

def Chain.eval : {stage : Stage} → Chain S E C A stage →
    stage.Builder S E C A
  | _, .new initialState => FsmBuilder.new initialState
  | _, .call chain next => next.apply chain.eval

namespace Door

def chain (hook : StateHandler DoorState DoorContext DoorAction) :
    Chain DoorState DoorEvent DoorContext DoorAction .fsm :=
  Chain.new .closed
    |>.call (.onEntry "Open" hook)
    |>.call (.when "Closed")
    |>.call (.whenOn "Open" openDoor)
    |>.call .whenDone
    |>.call (.when "Open")
    |>.call (.timeout openFor autoClose)
    |>.call (.timeoutOn "Close" closeDoor)
    |>.call .timeoutDone

def machine (hook : StateHandler DoorState DoorContext DoorAction) :
    StateMachine DoorState DoorEvent DoorContext DoorAction :=
  (chain hook).eval.machine 0

theorem built (hook : StateHandler DoorState DoorContext DoorAction) :
    (chain hook).eval.tryBuild 0 = .ok (machine hook) := rfl

/-- `Duration::MAX` -/
def longest : Duration := (2 ^ 64 - 1) * 1000000000 + 999999999

def openForGood (hook : StateHandler DoorState DoorContext DoorAction) :
    Chain DoorState DoorEvent DoorContext DoorAction .fsm :=
  Chain.new .closed
    |>.call (.onEntry "Open" hook)
    |>.call (.when "Closed")
    |>.call (.whenOn "Open" openDoor)
    |>.call .whenDone
    |>.call (.when "Open")
    |>.call (.timeout longest autoClose)
    |>.call .timeoutDone

/-- A door that registers its opening twice behind a timeout. -/
def repeatedChain : Chain DoorState DoorEvent DoorContext DoorAction .fsm :=
  Chain.new .closed
    |>.call (.when "Closed")
    |>.call (.timeout openFor autoClose)
    |>.call (.timeoutOn "Open" openDoor)
    |>.call (.timeoutOn "Open" openDoor)
    |>.call .timeoutDone

end Door

end ObzenflowFsm
