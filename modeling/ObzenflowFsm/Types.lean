import Mathlib.Algebra.Group.Nat.Defs
import ObzenflowFsm.Data.Future
import ObzenflowFsm.Data.Registry

namespace ObzenflowFsm

variable {S A : Type}

/-- Nanoseconds on the clock the machine reads. -/
abbrev Instant : Type := Nat

abbrev Duration : Type := Nat

/-- Instants count their seconds in a signed 64-bit integer. -/
def Instant.limit : Nat := 2 ^ 63 * 1000000000

def Instant.Representable (instant : Instant) : Prop :=
  instant < Instant.limit

instance (instant : Instant) : Decidable instant.Representable :=
  inferInstanceAs (Decidable (instant < Instant.limit))

/-- `Instant + Duration`, which panics where this is `none`. -/
def Instant.checkedAdd (instant : Instant) (duration : Duration) :
    Option Instant :=
  if Instant.Representable (instant + duration) then
    some (instant + duration)
  else none

inductive FsmError where
  | invalidTransition (source event : String)
  | duplicateHandler (state event : String)
  | handlerError (message : String)
  | timeout (state : String)
  | unhandledEvent (state event : String)
  | builderError (message : String)
  deriving DecidableEq, Repr

def FsmError.display : FsmError → String
  | .invalidTransition source event =>
      "Invalid transition from state '" ++ source ++ "' on event '" ++
        event ++ "'"
  | .duplicateHandler state event =>
      "Duplicate handler for state '" ++ state ++ "' and event '" ++
        event ++ "'"
  | .handlerError message => "Handler error: " ++ message
  | .timeout state => "Timeout in state '" ++ state ++ "'"
  | .unhandledEvent state event =>
      "Unhandled event '" ++ event ++ "' in state '" ++ state ++ "'"
  | .builderError message => "Builder error: " ++ message

abbrev FsmResult (Value : Type) : Type := Except FsmError Value

/-- How a call ends early: by the error it returns, or by a panic. -/
inductive Interruption where
  | returned (error : FsmError)
  | panicked

/-- States report a stable variant name, payload ignored. -/
class StateVariant (S : Type) where
  variantName : S → String

class EventVariant (E : Type) where
  variantName : E → String

structure Transition (S A : Type) where
  nextState : S
  actions : List A

/-- Stay in the current state, with no actions. -/
def stay (currentState : S) : Transition S A := ⟨currentState, []⟩

/-- A boxed future that borrows the context and completes in the end. Up to any
point where it can be dropped, one that never completes is the beginning of one
that does; `Live.BoxFuture` has both. -/
abbrev BoxFuture (C Value : Type) : Type := Polling.Future C Value

/-- Actions are run by the host, on the context it also lends to handlers. -/
class FsmAction (A C : Type) where
  execute : A → C → BoxFuture C (FsmResult Unit)

abbrev TransitionHandler (S E C A : Type) : Type :=
  S → E → C → BoxFuture C (FsmResult (Transition S A))

abbrev StateHandler (S C A : Type) : Type :=
  S → C → BoxFuture C (FsmResult (List A))

abbrev TimeoutHandler (S C A : Type) : Type :=
  S → C → BoxFuture C (FsmResult (Transition S A))

abbrev UnhandledHandler (S E C : Type) : Type :=
  S → E → C → BoxFuture C (FsmResult Unit)

abbrev HashMap (Key Value : Type) : Type := AList fun _ : Key => Value

abbrev TransitionMap (S E C A : Type) : Type :=
  HashMap (String × String) (TransitionHandler S E C A)

abbrev StateHandlerMap (S C A : Type) : Type :=
  HashMap String (StateHandler S C A)

abbrev TimeoutHandlerMap (S C A : Type) : Type :=
  HashMap String (Duration × TimeoutHandler S C A)

/-! ### The door of the crate documentation -/

inductive DoorState where
  | closed
  | opened
  deriving DecidableEq

inductive DoorEvent where
  | opening
  | close
  deriving DecidableEq

inductive DoorAction where
  | ring
  | log (message : String)
  deriving DecidableEq

structure DoorContext where
  log : List String := []
  deriving DecidableEq

instance : StateVariant DoorState where
  variantName
    | .closed => "Closed"
    | .opened => "Open"

instance : EventVariant DoorEvent where
  variantName
    | .opening => "Open"
    | .close => "Close"

namespace Door

abbrev Transitioning :=
  TransitionHandler DoorState DoorEvent DoorContext DoorAction

def openDoor : Transitioning := fun _ _ context =>
  .ready (.ok ⟨.opened, [.ring, .log "Door opened"]⟩) context

def closeDoor : Transitioning := fun _ _ context =>
  .ready (.ok ⟨.closed, [.log "Door closed"]⟩) context

def autoClose : TimeoutHandler DoorState DoorContext DoorAction :=
  fun _ context => .ready (.ok ⟨.closed, [.log "Auto-closed"]⟩) context

def openFor : Duration := 10000000

def greet : StateHandler DoorState DoorContext DoorAction :=
  fun _ context => .ready (.ok [.ring]) context

def jam : StateHandler DoorState DoorContext DoorAction :=
  fun _ context => .ready (.error (.handlerError "jammed")) context

def hesitate : StateHandler DoorState DoorContext DoorAction :=
  fun _ context => .pending context (.ready (.ok []) context)

end Door

end ObzenflowFsm
