import ObzenflowFsm.Machine.Replay
import ObzenflowFsm.Theory.Agenda
import ObzenflowFsm.Theory.Contract

namespace ObzenflowFsm

open Polling

variable {S E C A : Type}

/-! The host loop of the crate's documentation: poll for a timeout, receive an
event, and execute the actions each call returns. -/

/-- What becomes of an action's failure: `?` ends the loop, or it is mapped
into an event that is fed back in. -/
inductive Policy where
  | propagate
  | recover
  deriving DecidableEq

/-- What the loop has done, each entry made when it was done. -/
inductive Entry (E C A : Type) where
  | answered (policy : Policy) (call : Call E C) (result : FsmResult (List A))
  | received (event : E)
  | executed (policy : Policy) (action : A) (error : Option FsmError)
  | mapped (error : FsmError) (event : E)

/-- What the loop leaves to its host, however it comes by it: the clock, the
next event, and the event that an action's failure is mapped into. -/
structure Environment (E C A : Type) where
  polled : List (Entry E C A) → Instant
  armed : List (Entry E C A) → Instant
  receive : List (Entry E C A) → C → BoxFuture C E
  mapFailure : List (Entry E C A) → FsmError → C → BoxFuture C E

structure Supervisor (S E C A : Type) extends Host S E C A where
  journal : List (Entry E C A)

abbrev Supervision (S E C A Value : Type) : Type :=
  Async (Supervisor S E C A) FsmError Value

namespace Supervisor

def lend (supervisor : Supervisor S E C A) (world : World S E C A) :
    Supervisor S E C A :=
  { supervisor with machine := world.machine, context := world.context }

def holding (supervisor : Supervisor S E C A) (context : C) :
    Supervisor S E C A :=
  { supervisor with context := context }

def record (supervisor : Supervisor S E C A) (entry : Entry E C A) :
    Supervisor S E C A :=
  { supervisor with journal := supervisor.journal ++ [entry] }

def enter (entry : Entry E C A) : Supervision S E C A Unit :=
  Async.modify fun supervisor => supervisor.record entry

/-- `?` on a result. -/
def propagate {Value : Type} : FsmResult Value → Supervision S E C A Value
  | .ok value => pure value
  | .error error => Async.fail error

def borrow {Value : Type} (future : C → BoxFuture C Value) :
    Supervision S E C A Value :=
  Async.awaiting holding fun supervisor => future supervisor.context

section Calls

variable [StateVariant S] [EventVariant E]

def call (request : Request E) :
    Supervision S E C A (FsmResult (List A)) :=
  Async.awaiting lend fun supervisor =>
    supervisor.machine.perform (request.call supervisor.context)

def consult (policy : Policy) (request : List (Entry E C A) → Request E) :
    Supervision S E C A (List A) := do
  let before ← Async.read
  let result ← call (request before.journal)
  enter (.answered policy ((request before.journal).call before.context) result)
  propagate result

def checkTimeout (environment : Environment E C A) :
    Supervision S E C A (List A) :=
  consult .propagate fun journal =>
    .checkTimeout (environment.polled journal) (environment.armed journal)

def handle (environment : Environment E C A) (policy : Policy) (event : E) :
    Supervision S E C A (List A) :=
  consult policy fun journal => .handle event (environment.armed journal)

end Calls

def receive (environment : Environment E C A) : Supervision S E C A E := do
  let before ← Async.read
  let event ← borrow (environment.receive before.journal)
  enter (.received event)
  return event

def mapFailure (environment : Environment E C A) (error : FsmError) :
    Supervision S E C A E := do
  let before ← Async.read
  let event ← borrow (environment.mapFailure before.journal error)
  enter (.mapped error event)
  return event

variable [FsmAction A C]

def attempt (policy : Policy) (action : A) :
    Supervision S E C A (FsmResult Unit) := do
  let result ← borrow (FsmAction.execute action)
  enter (.executed policy action (errorOf result))
  return result

/-- `action.execute(&mut context).await?` -/
def execute (action : A) : Supervision S E C A Unit := do
  let result ← attempt .propagate action
  propagate result

variable [StateVariant S] [EventVariant E]

def recover (environment : Environment E C A) (error : FsmError) :
    Supervision S E C A Unit := do
  let failureEvent ← mapFailure environment error
  let failureActions ← handle environment .propagate failureEvent
  Async.forEach execute failureActions

def executeOrRecover (environment : Environment E C A) (action : A) :
    Supervision S E C A Unit := do
  match ← attempt .recover action with
  | .ok () => pure ()
  | .error error => recover environment error

/-- The body of the loop. -/
def turn (environment : Environment E C A) : Supervision S E C A Unit := do
  let timeoutActions ← checkTimeout environment
  Async.forEach execute timeoutActions
  let event ← receive environment
  let actions ← handle environment .recover event
  Async.forEach (executeOrRecover environment) actions

/-- The loop, up to some number of turns; it ends by itself with an error
only. -/
def supervise (environment : Environment E C A) (turns : Nat) :
    Supervision S E C A Unit :=
  Async.rounds (turn environment) turns

def start (machine : StateMachine S E C A) (context : C) :
    Supervisor S E C A :=
  { machine := machine, context := context, journal := [] }

end Supervisor

/-! ### What the loop owes -/

inductive Duty (E A : Type) where
  | receive
  | deliver (policy : Policy) (event : E)
  | perform (policy : Policy) (action : A)
  | mapFailure (error : FsmError)
  | escalate (error : FsmError)

def Entry.settles : Entry E C A → Option (Duty E A)
  | .answered policy (.handle event _ _) _ => some (.deliver policy event)
  | .answered _ (.checkTimeout _ _ _) _ => none
  | .received _ => some .receive
  | .executed policy action _ => some (.perform policy action)
  | .mapped error _ => some (.mapFailure error)

def Entry.incurs : Entry E C A → List (Duty E A)
  | .answered policy (.handle _ _ _) (.ok actions) =>
      actions.map (.perform policy)
  | .answered policy (.checkTimeout _ _ _) (.ok actions) =>
      actions.map (.perform policy) ++ [.receive]
  | .answered _ _ (.error error) => [.escalate error]
  | .received event => [.deliver .recover event]
  | .executed _ _ none => []
  | .executed .propagate _ (some error) => [.escalate error]
  | .executed .recover _ (some error) => [.mapFailure error]
  | .mapped _ event => [.deliver .propagate event]

/-- The loop as its documentation describes it: every returned action is
executed, every event is handled, and no failure goes unanswered. -/
def hostAgenda (E C A : Type) : Agenda (Entry E C A) (Duty E A) where
  settles := Entry.settles
  incurs := Entry.incurs

/-- The door's host: it waits for the next visitor, and opens again when the
bell fails. -/
def Door.porter : Environment DoorEvent DoorContext DoorAction where
  polled := fun journal => journal.length
  armed := fun journal => journal.length
  receive := fun _ context => .pending context (.ready .opening context)
  mapFailure := fun _ _ context => .ready .opening context

end ObzenflowFsm
