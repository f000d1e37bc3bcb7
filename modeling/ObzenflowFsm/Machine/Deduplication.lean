import ObzenflowFsm.Machine.Refinement
import ObzenflowFsm.Theory.Redelivery

namespace ObzenflowFsm

open Polling Registry TimedMealy Redelivery

variable {S E C A Id : Type}

/-- An event as it is fed to a machine: with the context that is lent, and the
reading at which a deadline is armed. -/
structure Delivery (E C : Type) where
  event : E
  context : C
  armed : Instant

def Delivery.call (delivery : Delivery E C) : Call E C :=
  .handle delivery.event delivery.context delivery.armed

section Registered

variable [StateVariant S] [EventVariant E]

/-- The handler that an event is dispatched to: the row of the state's variant,
else that of the wildcard. -/
def Registrations.handlerFor (registrations : Registrations S E C A)
    (state : S) (event : E) : Option (TransitionHandler S E C A) :=
  let rows := registrations.rows.map Row.entry
  let eventName := EventVariant.variantName event
  (latest rows (StateVariant.variantName state, eventName)).or
    (latest rows ("_", eventName))

/-- There are no hooks, and handlers keep the events they have processed in the
state: they stay put when given one again, and take up a new one whatever the
context. -/
structure Registrations.Deduplicates (registrations : Registrations S E C A)
    (id : E → Id) (seen : S → Set Id) : Prop where
  entries : registrations.entries = []
  exits : registrations.exits = []
  stays : ∀ state event handler,
    registrations.handlerFor state event = some handler →
      id event ∈ seen state →
        ∀ context, (handler state event context).value = .ok (stay state)
  processes : ∀ state event handler,
    registrations.handlerFor state event = some handler →
      id event ∉ seen state →
        ∃ transition : Transition S A,
          (∀ context,
            (handler state event context).value = .ok transition) ∧
          seen transition.nextState = insert (id event) (seen state)

/-- What the handler of an event makes of it in a sample context. -/
def Registrations.process (registrations : Registrations S E C A)
    (sample : C) (state : S) (event : E) : List A × S :=
  match registrations.handlerFor state event with
  | none => ([], state)
  | some handler =>
      match (handler state event sample).value with
      | .ok transition => (transition.actions, transition.nextState)
      | .error _ => ([], state)

variable {registrations : Registrations S E C A} {id : E → Id}
  {seen : S → Set Id}

theorem Registrations.Deduplicates.deduplicates
    (deduplicates : registrations.Deduplicates id seen) (sample : C)
    {state : S} {event : E}
    (handled : registrations.handlerFor state event ≠ none) :
    Redelivery.Deduplicates (registrations.process sample) id seen state
      event := by
  obtain ⟨handler, found⟩ := Option.ne_none_iff_exists'.mp handled
  constructor
  · intro repeated
    simp only [process, found,
      deduplicates.stays state event handler found repeated sample]
    rfl
  · intro fresh
    obtain ⟨transition, answered, remembered⟩ :=
      deduplicates.processes state event handler found fresh
    simp only [process, found, answered sample, remembered]

/-- The outcome of a handler does not depend on the context. -/
theorem Registrations.Deduplicates.exists_outcome
    (deduplicates : registrations.Deduplicates id seen) {state : S}
    {event : E} {handler : TransitionHandler S E C A}
    (found : registrations.handlerFor state event = some handler) :
    ∃ transition, ∀ context,
      (handler state event context).value = .ok transition := by
  by_cases repeated : id event ∈ seen state
  · exact ⟨stay state, deduplicates.stays state event handler found repeated⟩
  · obtain ⟨transition, answered, _⟩ :=
      deduplicates.processes state event handler found repeated
    exact ⟨transition, answered⟩

theorem Registrations.react_of_handlerFor {state : S} {event : E}
    {handler : TransitionHandler S E C A}
    (found : registrations.handlerFor state event = some handler) :
    registrations.react state event =
      .move (settleTransition (handler state event)) := by
  simp only [handlerFor] at found
  simp only [react]
  cases exact : latest (registrations.rows.map Row.entry)
      (StateVariant.variantName state, EventVariant.variantName event) with
  | some other =>
      rw [exact] at found
      cases found
      rfl
  | none =>
      rw [exact, Option.none_or] at found
      simp only [found]

theorem Registrations.Deduplicates.move_eq
    (deduplicates : registrations.Deduplicates id seen) (armed : Instant)
    (here : Position S) (next : S) (actions : List A) (given : C) :
    registrations.reference.move armed here (.ok (next, actions), given) =
      ⟨.ok actions, given,
        ⟨next, (registrations.reference.delay next).map (armed + ·)⟩⟩ := by
  have leaves : registrations.reference.leave here.state given =
      (.ok [], given) := by
    simp only [reference, settleHook, deduplicates.exits, latest_nil]
  have enters : registrations.reference.enter next given =
      (.ok [], given) := by
    simp only [reference, settleHook, deduplicates.entries, latest_nil]
  rw [Machine.move_of_enter leaves enters]
  rfl

theorem Tables.Hold.report_handled {machine : StateMachine S E C A}
    (holds : machine.toTables.Hold registrations)
    (deduplicates : registrations.Deduplicates id seen) (sample : C)
    (delivery : Delivery E C)
    (handled : registrations.handlerFor machine.currentState delivery.event ≠
      none) :
    (machine.report delivery.call).result =
        .ok (registrations.process sample machine.currentState
          delivery.event).1 ∧
      (machine.report delivery.call).machine.currentState =
        (registrations.process sample machine.currentState
          delivery.event).2 := by
  obtain ⟨handler, found⟩ := Option.ne_none_iff_exists'.mp handled
  obtain ⟨transition, answered⟩ := deduplicates.exists_outcome found
  have settled : settleTransition
      (handler machine.currentState delivery.event) delivery.context =
        (.ok (transition.nextState, transition.actions), _) :=
    settleTransition_ok ⟨answered delivery.context, rfl, rfl⟩
  have response := holds.response_eq delivery.call
  have reacted : registrations.reference.respond machine.position
      delivery.call.input =
        registrations.reference.move delivery.armed machine.position
          (settleTransition (handler machine.currentState delivery.event)
            delivery.context) := by
    have reacts : registrations.reference.react machine.position.state
        delivery.event = .move (settleTransition
          (handler machine.currentState delivery.event)) :=
      Registrations.react_of_handlerFor found
    simp only [Delivery.call, Call.input, Machine.respond, Machine.onEvent,
      reacts]
  rw [reacted, settled, deduplicates.move_eq] at response
  simp only [Registrations.process, found, answered sample]
  exact ⟨congrArg Response.result response,
    congrArg (fun answer => answer.position.state) response⟩

/-! ### Whole streams -/

variable {machine : StateMachine S E C A}

/-- The machine goes through a stream as its handlers process it. -/
structure Follows (registrations : Registrations S E C A) (sample : C)
    (machine : StateMachine S E C A) (stream : List (Delivery E C)) :
    Prop where
  states : (Trajectory.states StateMachine.step machine
      (stream.map Delivery.call)).map StateMachine.currentState =
    Trajectory.states (registrations.process sample) machine.currentState
      (stream.map Delivery.event)
  returned : (Trajectory.outputs StateMachine.step machine
      (stream.map Delivery.call)).flatMap Report.returned =
    (Trajectory.outputs (registrations.process sample) machine.currentState
      (stream.map Delivery.event)).flatten
  succeeds : ∀ report ∈ Trajectory.outputs StateMachine.step machine
      (stream.map Delivery.call),
    ∃ actions, report.result = .ok actions
  final : (Trajectory.final StateMachine.step machine
      (stream.map Delivery.call)).currentState =
    Trajectory.final (registrations.process sample) machine.currentState
      (stream.map Delivery.event)

theorem Follows.nil (registrations : Registrations S E C A) (sample : C)
    (machine : StateMachine S E C A) :
    Follows registrations sample machine [] :=
  ⟨rfl, rfl, by simp, rfl⟩

end Registered

/-! ### A ledger that keeps the credits it has processed -/

structure Credit where
  id : Nat
  amount : Nat
  deriving DecidableEq

structure Ledger where
  processed : List Nat := []
  balance : Nat := 0
  deriving DecidableEq

instance : StateVariant Ledger := ⟨fun _ => "Counting"⟩

instance : EventVariant Credit := ⟨fun _ => "Credit"⟩

namespace Ledger

/-- The context counts the duplicates; the actions are the amounts paid. -/
def credit : TransitionHandler Ledger Credit Nat Nat :=
  fun ledger credit duplicates =>
    if credit.id ∈ ledger.processed then
      .ready (.ok (stay ledger)) (duplicates + 1)
    else
      .ready (.ok
        { nextState :=
            { processed := credit.id :: ledger.processed
              balance := ledger.balance + credit.amount }
          actions := [credit.amount] }) duplicates

def chain : Chain Ledger Credit Nat Nat .fsm :=
  Chain.new {}
    |>.call (.when "Counting")
    |>.call (.whenOn "Credit" credit)
    |>.call .whenDone

def machine : StateMachine Ledger Credit Nat Nat := chain.eval.machine 0

theorem deduplicates :
    chain.registrations.Deduplicates Credit.id
      fun ledger => {id | id ∈ ledger.processed} where
  entries := rfl
  exits := rfl
  stays := by
    intro ledger event handler found repeated context
    cases found
    have member : event.id ∈ ledger.processed := repeated
    change (credit ledger event context).value = .ok (stay ledger)
    rw [credit, if_pos member]
    rfl
  processes := by
    intro ledger event handler found fresh
    cases found
    have unprocessed : event.id ∉ ledger.processed := fresh
    refine ⟨⟨⟨event.id :: ledger.processed, ledger.balance + event.amount⟩,
      [event.amount]⟩, ?_, ?_⟩
    · intro context
      change (credit ledger event context).value = _
      rw [credit, if_neg unprocessed]
      rfl
    · ext other
      exact List.mem_cons

def first : Credit := ⟨1, 100⟩

def second : Credit := ⟨2, 50⟩

def original : List (Delivery Credit Nat) :=
  [⟨first, 0, 1⟩, ⟨second, 0, 2⟩]

def delivered : List (Delivery Credit Nat) :=
  [⟨first, 0, 1⟩, ⟨first, 7, 2⟩, ⟨second, 3, 3⟩, ⟨first, 1, 4⟩]

end Ledger

end ObzenflowFsm
