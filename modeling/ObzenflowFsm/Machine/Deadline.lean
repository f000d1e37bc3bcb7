import ObzenflowFsm.Machine.Completion

namespace ObzenflowFsm

open Polling Registry

variable {S E C A : Type}

/-! Whose deadline a machine holds, whatever its host's calls came to. -/

/-- The state that a completed transition, or construction, led to, and the
clock reading its deadline was counted from. -/
structure Arrival (S : Type) where
  state : S
  armed : Instant

namespace Registrations

variable [StateVariant S]

def deadline (registrations : Registrations S E C A) (last : Arrival S) :
    Option Instant :=
  (latest registrations.timeouts (StateVariant.variantName last.state)).map
    fun timeout => last.armed + timeout.1

def timeoutHandler (registrations : Registrations S E C A) (state : S) :
    Option (TimeoutHandler S C A) :=
  (latest registrations.timeouts (StateVariant.variantName state)).map
    Prod.snd

end Registrations

variable [StateVariant S] [EventVariant E]

/-- A machine that a host can be left with, and where it arrived last: calls
that fail, do nothing or are dropped arrive nowhere. -/
inductive Chain.Arrives (chain : Chain S E C A .fsm) (now : Instant) :
    Arrival S → StateMachine S E C A → Prop
  | built (accepted : chain.eval.tryBuild now = .ok machine) :
      Arrives chain now ⟨chain.initialState, now⟩ machine
  | completed (arrives : Arrives chain now last machine) (call : Call E C)
      (held : (machine.report call).completed = some trigger) :
      Arrives chain now
        ⟨(machine.report call).machine.currentState, call.armed⟩
        (machine.report call).machine
  | uncompleted (arrives : Arrives chain now last machine) (call : Call E C)
      (absent : (machine.report call).completed = none) :
      Arrives chain now last (machine.report call).machine
  | dropped (arrives : Arrives chain now last machine) (call : Call E C)
      (dropped : (machine.perform call).DroppedAt left) :
      Arrives chain now last left.machine

/-- The deadline is that of the last arrival; a poll runs the handler of the
variant the machine is in, once that deadline is reached. -/
structure Chain.Expires (chain : Chain S E C A .fsm) (last : Arrival S)
    (machine : StateMachine S E C A) : Prop where
  deadline : machine.stateTimeout = chain.registrations.deadline last
  fires : ∀ (context : C) (polled armed : Instant) (trigger : Trigger S E C A),
    firedTrigger (machine.report (.checkTimeout context polled armed)).trace =
        some trigger ↔
      ∃ deadline handler,
        chain.registrations.deadline last = some deadline ∧
          deadline ≤ polled ∧
          chain.registrations.timeoutHandler machine.currentState =
            some handler ∧
          trigger = .timeout (StateVariant.variantName machine.currentState)
            handler machine.currentState

/-! ### What a poll fires -/

namespace StateMachine

theorem firedTrigger_report (machine : StateMachine S E C A)
    (call : Call E C) (trigger : Trigger S E C A) :
    firedTrigger (machine.report call).trace = some trigger ↔
      machine.select call = .fire trigger := by
  have course := machine.course call
  generalize machine.report call = outcome at course ⊢
  have fired {first : Trigger S E C A} {given left : C}
      {error : Option FsmError} (rest : List (Effect S E C A)) :
      firedTrigger (machine.preamble call ++
          (.invoked (.trigger first) given left error :: rest)) = some first :=
    machine.firedTrigger_of_preamble call _
  cases course with
  | idle selected => simp [selected, firedTrigger_preamble]
  | refused selected => simp [selected, firedTrigger_preamble]
  | absorbed selected answered =>
      rw [firedTrigger_of_preamble, selected]
      simp [firedTrigger]
  | declined selected failed => simp [selected, fired]
  | exitFailed selected answered failed => simp [selected, fired]
  | entryFailed selected answered exited failed => simp [selected, fired]
  | completed selected answered exited entered => simp [selected, fired]

omit [EventVariant E] in
theorem selectTimeout_fire_iff {machine : StateMachine S E C A}
    {polled : Instant} {trigger : Trigger S E C A} :
    machine.selectTimeout polled = .fire trigger ↔
      ∃ deadline timeout, machine.stateTimeout = some deadline ∧
        machine.timeoutHandlers.lookup
            (StateVariant.variantName machine.currentState) = some timeout ∧
        deadline ≤ polled ∧
        trigger = .timeout (StateVariant.variantName machine.currentState)
          timeout.2 machine.currentState := by
  constructor
  · intro selected
    obtain ⟨deadline, duration, handler, same, held, found, reached⟩ :=
      selectTimeout_fire selected
    exact ⟨deadline, (duration, handler), held, found, reached, same⟩
  · intro due
    obtain ⟨deadline, timeout, held, found, reached, rfl⟩ := due
    simp only [selectTimeout, held, found, if_pos reached]

end StateMachine

theorem Tables.Hold.expires {chain : Chain S E C A .fsm}
    {machine : StateMachine S E C A} {last : Arrival S}
    (holds : machine.toTables.Hold chain.registrations)
    (deadline : machine.stateTimeout = chain.registrations.deadline last) :
    chain.Expires last machine where
  deadline := deadline
  fires := by
    intro context polled armed trigger
    rw [StateMachine.firedTrigger_report]
    change machine.selectTimeout polled = .fire trigger ↔ _
    rw [StateMachine.selectTimeout_fire_iff, holds.timeouts, deadline]
    constructor
    · intro due
      obtain ⟨reading, timeout, held, found, reached, same⟩ := due
      exact ⟨reading, timeout.2, held, reached,
        Option.map_eq_some_iff.mpr ⟨timeout, found, rfl⟩, same⟩
    · intro due
      obtain ⟨reading, handler, held, reached, found, same⟩ := due
      obtain ⟨timeout, registered, rfl⟩ := Option.map_eq_some_iff.mp found
      exact ⟨reading, timeout, held, registered, reached, same⟩

/-! ### Whose deadline is held -/

omit [EventVariant E] in
theorem Tables.Hold.deadline_settled {registrations : Registrations S E C A}
    {machine : StateMachine S E C A} {state : S} {armed : Instant}
    (holds : machine.toTables.Hold registrations) :
    (machine.settled state armed).stateTimeout =
      registrations.deadline ⟨state, armed⟩ := by
  change machine.rearmed state armed = _
  rw [StateMachine.rearmed, holds.timeouts]
  rfl

theorem suspended_stateTimeout {machine left : StateMachine S E C A}
    {call : Call E C} (member : left ∈ (machine.report call).suspended) :
    left.stateTimeout = machine.stateTimeout := by
  cases machine.ending call with
  | stayed absent unchanged suspended => rw [suspended left member]
  | entryFailed reached failed result moved suspended =>
      rcases suspended left member with rfl | rfl
      · rfl
      · rfl
  | completed reached entered succeeded settled suspended suspends =>
      rcases suspended left member with rfl | ⟨rfl, _⟩
      · rfl
      · rfl

section Arrivals

variable {chain : Chain S E C A .fsm} {now : Instant}
  {machine : StateMachine S E C A}

theorem Chain.Reaches.report (reaches : chain.Reaches now machine)
    (call : Call E C) : chain.Reaches now (machine.report call).machine := by
  obtain ⟨start, accepted, reachable⟩ := reaches
  exact ⟨start, accepted, .completed reachable call⟩

theorem Chain.Arrives.reaches {last : Arrival S}
    (arrives : chain.Arrives now last machine) : chain.Reaches now machine := by
  induction arrives with
  | built accepted => exact ⟨_, accepted, .start⟩
  | completed arrives call held induction => exact induction.report call
  | uncompleted arrives call absent induction => exact induction.report call
  | dropped arrives call dropped induction =>
      obtain ⟨start, accepted, reachable⟩ := induction
      exact ⟨start, accepted, .dropped reachable call dropped⟩

theorem Chain.Reaches.arrives (reaches : chain.Reaches now machine) :
    ∃ last, chain.Arrives now last machine := by
  obtain ⟨start, accepted, reachable⟩ := reaches
  induction reachable with
  | start => exact ⟨_, .built accepted⟩
  | completed reachable call induction =>
      obtain ⟨last, arrives⟩ := induction
      rename_i reached
      cases held : (reached.report call).completed with
      | none => exact ⟨last, .uncompleted arrives call held⟩
      | some trigger => exact ⟨_, .completed arrives call held⟩
  | dropped reachable call dropped induction =>
      obtain ⟨last, arrives⟩ := induction
      exact ⟨last, .dropped arrives call dropped⟩

theorem Chain.Arrives.stateTimeout {last : Arrival S}
    (arrives : chain.Arrives now last machine) :
    machine.stateTimeout = chain.registrations.deadline last := by
  induction arrives with
  | built accepted =>
      have holds := chain.hold_of_built accepted
      obtain ⟨_, _, rfl⟩ := (chain.accepted_iff now).mp accepted
      have initial : chain.eval.initialState = chain.initialState :=
        chain.initialState_eval
      rw [FsmBuilder.machine_eq_settled, initial] at holds ⊢
      have unarmed : chain.eval.unarmed.toTables.Hold chain.registrations :=
        holds
      exact unarmed.deadline_settled
  | completed arrives call held induction =>
      rename_i reached trigger
      cases reached.completion call with
      | completed selected _ succeeded settled readings =>
          rw [settled]
          exact arrives.reaches.hold.deadline_settled
      | uncompleted absent kept unfinished =>
          rw [absent] at held
          cases held
  | uncompleted arrives call absent induction =>
      rename_i reached
      cases reached.completion call with
      | completed selected held succeeded settled readings =>
          rw [absent] at held
          cases held
      | uncompleted _ kept unfinished => exact kept.trans induction
  | dropped arrives call dropped induction =>
      exact (suspended_stateTimeout (StateMachine.exists_droppedAt_iff.mp
        ⟨_, dropped, rfl⟩)).trans induction

end Arrivals

/-- Whatever the calls of a host came to, the machine it is left with has
arrived somewhere last, and times out by that arrival's deadline. -/
theorem Chain.reached_expires (chain : Chain S E C A .fsm) (now : Instant)
    {machine : StateMachine S E C A} (reaches : chain.Reaches now machine) :
    (∃ last, chain.Arrives now last machine) ∧
      ∀ last, chain.Arrives now last machine → chain.Expires last machine :=
  ⟨reaches.arrives,
    fun _ arrives => reaches.hold.expires arrives.stateTimeout⟩

namespace Door

/-- A door that jams when it is opened: it stands open, but arrived when it was
hung, closed. -/
def stuck : StateMachine DoorState DoorEvent DoorContext DoorAction :=
  ((machine jam).report (.handle .opening {} 1)).machine

theorem reaches_stuck : (chain jam).Reaches 0 stuck :=
  (reaches jam).report (.handle .opening {} 1)

theorem stuck_expires :
    (∃ last, (chain jam).Arrives 0 last stuck) ∧
      ∀ last, (chain jam).Arrives 0 last stuck →
        (chain jam).Expires last stuck :=
  (chain jam).reached_expires 0 reaches_stuck

end Door

end ObzenflowFsm
