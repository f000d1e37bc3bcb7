import ObzenflowFsm.Data.Trajectory
import ObzenflowFsm.Theory.TimedMealy
import ObzenflowFsm.Machine.Course
import ObzenflowFsm.Builder.Validation

namespace ObzenflowFsm

open Polling TimedMealy

variable {S E C A : Type}

namespace StateMachine

def position (machine : StateMachine S E C A) : Position S :=
  ⟨machine.currentState, machine.stateTimeout⟩

@[simp] theorem position_moved (machine : StateMachine S E C A) (state : S) :
    (machine.moved state).position = ⟨state, machine.stateTimeout⟩ := rfl

end StateMachine

def Report.response (report : Report S E C A) : Response S C A FsmError where
  result := report.result
  context := report.context
  position := report.machine.position

namespace StateMachine

variable [StateVariant S]

@[simp] theorem position_settled (machine : StateMachine S E C A) (state : S)
    (armed : Instant) :
    (machine.settled state armed).position =
      ⟨state, machine.rearmed state armed⟩ := rfl

variable [EventVariant E]

/-! ### Whether a call reaches the assignment of the current state -/

theorem entering_of_unfired {machine : StateMachine S E C A} {call : Call E C}
    (unfired : ∀ trigger, machine.select call ≠ .fire trigger) :
    machine.entering call = none := by
  unfold entering
  split
  · rename_i trigger selected
    exact absurd selected (unfired trigger)
  · rfl

theorem entering_of_declined {machine : StateMachine S E C A}
    {call : Call E C} {trigger : Trigger S E C A} {error : FsmError}
    (selected : machine.select call = .fire trigger)
    (failed : (trigger.future call.context).Completes (.error error) final
      suspensions) :
    machine.entering call = none := by
  simp only [entering, selected, failed.value_eq]

theorem entering_of_exitFailed {machine : StateMachine S E C A}
    {call : Call E C} {trigger : Trigger S E C A}
    {transition : Transition S A} {error : FsmError}
    (selected : machine.select call = .fire trigger)
    (answered : (trigger.future call.context).Completes (.ok transition)
      replied suspensions)
    (failed :
      (machine.hookFuture .exit machine.currentState replied).Completes
        (.error error) final exitSuspensions) :
    machine.entering call = none := by
  simp only [entering, selected, answered.value_eq, answered.state_eq,
    failed.value_eq]

theorem entering_of_exited {machine : StateMachine S E C A}
    {call : Call E C} {trigger : Trigger S E C A}
    {transition : Transition S A} {exitActions : List A}
    (selected : machine.select call = .fire trigger)
    (answered : (trigger.future call.context).Completes (.ok transition)
      replied suspensions)
    (exited :
      (machine.hookFuture .exit machine.currentState replied).Completes
        (.ok exitActions) left exitSuspensions) :
    machine.entering call = some (transition, left) := by
  simp only [entering, selected, answered.value_eq, answered.state_eq,
    exited.value_eq, exited.state_eq]

inductive Ending (machine : StateMachine S E C A) (call : Call E C) :
    Report S E C A → Prop
  | stayed (absent : machine.entering call = none)
      (unchanged : outcome.machine = machine)
      (suspended : ∀ left ∈ outcome.suspended, left = machine) :
      Ending machine call outcome
  | entryFailed (reached : machine.entering call = some (transition, left))
      (failed :
        (machine.hookFuture .entry transition.nextState left).value =
          .error error)
      (result : outcome.result = .error error)
      (moved : outcome.machine = machine.moved transition.nextState)
      (suspended : ∀ left ∈ outcome.suspended,
        left = machine ∨ left = machine.moved transition.nextState) :
      Ending machine call outcome
  | completed (reached : machine.entering call = some (transition, left))
      (entered :
        (machine.hookFuture .entry transition.nextState left).value =
          .ok actions)
      (succeeded : ∀ error, outcome.result ≠ .error error)
      (settled :
        outcome.machine = machine.settled transition.nextState call.armed)
      (suspended : ∀ held, held ∈ outcome.suspended →
        held = machine ∨
          held = machine.moved transition.nextState ∧
            (machine.hookFuture .entry transition.nextState
              left).suspensions ≠ [])
      (suspends :
        (machine.hookFuture .entry transition.nextState
            left).suspensions ≠ [] →
          machine.moved transition.nextState ∈ outcome.suspended) :
      Ending machine call outcome

private theorem mem_map_const {Value : Type} {suspensions : List C}
    {value left : Value} (member : left ∈ suspensions.map fun _ => value) :
    left = value ∧ suspensions ≠ [] := by
  obtain ⟨held, heldMember, rfl⟩ := List.mem_map.mp member
  exact ⟨rfl, List.ne_nil_of_mem heldMember⟩

theorem ending (machine : StateMachine S E C A) (call : Call E C) :
    machine.Ending call (machine.report call) := by
  have course := machine.course call
  generalize machine.report call = outcome at course ⊢
  cases course with
  | idle selected =>
      refine .stayed (entering_of_unfired (by simp [selected])) rfl ?_
      intro left member
      cases member
  | refused selected =>
      refine .stayed (entering_of_unfired (by simp [selected])) rfl ?_
      intro left member
      cases member
  | absorbed selected answered =>
      refine .stayed (entering_of_unfired (by simp [selected])) rfl ?_
      intro left member
      exact (mem_map_const member).1
  | declined selected failed =>
      refine .stayed (entering_of_declined selected failed) rfl ?_
      intro left member
      exact (mem_map_const member).1
  | exitFailed selected answered failed =>
      refine .stayed (entering_of_exitFailed selected answered failed) rfl ?_
      intro left member
      rcases List.mem_append.mp member with member | member
      · exact (mem_map_const member).1
      · exact (mem_map_const member).1
  | entryFailed selected answered exited failed =>
      refine .entryFailed (entering_of_exited selected answered exited)
        failed.value_eq rfl rfl ?_
      intro left member
      rcases List.mem_append.mp member with member | member
      · exact .inl (mem_map_const member).1
      · rcases List.mem_append.mp member with member | member
        · exact .inl (mem_map_const member).1
        · exact .inr (mem_map_const member).1
  | completed selected answered exited entered =>
      refine .completed (entering_of_exited selected answered exited)
        entered.value_eq (fun error failed => by cases failed) rfl ?_ ?_
      · intro left member
        rw [entered.suspensions_eq]
        rcases List.mem_append.mp member with member | member
        · exact .inl (mem_map_const member).1
        · rcases List.mem_append.mp member with member | member
          · exact .inl (mem_map_const member).1
          · exact .inr (mem_map_const member)
      · intro suspends
        rw [entered.suspensions_eq] at suspends
        obtain ⟨held, rest, rfl⟩ := List.exists_cons_of_ne_nil suspends
        exact List.mem_append_right _
          (List.mem_append_right _ List.mem_cons_self)

theorem report_currentState (machine : StateMachine S E C A)
    (call : Call E C) :
    (machine.report call).machine.currentState =
      match machine.entering call with
      | none => machine.currentState
      | some (transition, _) => transition.nextState := by
  cases machine.ending call with
  | stayed absent unchanged suspended => rw [absent, unchanged]
  | entryFailed reached failed result moved suspended =>
      rw [reached, moved]
      rfl
  | completed reached entered succeeded settled suspended suspends =>
      rw [reached, settled]
      rfl

theorem report_toTables (machine : StateMachine S E C A) (call : Call E C) :
    (machine.report call).machine.toTables = machine.toTables := by
  cases machine.ending call with
  | stayed absent unchanged suspended => rw [unchanged]
  | entryFailed reached failed result moved suspended =>
      rw [moved]
      rfl
  | completed reached entered succeeded settled suspended suspends =>
      rw [settled]
      rfl

theorem suspended_toTables {machine left : StateMachine S E C A}
    {call : Call E C} (member : left ∈ (machine.report call).suspended) :
    left.toTables = machine.toTables := by
  cases machine.ending call with
  | stayed absent unchanged suspended => rw [suspended left member]
  | entryFailed reached failed result moved suspended =>
      rcases suspended left member with rfl | rfl
      · rfl
      · rfl
  | completed reached entered succeeded settled suspended suspends =>
      rcases suspended left member with rfl | ⟨rfl, _⟩
      · rfl
      · rfl

/-- The machines a dropped call can leave are those it is suspended in. -/
theorem exists_droppedAt_iff {machine left : StateMachine S E C A}
    {call : Call E C} :
    (∃ world, (machine.perform call).DroppedAt world ∧
        world.machine = left) ↔
      left ∈ (machine.report call).suspended := by
  simp only [Future.droppedAt_iff_mem_suspensions, report, List.mem_map]

/-! ### Runs -/

def step (machine : StateMachine S E C A) (call : Call E C) :
    Report S E C A × StateMachine S E C A :=
  (machine.report call, (machine.report call).machine)

def respond (machine : StateMachine S E C A) (call : Call E C) :
    Response S C A FsmError × StateMachine S E C A :=
  ((machine.report call).response, (machine.report call).machine)

/-- What a host can bring a machine to, completing calls and dropping them. -/
inductive Reachable (machine : StateMachine S E C A) :
    StateMachine S E C A → Prop
  | start : Reachable machine machine
  | completed (reachable : Reachable machine reached) (call : Call E C) :
      Reachable machine (reached.report call).machine
  | dropped (reachable : Reachable machine reached) (call : Call E C)
      (dropped : (reached.perform call).DroppedAt left) :
      Reachable machine left.machine

theorem Reachable.toTables {machine reached : StateMachine S E C A}
    (reachable : machine.Reachable reached) :
    reached.toTables = machine.toTables := by
  induction reachable with
  | start => rfl
  | completed reachable call induction =>
      rw [report_toTables, induction]
  | dropped reachable call dropped induction =>
      rw [suspended_toTables (exists_droppedAt_iff.mp ⟨_, dropped, rfl⟩),
        induction]

theorem visits_toTables (machine : StateMachine S E C A)
    (calls : List (Call E C)) :
    ∀ visit ∈ Trajectory.visits step machine calls,
      visit.1.toTables = machine.toTables :=
  Trajectory.visits_invariant
    (fun reached : StateMachine S E C A =>
      reached.toTables = machine.toTables) rfl
    (fun reached call tables => (reached.report_toTables call).trans tables)
    calls

end StateMachine

theorem Tables.Hold.report [StateVariant S] [EventVariant E]
    {registrations : Registrations S E C A} {machine : StateMachine S E C A}
    (holds : machine.toTables.Hold registrations) (call : Call E C) :
    (machine.report call).machine.toTables.Hold registrations := by
  rw [StateMachine.report_toTables]
  exact holds

def FsmBuilder.unarmed (builder : FsmBuilder S E C A) :
    StateMachine S E C A where
  transitions := builder.transitions
  entryHandlers := builder.entryHandlers
  exitHandlers := builder.exitHandlers
  timeoutHandlers := builder.timeoutHandlers
  unhandledHandler := builder.unhandledHandler
  currentState := builder.initialState
  stateTimeout := none

/-- Construction enters the initial state as a call would, without its hook. -/
theorem FsmBuilder.machine_eq_settled [StateVariant S]
    (builder : FsmBuilder S E C A) (now : Instant) :
    builder.machine now =
      builder.unarmed.settled builder.initialState now := by
  simp only [FsmBuilder.machine, StateMachine.new, StateMachine.settled,
    StateMachine.rearmed, FsmBuilder.unarmed]
  cases builder.timeoutHandlers.lookup
      (StateVariant.variantName builder.initialState) with
  | none => rfl
  | some timeout => rfl

def Chain.Reaches [StateVariant S] [EventVariant E]
    (chain : Chain S E C A .fsm) (now : Instant)
    (reached : StateMachine S E C A) : Prop :=
  ∃ machine, chain.eval.tryBuild now = .ok machine ∧
    machine.Reachable reached

theorem Chain.Reaches.hold [StateVariant S] [EventVariant E]
    {chain : Chain S E C A .fsm} {now : Instant}
    {machine : StateMachine S E C A} (reaches : chain.Reaches now machine) :
    machine.toTables.Hold chain.registrations := by
  obtain ⟨start, built, reachable⟩ := reaches
  rw [reachable.toTables]
  exact chain.hold_of_built built

theorem Door.reaches
    (hook : StateHandler DoorState DoorContext DoorAction) :
    (chain hook).Reaches 0 (machine hook) :=
  ⟨machine hook, built hook, .start⟩

end ObzenflowFsm
