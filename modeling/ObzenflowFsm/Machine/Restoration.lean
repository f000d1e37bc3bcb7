import ObzenflowFsm.Machine.Completion
import ObzenflowFsm.Machine.Refinement

namespace ObzenflowFsm

open Registry TimedMealy

variable {S E C A : Type}

/-! ### The same configuration from another state -/

def Stage.restart (state : S) : {stage : Stage} →
    stage.Builder S E C A → stage.Builder S E C A
  | .fsm, builder => { builder with initialState := state }
  | .when, block =>
      { block with builder := { block.builder with initialState := state } }
  | .timeout, block =>
      { block with builder := { block.builder with initialState := state } }

/-- The same builder calls, made on a builder with another initial state. -/
def Chain.restart (state : S) : Chain S E C A stage → Chain S E C A stage
  | .new _ => .new state
  | .call chain next => .call (chain.restart state) next

theorem WhenBuilder.on_restart (block : WhenBuilder S E C A) (state : S)
    (eventName : String) (handler : TransitionHandler S E C A) :
    WhenBuilder.on
        { block with builder := { block.builder with initialState := state } }
        eventName handler =
      { block.on eventName handler with
        builder :=
          { (block.on eventName handler).builder with
            initialState := state } } := by
  unfold WhenBuilder.on
  by_cases member : (block.stateName, eventName) ∈ block.builder.transitions
  · simp only [if_pos member]
  · simp only [if_neg member]

theorem BuilderCall.apply_restart (call : BuilderCall S E C A source target)
    (state : S) (builder : source.Builder S E C A) :
    call.apply (Stage.restart state builder) =
      Stage.restart state (call.apply builder) := by
  cases call with
  | whenOn eventName handler =>
      exact WhenBuilder.on_restart builder state eventName handler
  | strict | when | fromAny | whenUnhandled | onEntry | onExit | timeout
  | whenDone | timeoutOn | timeoutDone => rfl

namespace Chain

variable (chain : Chain S E C A stage) (state : S)

theorem eval_restart :
    (chain.restart state).eval = Stage.restart state chain.eval := by
  induction chain with
  | new initialState => rfl
  | call chain next induction =>
      rw [restart, eval, induction, next.apply_restart]
      rfl

theorem blockName_restart :
    (chain.restart state).blockName = chain.blockName := by
  induction chain with
  | new initialState => rfl
  | call chain next induction =>
      cases next with
      | when | fromAny => rfl
      | strict | whenUnhandled | onEntry | onExit | whenOn | timeout
      | whenDone | timeoutOn | timeoutDone => exact induction

theorem registrations_restart :
    (chain.restart state).registrations = chain.registrations := by
  induction chain with
  | new initialState => rfl
  | call chain next induction =>
      rw [restart, registrations, registrations, blockName_restart, induction]

theorem initialState_restart :
    (chain.restart state).initialState = state := by
  induction chain with
  | new initialState => rfl
  | call chain next induction => exact induction

end Chain

namespace StateMachine

/-! ### Two machines that differ in their deadline -/

/-- The machines have the same tables and stand in the same state. -/
structure Twin (machine other : StateMachine S E C A) : Prop where
  tables : machine.toTables = other.toTables
  state : machine.currentState = other.currentState

theorem Twin.symm {machine other : StateMachine S E C A}
    (twin : machine.Twin other) : other.Twin machine :=
  ⟨twin.tables.symm, twin.state.symm⟩

variable [StateVariant S]

theorem Twin.settled_eq {machine other : StateMachine S E C A}
    (twin : machine.Twin other) (state : S) (armed : Instant) :
    machine.settled state armed = other.settled state armed := by
  simp only [settled, rearmed, twin.tables]

variable [EventVariant E]

section Tables

variable {machine other : StateMachine S E C A}
  {registrations : Registrations S E C A}

theorem Twin.alike (twin : machine.Twin other)
    (holds : machine.toTables.Hold registrations) (event : E) (context : C)
    (armed : Instant) :
    Machine.Alike
      (machine.report (.handle event context armed)).response
      (other.report (.handle event context armed)).response := by
  have otherHolds := holds
  rw [twin.tables] at otherHolds
  rw [holds.response_eq, otherHolds.response_eq]
  exact registrations.reference.onEvent_alike twin.state event context armed

theorem select_of_completed {call : Call E C}
    (completed : (machine.report call).completed ≠ none) :
    ∃ trigger actions, machine.select call = .fire trigger ∧
      (machine.report call).result = .ok actions := by
  cases machine.completion call with
  | uncompleted absent kept unfinished => exact absurd absent completed
  | completed selected held succeeded settled readings =>
      exact ⟨_, _, selected, succeeded⟩

/-- A call that completes a transition of both machines finds the deadlines
reached, if it is a `check_timeout`. -/
theorem Twin.alike_of_completed (twin : machine.Twin other)
    (holds : machine.toTables.Hold registrations) {call : Call E C}
    (completed : (machine.report call).completed ≠ none)
    (otherCompleted : (other.report call).completed ≠ none) :
    Machine.Alike (machine.report call).response
      (other.report call).response := by
  cases call with
  | handle event context armed => exact twin.alike holds event context armed
  | checkTimeout context polled armed =>
      obtain ⟨_, _, selected, _⟩ := select_of_completed completed
      obtain ⟨_, _, otherSelected, _⟩ := select_of_completed otherCompleted
      obtain ⟨deadline, _, _, _, held, _, reached⟩ :=
        selectTimeout_fire selected
      obtain ⟨otherDeadline, _, _, _, otherHeld, _, otherReached⟩ :=
        selectTimeout_fire otherSelected
      have otherHolds := holds
      rw [twin.tables] at otherHolds
      rw [holds.response_eq, otherHolds.response_eq]
      exact registrations.reference.onPoll_alike twin.state held otherHeld
        reached otherReached context armed

/-- Once a call has completed a transition, the deadlines are the same. -/
theorem Twin.eq_of_completed (twin : machine.Twin other) {call : Call E C}
    (alike : Machine.Alike (machine.report call).response
      (other.report call).response)
    (completed : (machine.report call).completed ≠ none)
    (otherCompleted : (other.report call).completed ≠ none) :
    (machine.report call).machine = (other.report call).machine := by
  cases machine.completion call with
  | uncompleted absent kept unfinished => exact absurd absent completed
  | completed selected held succeeded settled readings =>
      cases other.completion call with
      | uncompleted absent kept unfinished =>
          exact absurd absent otherCompleted
      | completed _ _ _ otherSettled _ =>
          have state := alike.state
          simp only [Report.response, settled, otherSettled,
            position_settled] at state
          rw [settled, otherSettled, state, twin.settled_eq]

/-- Nor does an event that panics depend on the deadline. -/
theorem Twin.settles_iff (twin : machine.Twin other) (event : E) (context : C)
    (armed : Instant) (transition : Transition S A) :
    machine.Settles (.handle event context armed) transition ↔
      other.Settles (.handle event context armed) transition := by
  obtain ⟨tables, state, deadline⟩ := machine
  obtain ⟨otherTables, otherState, otherDeadline⟩ := other
  obtain ⟨sameTables, sameState⟩ := twin
  cases sameTables
  cases sameState
  exact Iff.rfl

theorem Twin.overflows_iff (twin : machine.Twin other) (event : E)
    (context : C) (armed : Instant) :
    machine.Overflows (.handle event context armed) ↔
      other.Overflows (.handle event context armed) := by
  simp only [Overflows, twin.settles_iff, twin.tables]

theorem Settles.completed {call : Call E C} {transition : Transition S A}
    (settles : machine.Settles call transition) :
    (machine.report call).completed ≠ none := by
  obtain ⟨left, actions, reached, entered⟩ := settles
  cases machine.completion call with
  | completed selected held succeeded settled readings => simp [held]
  | uncompleted absent kept unfinished =>
      have fires : ∃ trigger, machine.select call = .fire trigger := by
        by_contra unfired
        rw [entering_of_unfired (not_exists.mp unfired)] at reached
        cases reached
      obtain ⟨trigger, selected⟩ := fires
      obtain ⟨error, failed⟩ := unfinished trigger selected
      cases machine.ending call with
      | stayed absent unchanged suspended =>
          rw [absent] at reached
          cases reached
      | entryFailed reachedThere refused result moved suspended =>
          rw [reachedThere] at reached
          cases reached
          rw [refused] at entered
          cases entered
      | completed reached entered succeeded settled suspended suspends =>
          exact absurd failed (succeeded error)

end Tables

end StateMachine

namespace Checked

open StateMachine

variable [StateVariant S] [EventVariant E]

/-- What a host can tell of a call, but for the deadline. -/
def answer (machine : StateMachine S E C A) (call : Call E C) :
    (Except Interruption (List A) × C × S) × StateMachine S E C A :=
  let (response, left) := respond machine call
  ((response.result, response.context, response.position.state), left)

/-- The call completes a transition: it arms the deadline of the state it has
entered, or clears it. -/
def Completes (machine : StateMachine S E C A) (call : Call E C) : Prop :=
  (∃ transition, machine.Settles call transition) ∧
    ¬ machine.Overflows call

/-- No `check_timeout` precedes the first call that completes a transition. -/
def Patient (machine : StateMachine S E C A) : List (Call E C) → Prop
  | [] => True
  | call :: rest =>
      ¬ Completes machine call →
        (∃ event context armed, call = .handle event context armed) ∧
          Patient (respond machine call).2 rest

section Tables

variable {machine other : StateMachine S E C A}
  {registrations : Registrations S E C A}

theorem answer_eq_of_alike {call : Call E C}
    (alike : Machine.Alike (machine.report call).response
      (other.report call).response)
    (together : machine.Overflows call ↔ other.Overflows call) :
    (answer machine call).1 = (answer other call).1 := by
  have first := alike_perform machine call
  have second := alike_perform other call
  refine Prod.ext ?_ (Prod.ext ?_ ?_)
  · by_cases overflows : machine.Overflows call
    · exact (panics_iff.mpr overflows).trans
        (panics_iff.mpr (together.mp overflows)).symm
    · simp only [answer, respond_of_fits overflows,
        respond_of_fits (mt together.mpr overflows)]
      exact congrArg (Except.mapError _) alike.result
  · exact first.context.trans (alike.context.trans second.context.symm)
  · exact first.state.trans (alike.state.trans second.state.symm)

theorem twin_respond (twin : machine.Twin other)
    (holds : machine.toTables.Hold registrations) (event : E) (context : C)
    (armed : Instant) :
    (respond machine (.handle event context armed)).2.Twin
      (respond other (.handle event context armed)).2 where
  tables := by rw [respond_toTables, respond_toTables, twin.tables]
  state :=
    congrArg (fun response => response.2.2)
      (answer_eq_of_alike (twin.alike holds event context armed)
        (twin.overflows_iff event context armed))

theorem twin_completes_iff (twin : machine.Twin other) (event : E)
    (context : C) (armed : Instant) :
    Completes machine (.handle event context armed) ↔
      Completes other (.handle event context armed) := by
  simp only [Completes, twin.settles_iff, twin.overflows_iff]

/-- A call that completes a transition of both machines makes one of them. -/
theorem twin_respond_of_completes (twin : machine.Twin other)
    (holds : machine.toTables.Hold registrations) {call : Call E C}
    (completes : Completes machine call)
    (otherCompletes : Completes other call) :
    (answer machine call).1 = (answer other call).1 ∧
      (respond machine call).2 = (respond other call).2 := by
  obtain ⟨⟨_, settles⟩, fits⟩ := completes
  obtain ⟨⟨_, otherSettles⟩, otherFits⟩ := otherCompletes
  have alike := twin.alike_of_completed holds settles.completed
    otherSettles.completed
  constructor
  · exact answer_eq_of_alike alike (iff_of_false fits otherFits)
  · rw [respond_of_fits fits, respond_of_fits otherFits]
    exact twin.eq_of_completed alike settles.completed otherSettles.completed

/-- The machines give the same answers on a run, and after any part of it in
which a call has completed a transition they are the same machine. -/
structure Restores (machine restored : StateMachine S E C A)
    (calls : List (Call E C)) : Prop where
  answers : Trajectory.outputs answer machine calls =
    Trajectory.outputs answer restored calls
  converges : ∀ before after, calls = before ++ after →
    (∃ visit ∈ Trajectory.visits respond machine before,
      Completes visit.1 visit.2) →
    Trajectory.final respond machine before =
      Trajectory.final respond restored before

theorem Restores.refl (machine : StateMachine S E C A)
    (calls : List (Call E C)) : Restores machine machine calls :=
  ⟨rfl, fun _ _ _ _ => rfl⟩

theorem Restores.cons {call : Call E C} {rest : List (Call E C)}
    (first : (answer machine call).1 = (answer other call).1)
    (converged : Completes machine call →
      (respond machine call).2 = (respond other call).2)
    (later : Restores (respond machine call).2 (respond other call).2 rest) :
    Restores machine other (call :: rest) where
  answers := by
    change _ :: Trajectory.outputs answer _ rest =
      _ :: Trajectory.outputs answer _ rest
    rw [first]
    exact congrArg _ later.answers
  converges := by
    intro before after split completed
    obtain ⟨visit, member, completes⟩ := completed
    cases before with
    | nil => cases member
    | cons head tail =>
        obtain ⟨rfl, tailSplit⟩ := List.cons.inj split
        rcases List.mem_cons.mp member with rfl | member
        · exact congrArg (Trajectory.final respond · tail)
            (converged completes)
        · exact later.converges tail after tailSplit
            ⟨visit, member, completes⟩

theorem twin_restores (twin : machine.Twin other)
    (holds : machine.toTables.Hold registrations) (calls : List (Call E C))
    (patient : Patient machine calls) (otherPatient : Patient other calls) :
    Restores machine other calls := by
  induction calls generalizing machine other with
  | nil =>
      refine ⟨rfl, ?_⟩
      intro before after split completed
      obtain ⟨rfl, rfl⟩ := List.append_eq_nil_iff.mp split.symm
      obtain ⟨visit, member, _⟩ := completed
      cases member
  | cons call rest induction =>
      by_cases completes : Completes machine call
      · have otherCompletes : Completes other call := by
          by_contra uncompleted
          obtain ⟨⟨event, context, armed, rfl⟩, _⟩ := otherPatient uncompleted
          exact uncompleted
            ((twin_completes_iff twin event context armed).mp completes)
        obtain ⟨first, same⟩ :=
          twin_respond_of_completes twin holds completes otherCompletes
        refine .cons first (fun _ => same) ?_
        rw [same]
        exact .refl _ rest
      · obtain ⟨⟨event, context, armed, rfl⟩, patientRest⟩ :=
          patient completes
        have otherUncompleted :=
          mt (twin_completes_iff twin event context armed).mpr completes
        have first := answer_eq_of_alike (twin.alike holds event context armed)
          (twin.overflows_iff event context armed)
        refine .cons first (fun completed => absurd completed completes) ?_
        refine induction (twin_respond twin holds event context armed) ?_
          patientRest (otherPatient otherUncompleted).2
        rw [respond_toTables]
        exact holds

end Tables

end Checked

section Reached

variable [StateVariant S]

theorem FsmBuilder.currentState_machine (builder : FsmBuilder S E C A)
    (now : Instant) :
    (builder.machine now).currentState = builder.initialState := by
  rw [builder.machine_eq_settled]
  rfl

/-- Building from another state succeeds if that state has something to do. -/
theorem Chain.tryBuild_restart {chain : Chain S E C A .fsm} {now : Instant}
    {machine : StateMachine S E C A}
    (built : chain.eval.tryBuild now = .ok machine) {state : S}
    (serves : chain.registrations.Serves (StateVariant.variantName state))
    (later : Instant) :
    ∃ restored, (chain.restart state).eval.tryBuild later = .ok restored ∧
      restored.toTables = machine.toTables ∧
      restored.currentState = state := by
  have accepted := (chain.accepted_iff now).mp built
  refine ⟨(chain.restart state).eval.machine later, ?_, ?_, ?_⟩
  · refine ((chain.restart state).accepted_iff later).mpr ⟨?_, ?_, rfl⟩
    · rw [chain.registrations_restart]
      exact accepted.unrecorded
    · rw [chain.registrations_restart, chain.initialState_restart]
      exact serves
  · rw [accepted.constructed, FsmBuilder.tables_machine,
      FsmBuilder.tables_machine, chain.eval_restart]
    rfl
  · rw [FsmBuilder.currentState_machine, chain.eval_restart]
    rfl

variable [EventVariant E]

/-- The same configuration builds in the state that the machine stands in, and
goes on as the machine does. -/
def Chain.Restores (chain : Chain S E C A .fsm)
    (machine : StateMachine S E C A) (later : Instant) : Prop :=
  ∃ restored,
    Checked.tryBuild (chain.restart machine.currentState).eval later =
        .ok restored ∧
      ∀ calls : List (Call E C), Checked.Patient machine calls →
        Checked.Patient restored calls →
          Checked.Restores machine restored calls

/-- A machine is restored from the state that it has reached, in whatever way,
exactly if that state's deadline can be armed at the time. -/
theorem Chain.restores_iff (chain : Chain S E C A .fsm) {horizon : Instant}
    {machine : StateMachine S E C A}
    (reaches : chain.CheckedReaches horizon machine)
    (serves : chain.registrations.Serves
      (StateVariant.variantName machine.currentState))
    (later : Instant) :
    chain.Restores machine later ↔
      ∀ timeout,
        latest chain.registrations.timeouts
            (StateVariant.variantName machine.currentState) = some timeout →
          Instant.Representable (later + timeout.1) := by
  have holds := reaches.hold
  obtain ⟨now, start, _, built, reachable⟩ := reaches
  have accepted := ((chain.checked_built_iff now).mp built).1
  obtain ⟨restored, rebuilt, tables, state⟩ :=
    Chain.tryBuild_restart accepted serves later
  constructor
  · intro restores timeout found
    obtain ⟨other, checked, _⟩ := restores
    by_contra large
    refine (((chain.restart machine.currentState).checked_built_iff later).mp
      checked).2 ⟨?_, timeout, ?_, large⟩
    · rw [chain.registrations_restart]
      exact ((chain.accepted_iff now).mp accepted).unrecorded
    · rw [chain.registrations_restart, chain.initialState_restart]
      exact found
  · intro short
    refine ⟨restored, ?_, ?_⟩
    · refine ((chain.restart machine.currentState).checked_built_iff
        later).mpr ⟨rebuilt, ?_⟩
      intro overflows
      obtain ⟨_, timeout, found, large⟩ := overflows
      rw [chain.registrations_restart, chain.initialState_restart] at found
      exact large (short timeout found)
    · intro calls patient restoredPatient
      have twin : machine.Twin restored :=
        ⟨reachable.toTables.trans tables.symm, state.symm⟩
      exact Checked.twin_restores twin holds calls patient restoredPatient

end Reached

namespace Door

/-- The door as a failed entry hook has left it: open, and with no deadline. -/
def jammed : StateMachine DoorState DoorEvent DoorContext DoorAction :=
  (Checked.respond (machine jam) (.handle .opening {} 0)).2

theorem jammed_reached : (chain jam).CheckedReaches 0 jammed :=
  ⟨0, machine jam, le_rfl, rfl, .completed .start _ (by decide)⟩

theorem jammed_restored : (chain jam).Restores jammed 7 := by
  refine ((chain jam).restores_iff jammed_reached
    (.inr (List.mem_singleton_self "Open")) 7).mpr ?_
  intro timeout found
  cases found
  decide

/-- Nothing has panicked when the hook fails; the rebuild in that state does. -/
theorem openForGood_not_restored :
    ¬ ∀ horizon reached, (openForGood jam).CheckedReaches horizon reached →
      (openForGood jam).registrations.Serves
          (StateVariant.variantName reached.currentState) →
        ∀ later, (openForGood jam).Restores reached later := by
  intro restores
  obtain ⟨restored, rebuilt, _⟩ := restores 0
    (Checked.respond ((openForGood jam).eval.machine 0)
      (.handle .opening {} 0)).2
    ⟨0, _, le_rfl, rfl, .completed .start _ (by decide)⟩
    (.inr (List.mem_singleton_self "Open")) 0
  cases rebuilt

end Door

end ObzenflowFsm
