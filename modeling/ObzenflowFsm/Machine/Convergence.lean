import ObzenflowFsm.Machine.Interleaving

namespace ObzenflowFsm

open Polling Registry Redelivery Interleaving

variable {S E C A Id Upstream : Type} [StateVariant S] [EventVariant E]

/-! Hosts that deliver the same events, each in an order of its own, more than
once, and dropping calls as they like. -/

/-- A host delivers events to the machine, completing calls or dropping them:
the events of the calls completed, and the actions these returned. -/
inductive StateMachine.Delivers (machine : StateMachine S E C A) :
    List E → List A → StateMachine S E C A → Prop
  | start : Delivers machine [] [] machine
  | completed (delivers : Delivers machine events returned reached)
      (delivery : Delivery E C) :
      Delivers machine (events ++ [delivery.event])
        (returned ++ (reached.report delivery.call).returned)
        (reached.report delivery.call).machine
  | dropped (delivers : Delivers machine events returned reached)
      (delivery : Delivery E C)
      (dropped : (reached.perform delivery.call).DroppedAt left) :
      Delivers machine events returned left.machine

section Delivered

variable {registrations : Registrations S E C A} {id : E → Id}
  {seen : S → Set Id} {machine reached : StateMachine S E C A}

/-- Without entry hooks, a call that is dropped leaves the machine as it was. -/
theorem Tables.Hold.dropped_eq (holds : machine.toTables.Hold registrations)
    (entries : registrations.entries = []) {call : Call E C}
    {left : World S E C A} (dropped : (machine.perform call).DroppedAt left) :
    left.machine = machine := by
  have member := StateMachine.exists_droppedAt_iff.mp ⟨_, dropped, rfl⟩
  have absent (state : S) (context : C) :
      machine.hookFuture .entry state context = .ready (.ok []) context := by
    have found : (machine.hooks .entry).lookup
        (StateVariant.variantName state) = none := by
      change machine.entryHandlers.lookup _ = none
      rw [holds.entries, entries, latest_nil]
    simp only [StateMachine.hookFuture, found]
  cases machine.ending call with
  | stayed _ unchanged suspended => exact suspended _ member
  | entryFailed _ failed result moved suspended =>
      rw [absent] at failed
      cases failed
  | completed reached entered succeeded settled suspended suspends =>
      rcases suspended _ member with same | ⟨_, pending⟩
      · exact same
      · rw [absent] at pending
        exact absurd rfl pending

/-- Whatever the host did, the machine stands where the completed calls led. -/
theorem StateMachine.Delivers.processed
    (holds : machine.toTables.Hold registrations)
    (deduplicates : registrations.Deduplicates id seen) (sample : C)
    {events : List E} {returned : List A}
    (delivers : machine.Delivers events returned reached)
    (handled : ∀ state ∈ Trajectory.states (registrations.process sample)
        machine.currentState events, ∀ event ∈ events,
      registrations.handlerFor state event ≠ none) :
    reached.toTables.Hold registrations ∧
      reached.currentState = Trajectory.final (registrations.process sample)
        machine.currentState events ∧
      returned = (Trajectory.outputs (registrations.process sample)
        machine.currentState events).flatten := by
  induction delivers with
  | start => exact ⟨holds, rfl, rfl⟩
  | completed delivers delivery induction =>
      rename_i events returned reached
      obtain ⟨stands, state, actions⟩ := induction fun state visited event
          member => handled state
            (Trajectory.mem_states_append.mpr (.inl visited)) event
            (List.mem_append_left _ member)
      have served : registrations.handlerFor reached.currentState
          delivery.event ≠ none := by
        rw [state]
        refine handled _ (Trajectory.mem_states_append.mpr
          (.inl (Trajectory.final_mem_states _ events))) _ ?_
        exact List.mem_append_right _ (List.mem_singleton_self _)
      obtain ⟨result, moved⟩ :=
        stands.report_handled deduplicates sample delivery served
      refine ⟨stands.report delivery.call, ?_, ?_⟩
      · rw [moved, state, Trajectory.final_append]
        rfl
      · rw [Report.returned, result, actions, state,
          Trajectory.outputs_append, List.flatten_append]
        simp
  | dropped delivers delivery dropped induction =>
      obtain ⟨stands, state, actions⟩ := induction handled
      rw [stands.dropped_eq deduplicates.entries dropped]
      exact ⟨stands, state, actions⟩

/-- A stream delivered at least once comes to what it would come to once. -/
theorem StateMachine.Delivers.settles
    (holds : machine.toTables.Hold registrations)
    (deduplicates : registrations.Deduplicates id seen) (sample : C)
    {original delivered : List E} {returned : List A}
    (delivers : machine.Delivers delivered returned reached)
    (redelivers : Redelivers original delivered)
    (handled : ∀ state ∈ Trajectory.states (registrations.process sample)
        machine.currentState original, ∀ event ∈ original,
      registrations.handlerFor state event ≠ none) :
    reached.currentState = Trajectory.final (registrations.process sample)
        machine.currentState original ∧
      returned = (Trajectory.outputs (registrations.process sample)
        machine.currentState original).flatten := by
  have absorbs := redelivers.absorbs fun state visited event member =>
    deduplicates.deduplicates sample (handled state visited event member)
  obtain ⟨_, state, actions⟩ := delivers.processed holds deduplicates sample
    fun state visited event member => handled state
      (absorbs.states state visited) event (absorbs.events event member)
  exact ⟨state.trans absorbs.final_eq, actions.trans absorbs.actions_eq⟩

end Delivered

/-- Two hosts that are given the same events from their upstreams end alike and
have the same actions to run, whatever the order across upstreams, however
often an event is delivered, and whatever calls are dropped, if the handlers
remember what they have processed and commute across upstreams. -/
theorem Chain.deliveries_converge [DecidableEq Upstream]
    (chain : Chain S E C A .fsm) (now : Instant) (id : E → Id)
    (seen : S → Set Id)
    (deduplicates : chain.registrations.Deduplicates id seen)
    {machine : StateMachine S E C A} (reaches : chain.Reaches now machine)
    (sample : C) (observed : Observation (chain.registrations.process sample))
    (valid : observed.same machine.currentState machine.currentState)
    (upstream : E → Upstream) {first second : List E}
    (merges : Merges upstream first second)
    (commute : ∀ event ∈ first, ∀ other ∈ first,
      upstream event ≠ upstream other → Commutes observed event other)
    (handled : ∀ stream ∈ [first, second], ∀ state ∈ Trajectory.states
        (chain.registrations.process sample) machine.currentState stream,
      ∀ event ∈ stream, chain.registrations.handlerFor state event ≠ none)
    {firstDelivered secondDelivered : List E}
    (firstRedelivers : Redelivers first firstDelivered)
    (secondRedelivers : Redelivers second secondDelivered)
    {firstReturned secondReturned : List A}
    {firstReached secondReached : StateMachine S E C A}
    (firstDelivers :
      machine.Delivers firstDelivered firstReturned firstReached)
    (secondDelivers :
      machine.Delivers secondDelivered secondReturned secondReached) :
    observed.same firstReached.currentState secondReached.currentState ∧
      firstReturned.Perm secondReturned := by
  obtain ⟨firstState, firstActions⟩ := firstDelivers.settles reaches.hold
    deduplicates sample firstRedelivers (handled first (by simp))
  obtain ⟨secondState, secondActions⟩ := secondDelivers.settles reaches.hold
    deduplicates sample secondRedelivers (handled second (by simp))
  have agree := agree_of_merges valid commute merges
  refine ⟨?_, ?_⟩
  · rw [firstState, secondState]
    exact agree.final
  · have answered : Merges (fun answer : E × List A => upstream answer.1)
        (answers (chain.registrations.process sample) machine.currentState
          first)
        (answers (chain.registrations.process sample) machine.currentState
          second) := agree.answers
    have outputs := answered.perm.map Prod.snd
    rw [answers_map_snd, answers_map_snd] at outputs
    rw [firstActions, secondActions]
    exact outputs.flatten

namespace Ledger

/-- One host is given the first credit twice, the other the second. -/
theorem deliveries_agree :
    ∃ (firstReached secondReached : StateMachine Ledger Credit Nat Nat)
      (firstReturned secondReturned : List Nat),
      machine.Delivers [first, second, first] firstReturned firstReached ∧
      machine.Delivers [second, second, first] secondReturned
        secondReached ∧
      Alike firstReached.currentState secondReached.currentState ∧
      firstReturned.Perm secondReturned := by
  have here : machine.Delivers [first, second, first] _ _ :=
    .completed (.completed (.completed .start ⟨first, 0, 1⟩) ⟨second, 0, 2⟩)
      ⟨first, 3, 4⟩
  have there : machine.Delivers [second, second, first] _ _ :=
    .completed (.completed (.completed .start ⟨second, 0, 1⟩) ⟨second, 9, 5⟩)
      ⟨first, 0, 6⟩
  have again : Redelivers [first, second] ([first, second] ++ first :: []) :=
    .again .same List.mem_cons_self
  have twice : Redelivers [second, first] ([second] ++ second :: [first]) :=
    .again .same (List.mem_singleton_self second)
  refine ⟨_, _, _, _, here, there, chain.deliveries_converge 0 Credit.id _
    deduplicates ⟨machine, rfl, .start⟩ 0 alike ⟨fun _ => .rfl, rfl⟩ upstream
    reversed ?_ ?_ again twice here there⟩
  · intro event _ other _ apart
    exact alike_commutes (ne_of_upstream_ne apart)
  · intro _ _ _ _ event _ unhandled
    cases unhandled

end Ledger

end ObzenflowFsm
