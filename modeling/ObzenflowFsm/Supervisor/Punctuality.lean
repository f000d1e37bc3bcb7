import ObzenflowFsm.Machine.Deadline
import ObzenflowFsm.Supervisor.Obligations
import ObzenflowFsm.Supervisor.Recovery

namespace ObzenflowFsm

open Polling

variable {S E C A : Type}

/-! Timeouts and events of a host that stops at the first call that fails. -/

def lastPoll (calls : List (Call E C)) : Option Instant :=
  (calls.filterMap Call.polled).getLast?

/-- The clock, from the reading of construction on, never goes back. -/
def Forward (now : Instant) (calls : List (Call E C)) : Prop :=
  (now :: calls.flatMap Call.readings).Pairwise (· ≤ ·)

instance (now : Instant) (calls : List (Call E C)) :
    Decidable (Forward now calls) :=
  inferInstanceAs (Decidable (List.Pairwise _ _))

theorem lastPoll_handle (calls : List (Call E C)) (event : E) (given : C)
    (armed : Instant) :
    lastPoll (calls ++ [.handle event given armed]) = lastPoll calls := by
  simp [lastPoll, Call.polled]

theorem lastPoll_checkTimeout (calls : List (Call E C)) (given : C)
    (polled armed : Instant) :
    lastPoll (calls ++ [.checkTimeout given polled armed]) = some polled := by
  simp [lastPoll, Call.polled]

theorem lastPoll_mem {calls : List (Call E C)} {polled : Instant}
    (last : lastPoll calls = some polled) :
    polled ∈ calls.flatMap Call.readings := by
  obtain ⟨call, member, polls⟩ :=
    List.mem_filterMap.mp (List.mem_of_getLast? last)
  refine List.mem_flatMap.mpr ⟨call, member, ?_⟩
  cases call with
  | handle event given armed => cases polls
  | checkTimeout given reading armed =>
      cases polls
      exact List.mem_cons_self

theorem forward_append_iff {now : Instant} {first second : List (Call E C)} :
    Forward now (first ++ second) ↔
      Forward now first ∧
        (second.flatMap Call.readings).Pairwise (· ≤ ·) ∧
        ∀ earlier ∈ now :: first.flatMap Call.readings,
          ∀ later ∈ second.flatMap Call.readings, earlier ≤ later := by
  unfold Forward
  rw [List.flatMap_append, ← List.cons_append]
  exact List.pairwise_append

/-- A call arms no deadline before the last poll. -/
theorem Forward.lastPoll_le_armed {now : Instant} {calls : List (Call E C)}
    {call : Call E C} (forward : Forward now (calls ++ [call]))
    {polled : Instant} (last : lastPoll (calls ++ [call]) = some polled) :
    polled ≤ call.armed := by
  obtain ⟨_, within, across⟩ := forward_append_iff.mp forward
  cases call with
  | handle event given armed =>
      rw [lastPoll_handle] at last
      exact across polled (List.mem_cons_of_mem _ (lastPoll_mem last)) armed
        (by simp [Call.readings])
  | checkTimeout given reading armed =>
      rw [lastPoll_checkTimeout] at last
      cases last
      exact (List.pairwise_cons.mp within).1 armed List.mem_cons_self

variable [StateVariant S] [EventVariant E]

/-! ### Where a run arrived last -/

namespace StateMachine

/-- Where the call arrives, if it completes a transition. -/
def arrival (machine : StateMachine S E C A) (call : Call E C) :
    Option (Arrival S) :=
  (machine.report call).completed.map fun _ =>
    ⟨(machine.report call).machine.currentState, call.armed⟩

/-- Where the run arrived with the last of its calls that completed a
transition, or else with construction. -/
def lastArrival (machine : StateMachine S E C A) (now : Instant)
    (calls : List (Call E C)) : Arrival S :=
  ((Trajectory.visits step machine calls).filterMap fun visit =>
    visit.1.arrival visit.2).getLast?.getD ⟨machine.currentState, now⟩

theorem lastArrival_append (machine : StateMachine S E C A) (now : Instant)
    (calls : List (Call E C)) (call : Call E C) :
    machine.lastArrival now (calls ++ [call]) =
      ((Trajectory.final step machine calls).arrival call).getD
        (machine.lastArrival now calls) := by
  rw [lastArrival, Trajectory.visits_append, List.filterMap_append]
  cases arrived : (Trajectory.final step machine calls).arrival call with
  | none => simp [Trajectory.visits, arrived, lastArrival]
  | some arrival => simp [Trajectory.visits, arrived]

end StateMachine

/-- The machine that a run ends in has arrived where the run arrived last. -/
theorem Chain.arrives_final {chain : Chain S E C A .fsm} {now : Instant}
    {machine : StateMachine S E C A}
    (built : chain.eval.tryBuild now = .ok machine)
    (calls : List (Call E C)) :
    chain.Arrives now (machine.lastArrival now calls)
      (Trajectory.final StateMachine.step machine calls) := by
  induction calls using List.reverseRecOn with
  | nil =>
      have state : machine.currentState = chain.initialState :=
        congrArg TimedMealy.Position.state (Chain.position_of_built built)
      rw [StateMachine.lastArrival, state]
      exact .built built
  | append_singleton calls call induction =>
      rw [StateMachine.lastArrival_append, Trajectory.final_append]
      cases held : ((Trajectory.final StateMachine.step machine calls).report
          call).completed with
      | none =>
          rw [StateMachine.arrival, held]
          exact .uncompleted induction call held
      | some trigger =>
          rw [StateMachine.arrival, held]
          exact .completed induction call held

/-- The run ends in the state it arrived in last. If the clock never goes back,
that state's deadline was still to come at the last poll, or the run arrived
there since. -/
structure Timely (machine : StateMachine S E C A) (now : Instant)
    (calls : List (Call E C)) : Prop where
  stands : (Trajectory.final StateMachine.step machine calls).currentState =
    (machine.lastArrival now calls).state
  awaits : Forward now calls → ∀ polled, lastPoll calls = some polled →
    polled ≤ (machine.lastArrival now calls).armed ∨
      ∀ deadline,
        (Trajectory.final StateMachine.step machine calls).stateTimeout =
            some deadline → polled < deadline

/-! ### Calls that succeed -/

/-- A call that succeeds completes a transition, or leaves the machine as it
is, with no handler due. -/
inductive StateMachine.Success (machine : StateMachine S E C A)
    (call : Call E C) (outcome : Report S E C A) : Prop
  | completed (held : outcome.completed = some trigger)
      (settled : outcome.machine = machine.settled state call.armed) :
      Success machine call outcome
  | unchanged (absent : outcome.completed = none)
      (unmoved : outcome.machine = machine)
      (undue : ∀ trigger, machine.select call ≠ .fire trigger) :
      Success machine call outcome

theorem StateMachine.success (machine : StateMachine S E C A)
    (call : Call E C) {actions : List A}
    (succeeded : (machine.report call).result = .ok actions) :
    machine.Success call (machine.report call) := by
  have completion := machine.completion call
  have course := machine.course call
  generalize machine.report call = outcome at succeeded completion course ⊢
  cases completion with
  | completed selected held succeeded settled readings =>
      exact .completed held settled
  | uncompleted absent kept unfinished =>
      have undue (trigger : Trigger S E C A) :
          machine.select call ≠ .fire trigger := by
        intro fires
        obtain ⟨error, failed⟩ := unfinished trigger fires
        rw [succeeded] at failed
        cases failed
      cases course with
      | idle selected => exact .unchanged absent rfl undue
      | refused selected => cases succeeded
      | absorbed selected answered => exact .unchanged absent rfl undue
      | declined selected failed => exact absurd selected (undue _)
      | exitFailed selected answered failed => exact absurd selected (undue _)
      | entryFailed selected answered exited failed =>
          exact absurd selected (undue _)
      | completed selected answered exited entered =>
          exact absurd selected (undue _)

section Timely

variable {chain : Chain S E C A .fsm} {now : Instant}
  {machine : StateMachine S E C A} {calls : List (Call E C)}
  {last : Arrival S}

theorem Timely.built : Timely machine now ([] : List (Call E C)) where
  stands := rfl
  awaits := by
    intro forward polled last
    cases last

/-- A poll that fires nothing finds no deadline of the machine's state
reached. -/
theorem Chain.Arrives.undue (arrives : chain.Arrives now last machine)
    (stands : machine.currentState = last.state) {given : C}
    {polled armed deadline : Instant}
    (undue : ∀ trigger,
      machine.select (.checkTimeout given polled armed) ≠ .fire trigger)
    (held : machine.stateTimeout = some deadline) : polled < deadline := by
  have own := arrives.stateTimeout
  rw [held, Registrations.deadline, ← stands] at own
  obtain ⟨timeout, registered, _⟩ := Option.map_eq_some_iff.mp own.symm
  by_contra late
  refine undue (.timeout (StateVariant.variantName machine.currentState)
    timeout.2 machine.currentState) ?_
  change machine.selectTimeout polled = _
  rw [StateMachine.selectTimeout_fire_iff]
  refine ⟨deadline, timeout, held, ?_, Nat.le_of_not_lt late, rfl⟩
  rw [arrives.reaches.hold.timeouts]
  exact registered

theorem Timely.report (built : chain.eval.tryBuild now = .ok machine)
    (timely : Timely machine now calls) (call : Call E C) {actions : List A}
    (succeeded :
      ((Trajectory.final StateMachine.step machine calls).report call).result =
        .ok actions) :
    Timely machine now (calls ++ [call]) := by
  have arrives := chain.arrives_final built calls
  have arrived := machine.lastArrival_append now calls call
  have ended : Trajectory.final StateMachine.step machine (calls ++ [call]) =
      ((Trajectory.final StateMachine.step machine calls).report
        call).machine := Trajectory.final_append machine calls [call]
  rw [StateMachine.arrival] at arrived
  cases StateMachine.success _ call succeeded with
  | completed held settled =>
      rw [held] at arrived
      constructor
      · rw [ended, arrived]
        rfl
      · intro forward polled last
        rw [arrived]
        exact .inl (forward.lastPoll_le_armed last)
  | unchanged absent unmoved undue =>
      rw [absent] at arrived
      have same : Trajectory.final StateMachine.step machine
          (calls ++ [call]) =
          Trajectory.final StateMachine.step machine calls :=
        ended.trans unmoved
      constructor
      · rw [same, arrived]
        exact timely.stands
      · intro forward polled last
        rw [same, arrived]
        cases call with
        | handle event given armed =>
            rw [lastPoll_handle] at last
            exact timely.awaits (forward_append_iff.mp forward).1 polled last
        | checkTimeout given reading armed =>
            rw [lastPoll_checkTimeout] at last
            cases last
            exact .inr fun deadline =>
              arrives.undue timely.stands undue

/-- A run of calls that all succeed ends in the state it arrived in last. -/
theorem Chain.timely_of_succeeds
    (built : chain.eval.tryBuild now = .ok machine)
    (succeeded : ∀ report ∈ Trajectory.outputs StateMachine.step machine calls,
      ∃ actions, report.result = .ok actions) :
    Timely machine now calls := by
  induction calls using List.reverseRecOn with
  | nil => exact .built
  | append_singleton calls call induction =>
      rw [Trajectory.outputs_append] at succeeded
      have timely := induction fun report member =>
        succeeded report (List.mem_append_left _ member)
      obtain ⟨actions, last⟩ := succeeded _
        (List.mem_append_right _ List.mem_cons_self)
      exact timely.report built call last

end Timely

/-! ### The loop makes no other calls -/

omit [StateVariant S] [EventVariant E] in
theorem Entry.result_of_unfailed {entry : Entry E C A}
    (unfailed : entry.fatal = none) {result : FsmResult (List A)}
    (answered : entry.result = some result) :
    ∃ actions, result = .ok actions := by
  cases entry with
  | answered policy call outcome =>
      cases answered
      cases result with
      | ok actions => exact ⟨actions, rfl⟩
      | error error => cases unfailed
  | received event => cases answered
  | executed policy action error => cases answered
  | mapped error event => cases answered

omit [StateVariant S] [EventVariant E] in
theorem length_results (journal : List (Entry E C A)) :
    (journal.filterMap Entry.result).length =
      (journal.filterMap Entry.call).length := by
  induction journal with
  | nil => rfl
  | cons entry rest induction =>
      cases entry with
      | answered policy call result => simpa [Entry.call, Entry.result]
      | received event => simpa [Entry.call, Entry.result]
      | executed policy action error => simpa [Entry.call, Entry.result]
      | mapped error event => simpa [Entry.call, Entry.result]

theorem Traces.of_append {machine reached : StateMachine S E C A}
    {before after : List (Entry E C A)}
    (traces : Traces machine reached (before ++ after)) :
    Traces machine (Trajectory.final StateMachine.step machine
      (before.filterMap Entry.call)) before where
  results := by
    have results := traces.results
    rw [List.filterMap_append, List.filterMap_append,
      Trajectory.outputs_append, List.map_append] at results
    refine (List.append_inj results ?_).1
    rw [List.length_map, Trajectory.length_outputs, length_results]
  machine := rfl

omit [StateVariant S] [EventVariant E] in
/-- The loop starts with a poll. -/
theorem lastPoll_of_owes {before after : List (Entry E C A)}
    {duties : List (Duty E A)}
    (owes : (hostAgenda E C A).Owes (before ++ after) duties)
    (started : before ≠ []) :
    ∃ polled, lastPoll (before.filterMap Entry.call) = some polled := by
  obtain ⟨middle, head, _⟩ := Agenda.runs_append_iff.mp owes
  cases head with
  | nil => exact absurd rfl started
  | cons step runs =>
      rename_i entry rest
      cases step with
      | opened opens =>
          cases entry with
          | answered policy call result =>
              cases call with
              | handle event given armed => cases opens
              | checkTimeout given polled armed =>
                  have polls : (lastPoll ((Entry.answered policy
                      (.checkTimeout given polled armed) result ::
                        rest).filterMap Entry.call)).isSome := by
                    simp [lastPoll, Entry.call, Call.polled]
                  exact Option.isSome_iff_exists.mp polls
          | received event => cases opens
          | executed policy action error => cases opens
          | mapped error event => cases opens

/-- The calls that the journal records so far, with the results it records, lead
to a machine that stands in the state they arrived in last and holds that
state's own deadline; the loop polls it by that deadline before it hands it an
event. -/
structure Chain.Punctual (chain : Chain S E C A .fsm) (now : Instant)
    (machine : StateMachine S E C A) (journal : List (Entry E C A)) : Prop
    extends Timely machine now (journal.filterMap Entry.call) where
  traces : Traces machine
    (Trajectory.final StateMachine.step machine (journal.filterMap Entry.call))
    journal
  expires : chain.Expires
    (machine.lastArrival now (journal.filterMap Entry.call))
    (Trajectory.final StateMachine.step machine (journal.filterMap Entry.call))
  polls : journal ≠ [] →
    ∃ polled, lastPoll (journal.filterMap Entry.call) = some polled

section Loop

variable {chain : Chain S E C A .fsm} {now : Instant}
  {machine : StateMachine S E C A}

theorem Chain.punctual_of_unfailed
    (built : chain.eval.tryBuild now = .ok machine)
    {reached : StateMachine S E C A} {before after : List (Entry E C A)}
    (traces : Traces machine reached (before ++ after))
    {duties : List (Duty E A)}
    (owes : (hostAgenda E C A).Owes (before ++ after) duties)
    (unfailed : ∀ entry ∈ before, entry.fatal = none) :
    chain.Punctual now machine before := by
  have prior := traces.of_append
  have succeeded : ∀ report ∈ Trajectory.outputs StateMachine.step machine
      (before.filterMap Entry.call),
      ∃ actions, report.result = .ok actions := by
    intro report member
    have recorded : report.result ∈ before.filterMap Entry.result :=
      prior.results ▸ List.mem_map_of_mem member
    obtain ⟨entry, entryMember, answered⟩ := List.mem_filterMap.mp recorded
    exact Entry.result_of_unfailed (unfailed entry entryMember) answered
  have arrives := chain.arrives_final built (before.filterMap Entry.call)
  refine ⟨Chain.timely_of_succeeds built succeeded, prior, ?_,
    lastPoll_of_owes owes⟩
  exact arrives.reaches.hold.expires arrives.stateTimeout

/-- The loop never makes a call on a machine that a failure or a drop has left
with another state's deadline: it runs each state's timeout when due, and hands
no event to a state that was due when it was polled. -/
theorem Chain.supervise_punctual [FsmAction A C] (chain : Chain S E C A .fsm)
    (now : Instant) (built : chain.eval.tryBuild now = .ok machine)
    (environment : Environment E C A) (turns : Nat) (context : C) :
    (Supervisor.supervise environment turns
        (Supervisor.start machine context)).Meets
      (fun left => left.Lags machine ∧
        ∀ before after, left.journal = before ++ after →
          chain.Punctual now machine before)
      fun result left => left.Follows machine ∧
        ∀ before after, left.journal = before ++ after →
          (after = [] → result = .ok ()) →
            chain.Punctual now machine before := by
  have advances := Supervisor.advances_supervise environment turns
    (Supervisor.start machine context) (Traces.start machine)
  have discharges := Supervisor.discharges_supervise environment turns
    (Supervisor.start machine context) (Supervisor.owes_start _ _)
  refine (advances.and discharges).weaken ?_ ?_
  · rintro ⟨host, journal⟩ ⟨lags, duties, owes, calm⟩
    refine ⟨lags, ?_⟩
    rintro before after rfl
    obtain ⟨reached, traces, _⟩ := lags
    have unfailed := unfailed_of_calm owes calm
    exact Chain.punctual_of_unfailed built traces owes fun entry member =>
      unfailed entry (List.mem_append_left _ member)
  · rintro result ⟨host, journal⟩ reached
    cases result with
    | ok value =>
        obtain ⟨follows, owes⟩ := reached
        refine ⟨follows, ?_⟩
        rintro before after rfl _
        have unfailed := unfailed_of_calm owes trivial
        exact Chain.punctual_of_unfailed built follows owes
          fun entry member => unfailed entry (List.mem_append_left _ member)
    | error error =>
        obtain ⟨follows, duties, owes⟩ := reached
        refine ⟨follows, ?_⟩
        rintro before after rfl ended
        refine Chain.punctual_of_unfailed built follows owes ?_
        intro entry member
        cases fatal : entry.fatal with
        | none => rfl
        | some failure =>
            obtain ⟨first, rest, rfl⟩ := List.mem_iff_append.mp member
            have last := (attended_of_owes owes).fatal first entry
              (rest ++ after) failure (by simp) fatal
            cases ended (List.append_eq_nil_iff.mp last).2

end Loop

namespace Door

/-- The door jams on the first visit, and the porter leaves it at that. -/
theorem jam_punctual :
    (Supervisor.supervise porter 3
        (Supervisor.start (machine jam) {})).Meets
      (fun left => left.Lags (machine jam) ∧
        ∀ before after, left.journal = before ++ after →
          (chain jam).Punctual 0 (machine jam) before)
      fun result left => left.Follows (machine jam) ∧
        ∀ before after, left.journal = before ++ after →
          (after = [] → result = .ok ()) →
            (chain jam).Punctual 0 (machine jam) before :=
  (chain jam).supervise_punctual 0 (built jam) porter 3 {}

example : Forward 0 (((Supervisor.supervise porter 1
    (Supervisor.start (machine jam) {})).state.journal).filterMap
      Entry.call) := by
  decide

end Door

end ObzenflowFsm
