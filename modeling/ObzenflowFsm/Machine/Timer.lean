import ObzenflowFsm.Machine.Dispatch

namespace ObzenflowFsm

open Polling TimedMealy

variable {S E C A : Type}

def clockReadings (trace : List (Effect S E C A)) : List Instant :=
  trace.filterMap fun effect =>
    match effect with
    | .clock reading => some reading
    | _ => none

theorem clockReadings_append (first second : List (Effect S E C A)) :
    clockReadings (first ++ second) =
      clockReadings first ++ clockReadings second :=
  List.filterMap_append

/-- The clock readings a call takes after it last assigns the current state,
if it assigns it. -/
def readingsSinceAssigned : List (Effect S E C A) → Option (List Instant)
  | [] => none
  | effect :: rest =>
      match readingsSinceAssigned rest with
      | some readings => some readings
      | none =>
          match effect with
          | .assignState _ => some (clockReadings rest)
          | _ => none

theorem readingsSinceAssigned_quiet {trace : List (Effect S E C A)}
    (quiet : ∀ state, .assignState state ∉ trace) :
    readingsSinceAssigned trace = none := by
  induction trace with
  | nil => rfl
  | cons effect rest induction =>
      have none := induction fun state member =>
        quiet state (List.mem_cons_of_mem effect member)
      cases effect with
      | clock | invoked | assignTimeout =>
          simp only [readingsSinceAssigned, none]
      | assignState state => exact absurd List.mem_cons_self (quiet state)

theorem readingsSinceAssigned_append (before : List (Effect S E C A))
    (state : S) {after : List (Effect S E C A)}
    (quiet : ∀ state, .assignState state ∉ after) :
    readingsSinceAssigned (before ++ .assignState state :: after) =
      some (clockReadings after) := by
  induction before with
  | nil =>
      simp only [List.nil_append, readingsSinceAssigned,
        readingsSinceAssigned_quiet quiet]
  | cons effect rest induction =>
      simp only [List.cons_append, readingsSinceAssigned, induction]

namespace StateMachine

variable [StateVariant S]

theorem quiet_hookTrace (machine : StateMachine S E C A) (side : Side)
    (owner : S) (context : C) :
    ∀ state, .assignState state ∉ machine.hookTrace side owner context := by
  intro state member
  unfold hookTrace at member
  split at member
  · cases List.mem_singleton.mp member
  · cases member

theorem clockReadings_hookTrace (machine : StateMachine S E C A) (side : Side)
    (owner : S) (context : C) :
    clockReadings (machine.hookTrace side owner context) = [] := by
  unfold hookTrace
  split
  · rfl
  · rfl

theorem quiet_rearmTrace (machine : StateMachine S E C A) (owner : S)
    (armed : Instant) :
    ∀ state, .assignState state ∉ machine.rearmTrace owner armed := by
  intro state member
  unfold rearmTrace at member
  split at member
  · simp at member
  · simp at member

omit [StateVariant S] in
theorem quiet_preamble (machine : StateMachine S E C A) (call : Call E C) :
    ∀ state, .assignState state ∉ machine.preamble call := by
  intro state member
  unfold preamble at member
  split at member
  · cases member
  · split at member
    · cases List.mem_singleton.mp member
    · cases member

def armReadings (machine : StateMachine S E C A) (state : S)
    (armed : Instant) : List Instant :=
  match machine.timeoutHandlers.lookup (StateVariant.variantName state) with
  | some _ => [armed]
  | none => []

theorem clockReadings_rearmTrace (machine : StateMachine S E C A) (state : S)
    (armed : Instant) :
    clockReadings (machine.rearmTrace state armed) =
      machine.armReadings state armed := by
  unfold rearmTrace armReadings
  split
  · rename_i found
    rw [found]
    rfl
  · rename_i absent
    rw [absent]
    rfl

variable [EventVariant E]

def enteredReadings (machine : StateMachine S E C A) (call : Call E C) :
    Option (List Instant) :=
  match machine.entering call with
  | none => none
  | some (transition, context) =>
      match (machine.hookFuture .entry transition.nextState context).value with
      | .error _ => some []
      | .ok _ => some (machine.armReadings transition.nextState call.armed)

theorem readingsSinceAssigned_report (machine : StateMachine S E C A)
    (call : Call E C) :
    readingsSinceAssigned (machine.report call).trace =
      machine.enteredReadings call := by
  have quiet := machine.quiet_preamble call
  have course := machine.course call
  generalize machine.report call = outcome at course ⊢
  unfold enteredReadings
  cases course with
  | idle selected =>
      rw [entering_of_unfired (by simp [selected])]
      exact readingsSinceAssigned_quiet quiet
  | refused selected =>
      rw [entering_of_unfired (by simp [selected])]
      exact readingsSinceAssigned_quiet quiet
  | absorbed selected answered =>
      rw [entering_of_unfired (by simp [selected])]
      apply readingsSinceAssigned_quiet
      intro state member
      rcases List.mem_append.mp member with member | member
      · exact quiet state member
      · cases List.mem_singleton.mp member
  | declined selected failed =>
      rw [entering_of_declined selected failed]
      apply readingsSinceAssigned_quiet
      intro state member
      rcases List.mem_append.mp member with member | member
      · exact quiet state member
      · cases List.mem_singleton.mp member
  | exitFailed selected answered failed =>
      rw [entering_of_exitFailed selected answered failed]
      apply readingsSinceAssigned_quiet
      intro state member
      simp only [List.mem_append, List.mem_singleton] at member
      rcases member with (member | equality) | member
      · exact quiet state member
      · cases equality
      · exact machine.quiet_hookTrace _ _ _ state member
  | entryFailed selected answered exited failed =>
      rw [entering_of_exited selected answered exited]
      simp only [failed.value_eq]
      rw [List.append_assoc, List.singleton_append,
        readingsSinceAssigned_append _ _ (machine.quiet_hookTrace _ _ _),
        clockReadings_hookTrace]
  | completed selected answered exited entered =>
      rename_i transition replied _ exitActions left _ entryActions final _
      rw [entering_of_exited selected answered exited]
      simp only [entered.value_eq]
      have rest :
          ∀ state, .assignState state ∉
            machine.hookTrace .entry transition.nextState left ++
              machine.rearmTrace transition.nextState call.armed := by
        intro state member
        rcases List.mem_append.mp member with member | member
        · exact machine.quiet_hookTrace _ _ _ state member
        · exact machine.quiet_rearmTrace _ _ state member
      rw [List.append_assoc, List.append_assoc, List.singleton_append,
        readingsSinceAssigned_append _ _ rest, clockReadings_append,
        clockReadings_hookTrace, clockReadings_rearmTrace, List.nil_append]

/-- The call enters a state whose entry hook fails, and the state it leaves or
the state it enters has a timeout. -/
def LosesTimer (machine : StateMachine S E C A) (call : Call E C) : Prop :=
  ∃ transition context error,
    machine.entering call = some (transition, context) ∧
      (machine.hookFuture .entry transition.nextState context).value =
        .error error ∧
      ((machine.timeoutHandlers.lookup
          (StateVariant.variantName machine.currentState)).isSome ∨
        (machine.timeoutHandlers.lookup
          (StateVariant.variantName transition.nextState)).isSome)

end StateMachine

/-- A machine with the clock readings taken since its state was assigned, by
the call that assigned it or at construction. -/
structure Timed (S E C A : Type) where
  machine : StateMachine S E C A
  entered : List Instant

namespace Timed

variable [StateVariant S]

def duration (timed : Timed S E C A) : Option Duration :=
  (timed.machine.timeoutHandlers.lookup
    (StateVariant.variantName timed.machine.currentState)).map Prod.fst

/-- The deadline is that of the current state, counted from its entry. -/
structure Coherent (timed : Timed S E C A) : Prop where
  cleared : timed.duration = none → timed.machine.stateTimeout = none
  armed : ∀ duration, timed.duration = some duration →
    ∃ reading ∈ timed.entered,
      timed.machine.stateTimeout = some (reading + duration)

theorem Coherent.isSome {timed : Timed S E C A} (coherent : timed.Coherent)
    (timesOut : timed.duration.isSome) :
    timed.machine.stateTimeout.isSome := by
  obtain ⟨duration, found⟩ := Option.isSome_iff_exists.mp timesOut
  obtain ⟨reading, _, armed⟩ := coherent.armed duration found
  rw [armed]
  rfl

theorem Coherent.mono {machine : StateMachine S E C A}
    {entered later : List Instant} (coherent : Coherent ⟨machine, entered⟩)
    (included : entered ⊆ later) : Coherent ⟨machine, later⟩ where
  cleared := coherent.cleared
  armed := by
    intro duration found
    obtain ⟨reading, member, armed⟩ := coherent.armed duration found
    exact ⟨reading, included member, armed⟩

theorem coherent_settled (machine : StateMachine S E C A) (state : S)
    (armed : Instant) :
    Coherent
      ⟨machine.settled state armed, machine.armReadings state armed⟩ := by
  cases found : machine.timeoutHandlers.lookup
      (StateVariant.variantName state) with
  | none =>
      constructor
      · intro _
        simp [StateMachine.settled, StateMachine.rearmed, found]
      · intro duration timesOut
        simp [Timed.duration, StateMachine.settled, found] at timesOut
  | some timeout =>
      constructor
      · intro untimed
        simp [Timed.duration, StateMachine.settled, found] at untimed
      · intro duration timesOut
        refine ⟨armed, by simp [StateMachine.armReadings, found], ?_⟩
        simp only [Timed.duration, StateMachine.settled, found,
          Option.map_some, Option.some.injEq] at timesOut
        simp [StateMachine.settled, StateMachine.rearmed, found, timesOut]

/-- A state that was entered without arming its timeout is coherent only if
neither it nor the state before it has one. -/
theorem coherent_moved_iff {timed : Timed S E C A} (coherent : timed.Coherent)
    (state : S) :
    Coherent ⟨timed.machine.moved state, []⟩ ↔
      timed.duration = none ∧
        timed.machine.timeoutHandlers.lookup
          (StateVariant.variantName state) = none := by
  constructor
  · intro moved
    have untimed : (⟨timed.machine.moved state, []⟩ :
        Timed S E C A).duration = none := by
      cases found : (⟨timed.machine.moved state, []⟩ :
          Timed S E C A).duration with
      | none => rfl
      | some duration =>
          obtain ⟨reading, member, _⟩ := moved.armed duration found
          cases member
    refine ⟨?_, Option.map_eq_none_iff.mp untimed⟩
    cases found : timed.duration with
    | none => rfl
    | some duration =>
        obtain ⟨reading, _, armed⟩ := coherent.armed duration found
        have cleared : timed.machine.stateTimeout = none :=
          moved.cleared untimed
        rw [armed] at cleared
        cases cleared
  · intro untimed
    have absent : (⟨timed.machine.moved state, []⟩ :
        Timed S E C A).duration = none :=
      Option.map_eq_none_iff.mpr untimed.2
    refine ⟨fun _ => coherent.cleared untimed.1, ?_⟩
    intro duration found
    rw [absent] at found
    cases found

variable [EventVariant E]

def step (timed : Timed S E C A) (call : Call E C) :
    Report S E C A × Timed S E C A :=
  let report := timed.machine.report call
  (report,
    { machine := report.machine
      entered :=
        (readingsSinceAssigned report.trace).getD timed.entered })

/-- The call invokes a timeout handler only when it polls at least the state's
duration after the state was entered. -/
def Waits (timed : Timed S E C A) (call : Call E C) : Prop :=
  ∀ key handler state given left error,
    .invoked (.trigger (.timeout key handler state)) given left error ∈
        (timed.machine.report call).trace →
      ∃ context polled armed duration reading,
        call = .checkTimeout context polled armed ∧
          timed.duration = some duration ∧
          reading ∈ timed.entered ∧ reading + duration ≤ polled

theorem Coherent.waits {timed : Timed S E C A} (coherent : timed.Coherent)
    (call : Call E C) : timed.Waits call := by
  intro key handler state given left error invoked
  have dispatched := StateMachine.dispatched_of_invoked invoked
  cases dispatched with
  | trigger selected =>
      cases call with
      | handle event context armed =>
          obtain ⟨_, _, fired, _⟩ := StateMachine.selectEvent_fire selected
          cases fired
      | checkTimeout context polled armed =>
          obtain ⟨deadline, duration, _, _, held, found, reached⟩ :=
            StateMachine.selectTimeout_fire selected
          have timesOut : timed.duration = some duration := by
            rw [Timed.duration, found]
            rfl
          obtain ⟨reading, member, armedAt⟩ := coherent.armed _ timesOut
          rw [held] at armedAt
          cases armedAt
          exact ⟨context, polled, armed, duration, reading, rfl, timesOut,
            member, reached⟩

theorem step_eq (timed : Timed S E C A) (call : Call E C) :
    (timed.step call).2 =
      ⟨(timed.machine.report call).machine,
        (timed.machine.enteredReadings call).getD timed.entered⟩ := by
  rw [← timed.machine.readingsSinceAssigned_report call]
  rfl

theorem step_coherent_iff {timed : Timed S E C A} (coherent : timed.Coherent)
    (call : Call E C) :
    (timed.step call).2.Coherent ↔ ¬ timed.machine.LosesTimer call := by
  rw [step_eq]
  unfold StateMachine.enteredReadings StateMachine.LosesTimer
  cases timed.machine.ending call with
  | stayed absent unchanged suspended =>
      simp only [absent, unchanged]
      constructor
      · intro _ loses
        obtain ⟨_, _, _, reached, _⟩ := loses
        cases reached
      · intro _
        exact coherent
  | entryFailed reached failed result moved suspended =>
      rename_i transition left error
      simp only [reached, failed, moved]
      refine (coherent_moved_iff coherent transition.nextState).trans ?_
      constructor
      · intro untimed loses
        obtain ⟨other, context, _, same, _, timesOut⟩ := loses
        cases same
        rcases timesOut with timesOut | timesOut
        · rw [Option.map_eq_none_iff.mp untimed.1] at timesOut
          cases timesOut
        · rw [untimed.2] at timesOut
          cases timesOut
      · intro keeps
        refine ⟨Option.map_eq_none_iff.mpr ?_, ?_⟩
        · rw [← Option.not_isSome_iff_eq_none]
          intro timesOut
          exact keeps ⟨transition, left, error, rfl, failed, .inl timesOut⟩
        · rw [← Option.not_isSome_iff_eq_none]
          intro timesOut
          exact keeps ⟨transition, left, error, rfl, failed, .inr timesOut⟩
  | completed reached entered succeeded settled suspended suspends =>
      rename_i transition left actions
      simp only [reached, entered, settled]
      constructor
      · intro _ loses
        obtain ⟨other, context, _, same, failed, _⟩ := loses
        cases same
        rw [entered] at failed
        cases failed
      · intro _
        exact coherent_settled timed.machine transition.nextState call.armed

/-! ### Whole runs -/

/-- All along a run the timer is coherent, no timeout handler runs early, and
no state that has a timeout is without a deadline. -/
structure OnTime (timed : Timed S E C A) (calls : List (Call E C)) :
    Prop where
  coherent : ∀ reached ∈ Trajectory.states step timed calls,
    reached.Coherent
  waits : ∀ visit ∈ Trajectory.visits step timed calls,
    visit.1.Waits visit.2
  running : ∀ reached ∈ Trajectory.states step timed calls,
    reached.duration.isSome → reached.machine.stateTimeout.isSome

theorem onTime_iff_visits {timed : Timed S E C A} (initial : timed.Coherent)
    (calls : List (Call E C)) :
    timed.OnTime calls ↔
      ∀ visit ∈ Trajectory.visits step timed calls,
        ¬ visit.1.machine.LosesTimer visit.2 := by
  refine Iff.trans ?_ (Trajectory.forall_states_iff Coherent
    (fun _ call coherent => step_coherent_iff coherent call) initial calls)
  constructor
  · intro onTime
    exact onTime.coherent
  · intro coherent
    refine ⟨coherent, ?_, ?_⟩
    · intro visit member
      exact (coherent visit.1
        (Trajectory.mem_states_of_mem_visits visit member)).waits visit.2
    · intro reached member
      exact (coherent reached member).isSome

end Timed

section Built

variable [StateVariant S]

theorem FsmBuilder.coherent_machine (builder : FsmBuilder S E C A)
    (now : Instant) : Timed.Coherent ⟨builder.machine now, [now]⟩ := by
  rw [builder.machine_eq_settled now]
  apply (Timed.coherent_settled builder.unarmed builder.initialState now).mono
  unfold StateMachine.armReadings
  split
  · exact List.Subset.refl _
  · exact List.nil_subset _

variable [EventVariant E]

/-- The timer of an accepted chain's machine is coherent all along exactly the
runs in which no entry hook fails on the way from or to a state with a
timeout. -/
theorem Chain.onTime_iff (chain : Chain S E C A .fsm) (now : Instant)
    {machine : StateMachine S E C A}
    (built : chain.eval.tryBuild now = .ok machine)
    (calls : List (Call E C)) :
    Timed.OnTime ⟨machine, [now]⟩ calls ↔
      ∀ visit ∈ Trajectory.visits Timed.step ⟨machine, [now]⟩ calls,
        ¬ visit.1.machine.LosesTimer visit.2 := by
  rw [((chain.accepted_iff now).mp built).constructed]
  exact Timed.onTime_iff_visits (chain.eval.coherent_machine now) calls

end Built

namespace Door

theorem greeted_onTime : Timed.OnTime ⟨machine greet, [0]⟩ visit := by
  refine ((chain greet).onTime_iff 0 (built greet) visit).mpr ?_
  intro visited member loses
  obtain ⟨transition, context, error, reached, failed, _⟩ := loses
  simp only [visit, Trajectory.visits, List.mem_cons, List.not_mem_nil,
    or_false] at member
  rcases member with rfl | rfl | rfl
  · cases reached
    cases failed
  · cases reached
  · cases reached
    cases failed

theorem jammed_not_onTime :
    ¬ ∀ calls, Timed.OnTime ⟨machine jam, [0]⟩ calls := by
  intro onTime
  have deadline := (onTime [.handle .opening {} 5]).running
    ⟨(machine jam).moved .opened, []⟩
    (List.mem_cons_of_mem _ List.mem_cons_self) rfl
  cases deadline

end Door

end ObzenflowFsm
