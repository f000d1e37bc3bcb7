import ObzenflowFsm.Machine.Run

namespace ObzenflowFsm

open Registry

variable {S E C A : Type}

namespace StateMachine

variable [StateVariant S] [EventVariant E]

/-- The invocations a call can make: of what it selected, and of hooks that a
state's variant has. -/
inductive Dispatched (machine : StateMachine S E C A) (call : Call E C) :
    Invocation S E C A → Prop
  | trigger (selected : machine.select call = .fire fired) :
      Dispatched machine call (.trigger fired)
  | unhandled (selected : machine.select call = .absorb handler state event) :
      Dispatched machine call (.unhandled handler state event)
  | hook (found : (machine.hooks side).lookup
        (StateVariant.variantName state) = some handler) :
      Dispatched machine call
        (.hook side (StateVariant.variantName state) handler state)

omit [StateVariant S] [EventVariant E] in
theorem not_invoked_preamble {machine : StateMachine S E C A}
    {call : Call E C} {invocation : Invocation S E C A} {given left : C}
    {error : Option FsmError} :
    .invoked invocation given left error ∉ machine.preamble call := by
  intro member
  unfold preamble at member
  cases call with
  | handle event context armed => cases member
  | checkTimeout context polled armed =>
      cases deadline : machine.stateTimeout with
      | none => simp [deadline] at member
      | some instant => simp [deadline] at member

omit [EventVariant E] in
theorem not_invoked_rearmTrace {machine : StateMachine S E C A}
    {state : S} {armed : Instant} {invocation : Invocation S E C A}
    {given left : C} {error : Option FsmError} :
    .invoked invocation given left error ∉
      machine.rearmTrace state armed := by
  intro member
  unfold rearmTrace at member
  cases found : machine.timeoutHandlers.lookup
      (StateVariant.variantName state) with
  | none => simp [found] at member
  | some timeout => simp [found] at member

omit [EventVariant E] in
theorem hook_of_hookTrace {machine : StateMachine S E C A} {side : Side}
    {state : S} {context : C} {invocation : Invocation S E C A}
    {given left : C} {error : Option FsmError}
    (member : .invoked invocation given left error ∈
      machine.hookTrace side state context) :
    ∃ handler,
      (machine.hooks side).lookup (StateVariant.variantName state) =
          some handler ∧
        invocation =
          .hook side (StateVariant.variantName state) handler state ∧
        error = errorOf (machine.hookFuture side state context).value := by
  unfold hookTrace at member
  unfold hookFuture
  cases found : (machine.hooks side).lookup
      (StateVariant.variantName state) with
  | none => simp [found] at member
  | some handler =>
      rw [found] at member
      cases List.mem_singleton.mp member
      exact ⟨handler, rfl, rfl, rfl⟩

private theorem dispatched_of_hookTrace {machine : StateMachine S E C A}
    {call : Call E C} {side : Side} {state : S} {context : C}
    {invocation : Invocation S E C A} {given left : C}
    {error : Option FsmError}
    (member : .invoked invocation given left error ∈
      machine.hookTrace side state context) :
    machine.Dispatched call invocation := by
  obtain ⟨handler, found, rfl, _⟩ := hook_of_hookTrace member
  exact .hook found

theorem dispatched_of_invoked {machine : StateMachine S E C A}
    {call : Call E C} {invocation : Invocation S E C A} {given left : C}
    {error : Option FsmError}
    (member : .invoked invocation given left error ∈
      (machine.report call).trace) :
    machine.Dispatched call invocation := by
  have course := machine.course call
  generalize machine.report call = outcome at course member
  cases course with
  | idle selected => exact absurd member not_invoked_preamble
  | refused selected => exact absurd member not_invoked_preamble
  | absorbed selected answered =>
      rcases List.mem_append.mp member with member | member
      · exact absurd member not_invoked_preamble
      · cases List.mem_singleton.mp member
        exact .unhandled selected
  | declined selected failed =>
      rcases List.mem_append.mp member with member | member
      · exact absurd member not_invoked_preamble
      · cases List.mem_singleton.mp member
        exact .trigger selected
  | exitFailed selected answered failed =>
      simp only [List.mem_append, List.mem_singleton] at member
      rcases member with (member | equality) | member
      · exact absurd member not_invoked_preamble
      · cases equality
        exact .trigger selected
      · exact dispatched_of_hookTrace member
  | entryFailed selected answered exited failed =>
      simp only [List.mem_append, List.mem_singleton] at member
      rcases member with (((member | equality) | member) | equality) | member
      · exact absurd member not_invoked_preamble
      · cases equality
        exact .trigger selected
      · exact dispatched_of_hookTrace member
      · cases equality
      · exact dispatched_of_hookTrace member
  | completed selected answered exited entered =>
      simp only [List.mem_append, List.mem_singleton] at member
      rcases member with
        ((((member | equality) | member) | equality) | member) | member
      · exact absurd member not_invoked_preamble
      · cases equality
        exact .trigger selected
      · exact dispatched_of_hookTrace member
      · cases equality
      · exact dispatched_of_hookTrace member
      · exact absurd member not_invoked_rearmTrace

/-! ### What the selections answer to -/

theorem selectEvent_fire {machine : StateMachine S E C A} {event : E}
    {fired : Trigger S E C A}
    (selected : machine.selectEvent event = .fire fired) :
    ∃ stateName handler,
      fired = .transition (stateName, EventVariant.variantName event) handler
        machine.currentState event ∧
      machine.transitions.lookup
        (stateName, EventVariant.variantName event) = some handler ∧
      (stateName = StateVariant.variantName machine.currentState ∨
        stateName = "_" ∧
          machine.transitions.lookup
            (StateVariant.variantName machine.currentState,
              EventVariant.variantName event) = none) := by
  simp only [selectEvent] at selected
  split at selected
  · rename_i handler found
    cases selected
    exact ⟨_, handler, rfl, found, .inl rfl⟩
  · rename_i absent
    split at selected
    · rename_i handler found
      cases selected
      exact ⟨_, handler, rfl, found, .inr ⟨rfl, absent⟩⟩
    · split at selected
      · cases selected
      · cases selected

theorem selectEvent_absorb {machine : StateMachine S E C A} {event seen : E}
    {handler : UnhandledHandler S E C} {state : S}
    (selected : machine.selectEvent event = .absorb handler state seen) :
    machine.unhandledHandler = some handler ∧
      machine.transitions.lookup
        (StateVariant.variantName state, EventVariant.variantName seen) =
          none ∧
      machine.transitions.lookup ("_", EventVariant.variantName seen) =
        none := by
  simp only [selectEvent] at selected
  split at selected
  · cases selected
  · rename_i exact
    split at selected
    · cases selected
    · rename_i wildcard
      split at selected
      · rename_i found
        cases selected
        exact ⟨found, exact, wildcard⟩
      · cases selected

omit [EventVariant E] in
theorem selectTimeout_fire {machine : StateMachine S E C A}
    {polled : Instant} {fired : Trigger S E C A}
    (selected : machine.selectTimeout polled = .fire fired) :
    ∃ deadline duration handler,
      fired = .timeout (StateVariant.variantName machine.currentState) handler
        machine.currentState ∧
      machine.stateTimeout = some deadline ∧
      machine.timeoutHandlers.lookup
        (StateVariant.variantName machine.currentState) =
          some (duration, handler) ∧
      deadline ≤ polled := by
  simp only [selectTimeout] at selected
  split at selected
  · rename_i deadline duration handler held found
    split at selected
    · rename_i reached
      cases selected
      exact ⟨deadline, duration, handler, rfl, held, found, reached⟩
    · cases selected
  · cases selected

omit [EventVariant E] in
theorem selectTimeout_ne_absorb {machine : StateMachine S E C A}
    {polled : Instant} {handler : UnhandledHandler S E C} {state : S}
    {event : E} :
    machine.selectTimeout polled ≠ .absorb handler state event := by
  intro selected
  simp only [selectTimeout] at selected
  split at selected
  · split at selected
    · cases selected
    · cases selected
  · cases selected

end StateMachine

section Admission

variable [StateVariant S] [EventVariant E]

/-- The invocation is of the handler registered last under its key, and the
key names the state and the event it receives. -/
def Registrations.Admits (registrations : Registrations S E C A) :
    Invocation S E C A → Prop
  | .trigger (.transition (stateName, eventName) handler state event) =>
      latest (registrations.rows.map Row.entry) (stateName, eventName) =
          some handler ∧
        EventVariant.variantName event = eventName ∧
        if stateName = "_" then
          latest (registrations.rows.map Row.entry)
            (StateVariant.variantName state, eventName) = none
        else StateVariant.variantName state = stateName
  | .trigger (.timeout stateName handler state) =>
      (∃ duration,
        latest registrations.timeouts stateName = some (duration, handler)) ∧
        StateVariant.variantName state = stateName
  | .unhandled handler state event =>
      registrations.unhandled = some handler ∧
        latest (registrations.rows.map Row.entry)
          (StateVariant.variantName state, EventVariant.variantName event) =
            none ∧
        latest (registrations.rows.map Row.entry)
          ("_", EventVariant.variantName event) = none
  | .hook .exit stateName handler state =>
      latest registrations.exits stateName = some handler ∧
        StateVariant.variantName state = stateName
  | .hook .entry stateName handler state =>
      latest registrations.entries stateName = some handler ∧
        StateVariant.variantName state = stateName

variable {registrations : Registrations S E C A}
  {machine : StateMachine S E C A}

theorem Tables.Hold.admits_fired
    (holds : machine.toTables.Hold registrations)
    (named : ∀ state : S, StateVariant.variantName state ≠ "_")
    {call : Call E C} {fired : Trigger S E C A}
    (selected : machine.select call = .fire fired) :
    registrations.Admits (.trigger fired) := by
  cases call with
  | handle event context armed =>
      obtain ⟨stateName, handler, rfl, found, origin⟩ :=
        StateMachine.selectEvent_fire selected
      refine ⟨(holds.transitions _).symm.trans found, rfl, ?_⟩
      rcases origin with rfl | ⟨rfl, absent⟩
      · rw [if_neg (named _)]
      · rw [if_pos rfl]
        exact (holds.transitions _).symm.trans absent
  | checkTimeout context polled armed =>
      obtain ⟨deadline, duration, handler, rfl, _, found, _⟩ :=
        StateMachine.selectTimeout_fire selected
      exact ⟨⟨duration, (holds.timeouts _).symm.trans found⟩, rfl⟩

theorem Tables.Hold.admits_dispatched
    (holds : machine.toTables.Hold registrations)
    (named : ∀ state : S, StateVariant.variantName state ≠ "_")
    {call : Call E C} {invocation : Invocation S E C A}
    (dispatched : machine.Dispatched call invocation) :
    registrations.Admits invocation := by
  cases dispatched with
  | trigger selected => exact holds.admits_fired named selected
  | unhandled selected =>
      cases call with
      | handle event context armed =>
          obtain ⟨found, exact, wildcard⟩ :=
            StateMachine.selectEvent_absorb selected
          exact ⟨holds.unhandled.symm.trans found,
            (holds.transitions _).symm.trans exact,
            (holds.transitions _).symm.trans wildcard⟩
      | checkTimeout context polled armed =>
          exact absurd selected StateMachine.selectTimeout_ne_absorb
  | hook found =>
      rename_i side state handler
      cases side with
      | exit => exact ⟨(holds.exits _).symm.trans found, rfl⟩
      | entry => exact ⟨(holds.entries _).symm.trans found, rfl⟩

/-- Whatever an accepted chain's machine invokes, in any run, was registered
for the state and the event it receives. -/
theorem Chain.invoked_admitted (chain : Chain S E C A .fsm) (now : Instant)
    {machine : StateMachine S E C A}
    (built : chain.eval.tryBuild now = .ok machine)
    (named : ∀ state : S, StateVariant.variantName state ≠ "_")
    (calls : List (Call E C)) :
    ∀ report ∈ Trajectory.outputs StateMachine.step machine calls,
      ∀ invocation given left error,
        .invoked invocation given left error ∈ report.trace →
          chain.registrations.Admits invocation := by
  intro report member invocation given left error invoked
  rw [Trajectory.outputs_eq_map_visits] at member
  obtain ⟨visit, visited, rfl⟩ := List.mem_map.mp member
  have holds := chain.hold_of_built built
  rw [← machine.visits_toTables calls visit visited] at holds
  exact holds.admits_dispatched named
    (StateMachine.dispatched_of_invoked invoked)

end Admission

namespace Door

theorem named (state : DoorState) : StateVariant.variantName state ≠ "_" := by
  cases state with
  | closed => decide
  | opened => decide

def visit : List (Call DoorEvent DoorContext) :=
  [.handle .opening {} 5, .checkTimeout {} 6 6,
    .checkTimeout {} (openFor + 5) (openFor + 7)]

theorem visit_admitted :
    (chain greet).registrations.Admits (E := DoorEvent)
      (.hook .entry "Open" greet .opened) :=
  (chain greet).invoked_admitted 0 (built greet) named visit
    ((machine greet).report (.handle .opening {} 5)) List.mem_cons_self
    (.hook .entry "Open" greet .opened) {} {} none
    (List.mem_cons_of_mem _ (List.mem_cons_of_mem _ List.mem_cons_self))

end Door

end ObzenflowFsm
