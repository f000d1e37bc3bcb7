import ObzenflowFsm.Machine.Deduplication
import ObzenflowFsm.Theory.Contract

namespace ObzenflowFsm

open Polling Registry

variable {S E C A : Type}

/-! ### What a contract of a call asks of the handlers it awaits -/

theorem meets_invoke_iff {invocation : Invocation S E C A}
    {world : World S E C A} {held : World S E C A → Prop}
    {post : FsmResult invocation.Output → World S E C A → Prop} :
    (invoke invocation world).Meets held post ↔
      (invocation.future world.context).Meets
        (fun context => held (world.holding context))
        fun result left => post result
          ((world.holding left).record
            (.invoked invocation world.context left (errorOf result))) := by
  rw [invoke, Future.meets_bind_iff, Future.meets_within_iff]
  exact Future.meets_congr fun result left => Future.meets_ready_iff

namespace StateMachine

variable [StateVariant S]

theorem meets_awaitHook_iff (machine : StateMachine S E C A) (side : Side)
    (state : S) {world : World S E C A} {held : World S E C A → Prop}
    {post : FsmResult (List A) → World S E C A → Prop} :
    (awaitHook side (machine.hooks side) (StateVariant.variantName state) state
        world).Meets held post ↔
      (machine.hookFuture side state world.context).Meets
        (fun context => held (world.holding context))
        fun result left => post result
          { machine := world.machine
            context := left
            trace := world.trace ++
              machine.hookTrace side state world.context } := by
  rw [(awaitHook_completes machine side state world).meets_iff,
    (Future.Completes.self (machine.hookFuture side state _)).meets_iff,
    List.forall_mem_map]

end StateMachine

/-- What holds of the state and the context, wherever the machine stands. -/
def World.Stands (standing : S → C → Prop) (world : World S E C A) : Prop :=
  standing world.machine.currentState world.context

/-- A call leaves the promise standing and returns permitted actions only. -/
def Upheld (standing : S → C → Prop) (permitted : A → Prop)
    (result : FsmResult (List A)) (world : World S E C A) : Prop :=
  world.Stands standing ∧
    ∀ actions, result = .ok actions → ∀ action ∈ actions, permitted action

section Transitions

variable [StateVariant S] (standing : S → C → Prop) (permitted : A → Prop)

def Registrations.hooks (registrations : Registrations S E C A) :
    Side → List (String × StateHandler S C A)
  | .exit => registrations.exits
  | .entry => registrations.entries

/-- The hook registered last under a state's name; a missing hook does
nothing. -/
def Registrations.hook (registrations : Registrations S E C A) (side : Side)
    (state : S) (context : C) : BoxFuture C (FsmResult (List A)) :=
  match latest (registrations.hooks side) (StateVariant.variantName state) with
  | some handler => handler state context
  | none => .ready (.ok []) context

/-- The entry hook of a state upholds the promise, given the actions that are
returned with its own. -/
def Registrations.Enters (registrations : Registrations S E C A) (state : S)
    (pending : List A) (context : C) : Prop :=
  (registrations.hook .entry state context).Meets (standing state)
    fun result left => standing state left ∧
      ∀ actions, result = .ok actions →
        ∀ action ∈ pending ++ actions, permitted action

/-- The hooks between a state and the next uphold the promise. -/
def Registrations.Leaves (registrations : Registrations S E C A) (state : S)
    (transition : Transition S A) (context : C) : Prop :=
  (registrations.hook .exit state context).Meets (standing state)
    fun result left =>
      match result with
      | .ok actions =>
          registrations.Enters standing permitted transition.nextState
            (transition.actions ++ actions) left
      | .error _ => standing state left

/-- The outcome of a handler in a state upholds the promise. -/
def Registrations.Answers (registrations : Registrations S E C A) (state : S)
    (future : BoxFuture C (FsmResult (Transition S A))) : Prop :=
  future.Meets (standing state) fun result left =>
    match result with
    | .ok transition =>
        registrations.Leaves standing permitted state transition left
    | .error _ => standing state left

variable {standing permitted} {registrations : Registrations S E C A}
  {machine : StateMachine S E C A}

omit [StateVariant S] in
theorem Tables.Hold.hooks (holds : machine.toTables.Hold registrations)
    (side : Side) : Tracks (machine.hooks side) (registrations.hooks side) := by
  cases side with
  | exit => exact holds.exits
  | entry => exact holds.entries

theorem Tables.Hold.hookFuture_eq (holds : machine.toTables.Hold registrations)
    (side : Side) (state : S) (context : C) :
    machine.hookFuture side state context =
      registrations.hook side state context := by
  have found := holds.hooks side (StateVariant.variantName state)
  cases registered :
      latest (registrations.hooks side) (StateVariant.variantName state) with
  | none =>
      simp only [StateMachine.hookFuture, Registrations.hook, found, registered]
  | some handler =>
      simp only [StateMachine.hookFuture, Registrations.hook, found, registered]

open StateMachine

omit [StateVariant S] in
theorem upheld_error {world : World S E C A} {error : FsmError} :
    Upheld standing permitted (.error error) world ↔ world.Stands standing :=
  ⟨And.left, fun stands => ⟨stands, fun _ failed => nomatch failed⟩⟩

theorem Tables.Hold.meets_applyTransition_iff
    (holds : machine.toTables.Hold registrations) (armed : Instant)
    (transition : Transition S A) (context : C)
    (trace : List (Effect S E C A)) :
    (applyTransition armed transition ⟨machine, context, trace⟩).Meets
        (World.Stands standing) (Upheld standing permitted) ↔
      registrations.Leaves standing permitted machine.currentState transition
        context := by
  rw [applyTransition, Async.run_instant (run_self _), Async.meets_bind_iff,
    Registrations.Leaves, ← holds.hookFuture_eq]
  refine (meets_awaitHook_iff machine .exit machine.currentState).trans ?_
  refine Future.meets_congr fun result left => ?_
  cases result with
  | error error => exact upheld_error
  | ok exitActions =>
      simp only
      rw [Async.run_instant (run_assignState _ _),
        Async.run_instant (run_self _), Async.meets_bind_iff,
        Registrations.Enters, ← holds.hookFuture_eq]
      refine (meets_awaitHook_iff (machine.moved transition.nextState) .entry
        transition.nextState).trans ?_
      refine Future.meets_congr fun result last => ?_
      cases result with
      | error error =>
          refine upheld_error.trans ?_
          refine ⟨fun stands => ⟨stands, ?_⟩, And.left⟩
          rintro _ ⟨⟩
      | ok entryActions =>
          change ((scheduleTimeout
            (machine.moved transition.nextState).timeoutHandlers _ armed >>= _)
              ⟨machine.moved transition.nextState, last, _⟩).Meets _ _ ↔ _
          rw [Async.run_instant (run_scheduleTimeout _ _ armed _)]
          refine Future.meets_ready_iff.trans (and_congr_right fun _ => ?_)
          constructor
          · rintro permits _ ⟨⟩
            have all := permits _ rfl
            simp only [List.forall_mem_append] at all ⊢
            exact ⟨⟨all.2, all.1.1⟩, all.1.2⟩
          · rintro permits _ ⟨⟩
            have all := permits _ rfl
            simp only [List.forall_mem_append] at all ⊢
            exact ⟨⟨all.1.2, all.2⟩, all.1.1⟩

theorem Tables.Hold.meets_fire_iff
    (holds : machine.toTables.Hold registrations)
    {trigger : Trigger S E C A} (armed : Instant) (context : C)
    (trace : List (Effect S E C A)) :
    (serve armed (.fire trigger) ⟨machine, context, trace⟩).Meets
        (World.Stands standing) (Upheld standing permitted) ↔
      registrations.Answers standing permitted machine.currentState
        (trigger.future context) := by
  rw [serve, Async.meets_bind_iff, meets_invoke_iff, Registrations.Answers]
  refine Future.meets_congr fun result left => ?_
  cases result with
  | error error => exact upheld_error
  | ok transition =>
      exact holds.meets_applyTransition_iff armed transition left _

theorem meets_absorb_iff {handler : UnhandledHandler S E C} {state : S}
    {event : E} (armed : Instant) (context : C)
    (trace : List (Effect S E C A)) :
    (serve armed (.absorb handler state event) ⟨machine, context, trace⟩).Meets
        (World.Stands standing) (Upheld standing permitted) ↔
      (handler state event context).Meets (standing machine.currentState)
        fun _ left => standing machine.currentState left := by
  rw [serve, Async.meets_bind_iff, meets_invoke_iff]
  refine Future.meets_congr fun result left => ?_
  cases result with
  | error error => exact upheld_error
  | ok value =>
      refine Future.meets_ready_iff.trans ⟨And.left, fun stands => ⟨stands, ?_⟩⟩
      rintro _ ⟨⟩ action member
      cases member

end Transitions

/-! ### Contracts of the handlers a table registers -/

section Handlers

variable [StateVariant S] [EventVariant E]

/-- What a handler owes the hooks that follow it: what it has made sure of when
it answers, and what the exit hook has made sure of when the new state is
assigned, with the actions still to be returned. -/
structure HookContracts (S C A : Type) where
  leaving : S → Transition S A → C → Prop
  entering : S → List A → C → Prop

/-- Each handler and each hook keeps its own contract, knowing nothing of the
others: while it is suspended, when it fails and when it answers. -/
structure Registrations.Honours (registrations : Registrations S E C A)
    (standing : S → C → Prop) (permitted : A → Prop)
    (contracts : HookContracts S C A) : Prop where
  transitions : ∀ state event handler context,
    registrations.handlerFor state event = some handler →
      standing state context →
        (handler state event context).Meets (standing state)
          fun result left =>
            match result with
            | .ok transition => contracts.leaving state transition left
            | .error _ => standing state left
  timeouts : ∀ state duration handler context,
    latest registrations.timeouts (StateVariant.variantName state) =
        some (duration, handler) →
      standing state context →
        (handler state context).Meets (standing state)
          fun result left =>
            match result with
            | .ok transition => contracts.leaving state transition left
            | .error _ => standing state left
  unhandled : ∀ state event handler context,
    registrations.handlerFor state event = none →
      registrations.unhandled = some handler → standing state context →
        (handler state event context).Meets (standing state)
          fun _ left => standing state left
  exits : ∀ state transition context,
    contracts.leaving state transition context →
      (registrations.hook .exit state context).Meets (standing state)
        fun result left =>
          match result with
          | .ok actions =>
              contracts.entering transition.nextState
                (transition.actions ++ actions) left
          | .error _ => standing state left
  entries : ∀ state pending context,
    contracts.entering state pending context →
      (registrations.hook .entry state context).Meets (standing state)
        fun result left => standing state left ∧
          ∀ actions, result = .ok actions →
            ∀ action ∈ pending ++ actions, permitted action

variable {registrations : Registrations S E C A} {standing : S → C → Prop}
  {permitted : A → Prop} {contracts : HookContracts S C A}

omit [EventVariant E] in
theorem Registrations.Answers.of_leaving {state : S}
    {future : BoxFuture C (FsmResult (Transition S A))}
    (leaves : ∀ transition context, contracts.leaving state transition context →
      registrations.Leaves standing permitted state transition context)
    (meets : future.Meets (standing state) fun result left =>
      match result with
      | .ok transition => contracts.leaving state transition left
      | .error _ => standing state left) :
    registrations.Answers standing permitted state future := by
  refine meets.weaken (fun _ stands => stands) ?_
  intro result left reached
  cases result with
  | ok transition => exact leaves transition left reached
  | error error => exact reached

theorem Registrations.Honours.leaves
    (honours : registrations.Honours standing permitted contracts) (state : S)
    (transition : Transition S A) (context : C)
    (leaving : contracts.leaving state transition context) :
    registrations.Leaves standing permitted state transition context := by
  refine (honours.exits state transition context leaving).weaken
    (fun _ stands => stands) ?_
  intro result left reached
  cases result with
  | ok actions => exact honours.entries _ _ left reached
  | error error => exact reached

/-! ### The contracts are enough, and they are needed -/

variable {machine : StateMachine S E C A}

theorem Tables.Hold.selectEvent_of_handlerFor
    (holds : machine.toTables.Hold registrations) {event : E}
    {handler : TransitionHandler S E C A}
    (found : registrations.handlerFor machine.currentState event =
      some handler) :
    ∃ key, machine.selectEvent event =
      .fire (.transition key handler machine.currentState event) := by
  simp only [Registrations.handlerFor, ← holds.transitions _] at found
  simp only [StateMachine.selectEvent]
  cases exact : machine.transitions.lookup
      (StateVariant.variantName machine.currentState,
        EventVariant.variantName event) with
  | some other =>
      rw [exact] at found
      cases found
      exact ⟨_, rfl⟩
  | none =>
      rw [exact, Option.none_or] at found
      simp only [found]
      exact ⟨_, rfl⟩

theorem Tables.Hold.selectEvent_of_unhandled
    (holds : machine.toTables.Hold registrations) {event : E}
    (absent : registrations.handlerFor machine.currentState event = none) :
    machine.selectEvent event =
      match registrations.unhandled with
      | some handler => .absorb handler machine.currentState event
      | none =>
          .refuse (.unhandledEvent
            (StateVariant.variantName machine.currentState)
            (EventVariant.variantName event)) := by
  simp only [Registrations.handlerFor, ← holds.transitions _,
    Option.or_eq_none_iff] at absent
  cases registered : registrations.unhandled with
  | none =>
      simp only [StateMachine.selectEvent, absent.1, absent.2,
        holds.unhandled, registered]
  | some handler =>
      simp only [StateMachine.selectEvent, absent.1, absent.2,
        holds.unhandled, registered]

theorem Tables.Hold.upholds_event
    (holds : machine.toTables.Hold registrations)
    (honours : registrations.Honours standing permitted contracts) (event : E)
    (context : C) (armed : Instant) (trace : List (Effect S E C A))
    (stands : standing machine.currentState context) :
    (StateMachine.serve armed (machine.selectEvent event)
      ⟨machine, context, trace⟩).Meets (World.Stands standing)
        (Upheld standing permitted) := by
  cases found : registrations.handlerFor machine.currentState event with
  | some handler =>
      obtain ⟨key, selected⟩ := holds.selectEvent_of_handlerFor found
      rw [selected, holds.meets_fire_iff]
      exact .of_leaving (honours.leaves _)
        (honours.transitions _ _ handler context found stands)
  | none =>
      rw [holds.selectEvent_of_unhandled found]
      cases unhandled : registrations.unhandled with
      | some handler =>
          simp only
          rw [meets_absorb_iff]
          exact honours.unhandled _ _ handler context found unhandled stands
      | none => exact Future.meets_ready_iff.mpr (upheld_error.mpr stands)

theorem Tables.Hold.upholds_poll
    (holds : machine.toTables.Hold registrations)
    (honours : registrations.Honours standing permitted contracts)
    (context : C) (polled armed : Instant) (trace : List (Effect S E C A))
    (stands : standing machine.currentState context) :
    (StateMachine.serve armed (machine.selectTimeout polled)
      ⟨machine, context, trace⟩).Meets (World.Stands standing)
        (Upheld standing permitted) := by
  cases selected : machine.selectTimeout polled with
  | idle =>
      refine Future.meets_ready_iff.mpr ⟨stands, ?_⟩
      rintro _ ⟨⟩ action member
      cases member
  | refuse error => exact Future.meets_ready_iff.mpr (upheld_error.mpr stands)
  | absorb handler state event =>
      exact absurd selected StateMachine.selectTimeout_ne_absorb
  | fire trigger =>
      obtain ⟨deadline, duration, handler, rfl, _, found, _⟩ :=
        StateMachine.selectTimeout_fire selected
      rw [holds.meets_fire_iff]
      exact .of_leaving (honours.leaves _)
        (honours.timeouts _ duration handler context
          ((holds.timeouts _).symm.trans found) stands)

/-- Calls keep what every handler keeps, wherever they are dropped and however
they end. -/
theorem Tables.Hold.upholds (holds : machine.toTables.Hold registrations)
    (honours : registrations.Honours standing permitted contracts)
    (call : Call E C) (stands : standing machine.currentState call.context) :
    (machine.perform call).Meets (World.Stands standing)
      (Upheld standing permitted) := by
  rw [StateMachine.perform_eq_serve]
  cases call with
  | handle event context armed =>
      exact holds.upholds_event honours event context armed _ stands
  | checkTimeout context polled armed =>
      exact holds.upholds_poll honours context polled armed _ stands

/-- The weakest contracts under which the hooks keep a promise. -/
def Registrations.hookContracts (registrations : Registrations S E C A)
    (standing : S → C → Prop) (permitted : A → Prop) :
    HookContracts S C A where
  leaving := registrations.Leaves standing permitted
  entering := registrations.Enters standing permitted

/-- The machine in some state, its deadline long passed. -/
def StateMachine.overdue (machine : StateMachine S E C A) (state : S) :
    StateMachine S E C A :=
  { machine with currentState := state, stateTimeout := some 0 }

theorem Tables.Hold.honours (holds : machine.toTables.Hold registrations)
    (upholds : ∀ (reached : StateMachine S E C A) (call : Call E C),
      reached.toTables = machine.toTables →
        standing reached.currentState call.context →
          (reached.perform call).Meets (World.Stands standing)
            (Upheld standing permitted)) :
    registrations.Honours standing permitted
      (registrations.hookContracts standing permitted) where
  transitions := by
    intro state event handler context found stands
    have meets := upholds (machine.overdue state) (.handle event context 0) rfl
      stands
    have here : (machine.overdue state).toTables.Hold registrations := holds
    obtain ⟨key, selected⟩ := here.selectEvent_of_handlerFor found
    rw [StateMachine.perform_eq_serve, StateMachine.select, selected,
      here.meets_fire_iff] at meets
    exact meets
  timeouts := by
    intro state duration handler context found stands
    have meets := upholds (machine.overdue state) (.checkTimeout context 0 0)
      rfl stands
    have here : (machine.overdue state).toTables.Hold registrations := holds
    have selected : (machine.overdue state).selectTimeout 0 =
        .fire (.timeout (StateVariant.variantName state) handler state) := by
      simp only [StateMachine.selectTimeout, StateMachine.overdue,
        holds.timeouts (StateVariant.variantName state), found, le_refl,
        if_true]
    rw [StateMachine.perform_eq_serve, StateMachine.select, selected,
      here.meets_fire_iff] at meets
    exact meets
  unhandled := by
    intro state event handler context absent found stands
    have meets := upholds (machine.overdue state) (.handle event context 0) rfl
      stands
    have here : (machine.overdue state).toTables.Hold registrations := holds
    rw [StateMachine.perform_eq_serve, StateMachine.select,
      here.selectEvent_of_unhandled absent, found] at meets
    exact meets_absorb_iff 0 context _ |>.mp meets
  exits := fun _ _ _ leaves => leaves
  entries := fun _ _ _ enters => enters

end Handlers

namespace Door

/-- Nothing is logged without words. -/
def Worded : DoorState → DoorContext → Prop :=
  fun _ context => "" ∉ context.log

def Wordy : DoorAction → Prop
  | .ring => True
  | .log message => message ≠ ""

end Door

end ObzenflowFsm
