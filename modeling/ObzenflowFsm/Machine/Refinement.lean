import ObzenflowFsm.Machine.Dispatch
import ObzenflowFsm.Machine.Overflow

namespace ObzenflowFsm

open Polling Registry TimedMealy

variable {S E C A : Type}

/-- A handler as what it returns and leaves, however often it is suspended. -/
def settle {Value : Type} (handler : C → BoxFuture C (FsmResult Value)) :
    TimedMealy.Effect C FsmError Value :=
  fun context => ((handler context).value, (handler context).state)

def settleTransition
    (handler : C → BoxFuture C (FsmResult (Transition S A))) :
    TimedMealy.Effect C FsmError (S × List A) :=
  fun context =>
    ((handler context).value.map fun transition =>
        (transition.nextState, transition.actions),
      (handler context).state)

/-- The hook registered last under a state's name; none does nothing. -/
def settleHook [StateVariant S] (hooks : List (String × StateHandler S C A))
    (state : S) : TimedMealy.Effect C FsmError (List A) :=
  match latest hooks (StateVariant.variantName state) with
  | some handler => settle (handler state)
  | none => fun context => (.ok [], context)

section Reference

variable [StateVariant S] [EventVariant E]

/-- The reaction to an event: the row of the state's variant, else the row of
the wildcard, else the unhandled hook, else a refusal. -/
def Registrations.react (registrations : Registrations S E C A) (state : S)
    (event : E) : Reaction S C A FsmError :=
  let rows := registrations.rows.map Row.entry
  let stateName := StateVariant.variantName state
  let eventName := EventVariant.variantName event
  match latest rows (stateName, eventName) with
  | some handler => .move (settleTransition (handler state event))
  | none =>
      match latest rows ("_", eventName) with
      | some handler => .move (settleTransition (handler state event))
      | none =>
          match registrations.unhandled with
          | some handler => .absorb (settle (handler state event))
          | none => .refuse (.unhandledEvent stateName eventName)

def Registrations.reference (registrations : Registrations S E C A) :
    Machine S E C A FsmError where
  react := registrations.react
  expire := fun state =>
    (latest registrations.timeouts (StateVariant.variantName state)).map
      fun timeout => settleTransition (timeout.2 state)
  leave := settleHook registrations.exits
  enter := settleHook registrations.entries
  delay := fun state =>
    (latest registrations.timeouts (StateVariant.variantName state)).map
      Prod.fst

end Reference

def Call.input : Call E C → Input E C
  | .handle event context armed => .event event context armed
  | .checkTimeout context polled armed => .poll context polled armed

theorem settleTransition_ok {handler : C → BoxFuture C
      (FsmResult (Transition S A))} {given : C}
    {transition : Transition S A}
    (answered : (handler given).Completes (.ok transition) replied
      suspensions) :
    settleTransition handler given =
      (.ok (transition.nextState, transition.actions), replied) := by
  simp only [settleTransition, answered.value_eq, answered.state_eq]
  rfl

section Simulation

variable [StateVariant S] [EventVariant E]
  {registrations : Registrations S E C A} {machine : StateMachine S E C A}

theorem Tables.Hold.leave_eq (holds : machine.toTables.Hold registrations)
    {state : S} {given final : C} {value : FsmResult (List A)}
    (left : (machine.hookFuture .exit state given).Completes value final
      suspensions) :
    registrations.reference.leave state given = (value, final) := by
  rw [← left.value_eq, ← left.state_eq]
  simp only [Registrations.reference, settleHook,
    ← holds.exits (StateVariant.variantName state), StateMachine.hookFuture,
    StateMachine.hooks]
  cases machine.exitHandlers.lookup (StateVariant.variantName state) with
  | none => rfl
  | some handler => rfl

theorem Tables.Hold.enter_eq (holds : machine.toTables.Hold registrations)
    {state : S} {given final : C} {value : FsmResult (List A)}
    (entered : (machine.hookFuture .entry state given).Completes value final
      suspensions) :
    registrations.reference.enter state given = (value, final) := by
  rw [← entered.value_eq, ← entered.state_eq]
  simp only [Registrations.reference, settleHook,
    ← holds.entries (StateVariant.variantName state), StateMachine.hookFuture,
    StateMachine.hooks]
  cases machine.entryHandlers.lookup (StateVariant.variantName state) with
  | none => rfl
  | some handler => rfl

theorem Tables.Hold.delay_eq (holds : machine.toTables.Hold registrations)
    (state : S) (armed : Instant) :
    (registrations.reference.delay state).map (armed + ·) =
      machine.rearmed state armed := by
  simp only [Registrations.reference, StateMachine.rearmed,
    ← holds.timeouts (StateVariant.variantName state), Option.map_map]
  rfl

def Registrations.serve (registrations : Registrations S E C A)
    (here : Position S) (call : Call E C) :
    Selection S E C A → Response S C A FsmError
  | .idle => ⟨.ok [], call.context, here⟩
  | .refuse error => ⟨.error error, call.context, here⟩
  | .absorb handler state event =>
      Machine.absorb here (settle (handler state event) call.context)
  | .fire trigger =>
      registrations.reference.move call.armed here
        (settleTransition trigger.future call.context)

theorem Tables.Hold.onEvent_eq_serve
    (holds : machine.toTables.Hold registrations) (event : E) (context : C)
    (armed : Instant) :
    registrations.reference.onEvent machine.position event context armed =
      registrations.serve machine.position (.handle event context armed)
        (machine.selectEvent event) := by
  have exact := holds.transitions
    (StateVariant.variantName machine.currentState,
      EventVariant.variantName event)
  have wildcard := holds.transitions ("_", EventVariant.variantName event)
  simp only [Machine.onEvent, Registrations.reference, Registrations.react,
    StateMachine.position, StateMachine.selectEvent, ← exact, ← wildcard,
    ← holds.unhandled]
  cases machine.transitions.lookup
      (StateVariant.variantName machine.currentState,
        EventVariant.variantName event) with
  | some handler => rfl
  | none =>
      cases machine.transitions.lookup
          ("_", EventVariant.variantName event) with
      | some handler => rfl
      | none =>
          cases machine.unhandledHandler with
          | some handler => rfl
          | none => rfl

theorem Tables.Hold.onPoll_eq_serve
    (holds : machine.toTables.Hold registrations) (context : C)
    (polled armed : Instant) :
    registrations.reference.onPoll machine.position context polled armed =
      registrations.serve machine.position (.checkTimeout context polled armed)
        (machine.selectTimeout polled) := by
  have timeouts := holds.timeouts
    (StateVariant.variantName machine.currentState)
  simp only [Machine.onPoll, Registrations.reference, StateMachine.position,
    StateMachine.selectTimeout, ← timeouts]
  cases machine.stateTimeout with
  | none => rfl
  | some deadline =>
      cases machine.timeoutHandlers.lookup
          (StateVariant.variantName machine.currentState) with
      | none => rfl
      | some timeout =>
          simp only [Option.map_some]
          split
          · rfl
          · rfl

theorem Tables.Hold.respond_eq_serve
    (holds : machine.toTables.Hold registrations) (call : Call E C) :
    registrations.reference.respond machine.position call.input =
      registrations.serve machine.position call (machine.select call) := by
  cases call with
  | handle event context armed =>
      exact holds.onEvent_eq_serve event context armed
  | checkTimeout context polled armed =>
      exact holds.onPoll_eq_serve context polled armed

theorem Tables.Hold.response_eq
    (holds : machine.toTables.Hold registrations) (call : Call E C) :
    (machine.report call).response =
      registrations.reference.respond machine.position call.input := by
  rw [holds.respond_eq_serve call]
  have course := machine.course call
  generalize machine.report call = outcome at course ⊢
  cases course with
  | idle selected =>
      rw [selected]
      rfl
  | refused selected =>
      rw [selected]
      rfl
  | absorbed selected answered =>
      rename_i handler state event result final suspensions
      rw [selected]
      simp only [Registrations.serve, settle, answered.value_eq,
        answered.state_eq]
      cases result with
      | ok value => rfl
      | error error => rfl
  | declined selected failed =>
      rw [selected]
      simp only [Registrations.serve, settleTransition, failed.value_eq,
        failed.state_eq]
      rfl
  | exitFailed selected answered failed =>
      rw [selected]
      simp only [Registrations.serve, settleTransition_ok answered]
      rw [Machine.move_of_leave_error (holds.leave_eq failed)]
      rfl
  | entryFailed selected answered exited failed =>
      rw [selected]
      simp only [Registrations.serve, settleTransition_ok answered]
      rw [Machine.move_of_enter_error (holds.leave_eq exited)
        (holds.enter_eq failed)]
      rfl
  | completed selected answered exited entered =>
      rw [selected]
      simp only [Registrations.serve, settleTransition_ok answered]
      rw [Machine.move_of_enter (holds.leave_eq exited)
        (holds.enter_eq entered), holds.delay_eq]
      rfl

def Registrations.answer (registrations : Registrations S E C A)
    (here : Position S) (call : Call E C) :
    Response S C A FsmError × Position S :=
  registrations.reference.step here call.input

/-- A machine with these tables, wherever it stands, answers every run as the
reference machine does from there. -/
theorem Tables.Hold.outputs_eq (holds : machine.toTables.Hold registrations)
    (calls : List (Call E C)) :
    Trajectory.outputs StateMachine.respond machine calls =
      Trajectory.outputs registrations.answer machine.position calls := by
  refine (Trajectory.outputs_eq_of_simulation
    (fun (reached : StateMachine S E C A) here =>
      reached.toTables.Hold registrations ∧ reached.position = here)
    ?_ ⟨holds, rfl⟩ calls).1
  intro reached here call related
  obtain ⟨holdsReached, rfl⟩ := related
  have same := holdsReached.response_eq call
  refine ⟨same, ?_, congrArg Response.position same⟩
  change (reached.report call).machine.toTables.Hold registrations
  rw [reached.report_toTables call]
  exact holdsReached

/-- The reference machine, with deadlines that can be armed as long as they are
representable. -/
def Registrations.checkedAnswer (registrations : Registrations S E C A)
    (here : Position S) (call : Call E C) :
    Response S C A Interruption × Position S :=
  registrations.reference.guardedStep Instant.limit .returned .panicked here
    call.input

/-- With the addition that can panic, every run is answered as the reference
machine does with deadlines that must be representable. -/
theorem Tables.Hold.checked_outputs_eq
    (holds : machine.toTables.Hold registrations)
    (fits : machine.position.Fits Instant.limit) (calls : List (Call E C)) :
    Trajectory.outputs Checked.respond machine calls =
      Trajectory.outputs registrations.checkedAnswer machine.position
        calls := by
  refine (Trajectory.outputs_eq_of_simulation
    (fun (reached : StateMachine S E C A) here =>
      reached.toTables.Hold registrations ∧
        reached.position.Fits Instant.limit ∧ reached.position = here)
    ?_ ⟨holds, fits, rfl⟩ calls).1
  intro reached here call related
  obtain ⟨holdsReached, fitsReached, rfl⟩ := related
  have same : (Checked.respond reached call).1 =
      (registrations.checkedAnswer reached.position call).1 := by
    rw [Checked.respond_eq_guard fitsReached, holdsReached.response_eq call]
    rfl
  refine ⟨same, ?_, ?_, congrArg Response.position same⟩
  · rw [Checked.respond_toTables]
    exact holdsReached
  · change (Checked.respond reached call).1.position.Fits Instant.limit
    rw [Checked.respond_eq_guard fitsReached]
    exact Response.fits_guard fitsReached

theorem Chain.position_of_built {chain : Chain S E C A .fsm} {now : Instant}
    (built : chain.eval.tryBuild now = .ok machine) :
    machine.position =
      chain.registrations.reference.start chain.initialState now := by
  have holds := chain.hold_of_built built
  have constructed := ((chain.accepted_iff now).mp built).constructed
  rw [chain.eval.machine_eq_settled now] at constructed
  rw [Machine.start, holds.delay_eq, constructed, ← chain.initialState_eval]
  rfl

theorem Chain.initialOverflows_iff {chain : Chain S E C A .fsm}
    {now : Instant} :
    chain.InitialOverflows now ↔
      chain.registrations.firstRecorded = none ∧
        ¬ (chain.registrations.reference.start chain.initialState now).Fits
          Instant.limit := by
  simp [Chain.InitialOverflows, Machine.start, Position.Fits,
    Registrations.reference, Instant.Representable]

theorem Chain.fits_of_built {chain : Chain S E C A .fsm} {now : Instant}
    (built : Checked.tryBuild chain.eval now = .ok machine) :
    machine.position.Fits Instant.limit := by
  obtain ⟨accepted, fits⟩ := (chain.checked_built_iff now).mp built
  rw [Chain.position_of_built accepted]
  by_contra large
  exact fits (Chain.initialOverflows_iff.mpr
    ⟨((chain.accepted_iff now).mp accepted).unrecorded, large⟩)

theorem Chain.outputs_of_built {chain : Chain S E C A .fsm} {now : Instant}
    (built : chain.eval.tryBuild now = .ok machine)
    (calls : List (Call E C)) :
    Trajectory.outputs StateMachine.respond machine calls =
      Trajectory.outputs chain.registrations.answer
        (chain.registrations.reference.start chain.initialState now)
        calls := by
  rw [← Chain.position_of_built built]
  exact (chain.hold_of_built built).outputs_eq calls

/-- The machine answers the run as the timed Mealy machine that the chain's
registrations describe: same results, contexts, states and deadlines. -/
def Chain.AnswersAsReference (chain : Chain S E C A .fsm) (now : Instant)
    (machine : StateMachine S E C A) (calls : List (Call E C)) : Prop :=
  Trajectory.outputs Checked.respond machine calls =
    (Trajectory.outputs chain.registrations.answer
      (chain.registrations.reference.start chain.initialState now) calls).map
        (Response.mapError .returned)

/-- An accepted chain's machine answers a run as its reference machine exactly
if no call of the run arms a deadline that is not representable. -/
theorem Chain.refines_reference_iff (chain : Chain S E C A .fsm)
    (now : Instant) (built : Checked.tryBuild chain.eval now = .ok machine)
    (calls : List (Call E C)) :
    chain.AnswersAsReference now machine calls ↔
      ∀ visit ∈ Trajectory.visits Checked.respond machine calls,
        ¬ visit.1.Overflows visit.2 := by
  have accepted := ((chain.checked_built_iff now).mp built).1
  unfold AnswersAsReference
  rw [← Chain.outputs_of_built accepted]
  exact Checked.outputs_eq_iff machine calls

end Simulation

namespace Door

theorem visit_fits :
    ∀ seen ∈ Trajectory.visits Checked.respond (machine greet) visit,
      ¬ seen.1.Overflows seen.2 :=
  Chain.run_fits (built greet) (by decide)

theorem visit_refines :
    (chain greet).AnswersAsReference 0 (machine greet) visit :=
  ((chain greet).refines_reference_iff 0 rfl visit).mpr visit_fits

theorem openForGood_not_refines :
    ¬ ∀ reached,
      Checked.tryBuild (openForGood greet).eval 0 = .ok reached →
        ∀ calls, (openForGood greet).AnswersAsReference 0 reached calls := by
  intro refines
  have answers := refines _ rfl [.handle .opening {} 0]
  have panicked := Checked.panics_iff.mpr (openForGood_overflows greet rfl)
  have returned := congrArg Response.result (List.cons.inj answers).1
  cases panicked.symm.trans returned

end Door

end ObzenflowFsm
