import ObzenflowFsm.Machine.Dispatch
import ObzenflowFsm.Theory.Pipeline

namespace ObzenflowFsm

open Polling Pipeline

variable {S E C A : Type}

abbrev AwaitRecord (S E C A : Type) : Type :=
  Pipeline.Record (Invocation S E C A) C FsmError

/-- The handlers and hooks that a call awaited to completion, in order. -/
def awaited (trace : List (Effect S E C A)) : List (AwaitRecord S E C A) :=
  trace.filterMap fun effect =>
    match effect with
    | .invoked invocation given left error =>
        some ⟨invocation, given, left, error⟩
    | _ => none

@[simp] theorem awaited_append (first second : List (Effect S E C A)) :
    awaited (first ++ second) = awaited first ++ awaited second :=
  List.filterMap_append

@[simp] theorem awaited_nil :
    awaited ([] : List (Effect S E C A)) = [] := rfl

@[simp] theorem awaited_invoked (invocation : Invocation S E C A)
    (given left : C) (error : Option FsmError)
    (rest : List (Effect S E C A)) :
    awaited (.invoked invocation given left error :: rest) =
      ⟨invocation, given, left, error⟩ :: awaited rest := rfl

@[simp] theorem awaited_assignState (state : S)
    (rest : List (Effect S E C A)) :
    awaited (.assignState state :: rest) = awaited rest := rfl

def Invocation.IsHandler : Invocation S E C A → Prop
  | .trigger _ | .unhandled _ _ _ => True
  | .hook _ _ _ _ => False

def Invocation.IsHook [StateVariant S] (side : Side) (state : S) :
    Invocation S E C A → Prop
  | .trigger _ | .unhandled _ _ _ => False
  | .hook called key _ owner =>
      called = side ∧ key = StateVariant.variantName state ∧ owner = state

/-- What running a handler or hook on a context amounts to. -/
def Invocation.ran (invocation : Invocation S E C A) (context : C) :
    AwaitRecord S E C A where
  stage := invocation
  given := context
  left := (invocation.future context).state
  error := errorOf (invocation.future context).value

theorem handler_spec {invocation : Invocation S E C A} {given left : C}
    {value : FsmResult invocation.Output} {error : Option FsmError}
    (handles : invocation.IsHandler)
    (answered : (invocation.future given).Completes value left suspensions)
    (failed : errorOf value = error) :
    ∀ record ∈ some (⟨invocation, given, left, error⟩ : AwaitRecord S E C A),
      record.stage.IsHandler ∧
        record = record.stage.ran record.given := by
  intro record member
  cases member
  refine ⟨handles, ?_⟩
  rw [Invocation.ran, answered.value_eq, answered.state_eq, failed]

namespace StateMachine

@[simp] theorem awaited_preamble (machine : StateMachine S E C A)
    (call : Call E C) :
    awaited (machine.preamble call) = [] := by
  unfold preamble
  split
  · rfl
  · split
    · rfl
    · rfl

variable [StateVariant S]

@[simp] theorem awaited_rearmTrace (machine : StateMachine S E C A)
    (state : S) (armed : Instant) :
    awaited (machine.rearmTrace state armed) = [] := by
  unfold rearmTrace
  split
  · rfl
  · rfl

/-- The run of the hook a state's variant has on one side, if it has one. -/
def hookRecord (machine : StateMachine S E C A) (side : Side) (state : S)
    (context : C) : Option (AwaitRecord S E C A) :=
  ((machine.hooks side).lookup (StateVariant.variantName state)).map
    fun handler =>
      (Invocation.hook side (StateVariant.variantName state) handler
        state).ran context

@[simp] theorem awaited_hookTrace (machine : StateMachine S E C A) (side : Side)
    (state : S) (context : C) :
    awaited (machine.hookTrace side state context) =
      (machine.hookRecord side state context).toList := by
  unfold hookTrace hookRecord
  cases (machine.hooks side).lookup (StateVariant.variantName state) with
  | none => rfl
  | some handler => rfl

theorem runs_hook (machine : StateMachine S E C A) (side : Side) (state : S)
    (context : C) :
    Runs context (machine.hookRecord side state context).toList
      (errorOf (machine.hookFuture side state context).value)
      (machine.hookFuture side state context).state := by
  unfold hookRecord hookFuture
  cases (machine.hooks side).lookup (StateVariant.variantName state) with
  | none => exact .done
  | some handler =>
      exact .single ((Invocation.hook side _ handler state).ran context)

theorem runs_of_hook {machine : StateMachine S E C A} {side : Side} {state : S}
    {context final : C} {value : FsmResult (List A)}
    (ran : (machine.hookFuture side state context).Completes value final
      suspensions) :
    Runs context (machine.hookRecord side state context).toList
      (errorOf value) final := by
  have runs := machine.runs_hook side state context
  rwa [ran.value_eq, ran.state_eq] at runs

theorem hookRecord_spec {machine : StateMachine S E C A} {side : Side}
    {state : S} {context : C} :
    ∀ record ∈ machine.hookRecord side state context,
      record.stage.IsHook side state ∧
        record = record.stage.ran record.given := by
  intro record member
  obtain ⟨handler, _, rfl⟩ := Option.map_eq_some_iff.mp member
  exact ⟨⟨rfl, rfl, rfl⟩, rfl⟩

/-- A call awaits one handler, then the hook of the state it leaves, then that
of the state it ends in, any of them not at all. -/
structure Stages (machine : StateMachine S E C A) (outcome : Report S E C A)
    (handler exit entry : Option (AwaitRecord S E C A)) : Prop where
  awaited_eq :
    awaited outcome.trace = handler.toList ++ exit.toList ++ entry.toList
  handler : ∀ record ∈ handler,
    record.stage.IsHandler ∧ record = record.stage.ran record.given
  exit : ∀ record ∈ exit,
    record.stage.IsHook .exit machine.currentState ∧
      record = record.stage.ran record.given
  entry : ∀ record ∈ entry,
    record.stage.IsHook .entry outcome.machine.currentState ∧
      record = record.stage.ran record.given

variable [EventVariant E]

/-- No exact handler, no wildcard handler and no unhandled hook answers. -/
def Refuses (machine : StateMachine S E C A) :
    Call E C → FsmError → Prop
  | .handle event _ _, error =>
      let stateName := StateVariant.variantName machine.currentState
      let eventName := EventVariant.variantName event
      machine.transitions.lookup (stateName, eventName) = none ∧
        machine.transitions.lookup ("_", eventName) = none ∧
        machine.unhandledHandler = none ∧
        error = .unhandledEvent stateName eventName
  | .checkTimeout _ _ _, _ => False

omit [EventVariant E] in
theorem selectTimeout_ne_refuse {machine : StateMachine S E C A}
    {polled : Instant} {error : FsmError} :
    machine.selectTimeout polled ≠ .refuse error := by
  intro selected
  simp only [selectTimeout] at selected
  split at selected
  · split at selected
    · cases selected
    · cases selected
  · cases selected

theorem select_eq_refuse_iff {machine : StateMachine S E C A}
    {call : Call E C} {error : FsmError} :
    machine.select call = .refuse error ↔ machine.Refuses call error := by
  cases call with
  | checkTimeout context polled armed =>
      exact ⟨fun selected => absurd selected selectTimeout_ne_refuse,
        False.elim⟩
  | handle event context armed =>
      simp only [select, selectEvent, Refuses]
      cases machine.transitions.lookup
          (StateVariant.variantName machine.currentState,
            EventVariant.variantName event) with
      | some handler => simp
      | none =>
          cases machine.transitions.lookup
              ("_", EventVariant.variantName event) with
          | some handler => simp
          | none =>
              cases machine.unhandledHandler with
              | some handler => simp
              | none => simp [eq_comm]

/-! ### What a call awaits -/

theorem awaited_refused {machine : StateMachine S E C A} {call : Call E C}
    {error : FsmError} (selected : machine.select call = .refuse error) :
    (machine.report call).result = .error error ∧
      (machine.report call).context = call.context ∧
      awaited (machine.report call).trace = [] := by
  rw [report_eq selected (Async.completes_fail error _)]
  exact ⟨rfl, rfl, machine.awaited_preamble call⟩

/-- A call that is not refused runs its stages up to the first that fails, and
ends with the error of that one. -/
theorem exists_stages {machine : StateMachine S E C A} {call : Call E C}
    (answers : ∀ error, machine.select call ≠ .refuse error) :
    (∃ handler exit entry,
        machine.Stages (machine.report call) handler exit entry) ∧
      Runs call.context (awaited (machine.report call).trace)
        (errorOf (machine.report call).result)
        (machine.report call).context := by
  have course := machine.course call
  have quiet := machine.awaited_preamble call
  generalize machine.report call = outcome at course ⊢
  cases course with
  | idle selected =>
      refine ⟨⟨none, none, none, quiet, ?_, ?_, ?_⟩, ?_⟩
      · simp
      · simp
      · simp
      · rw [quiet]
        exact .done
  | refused selected => exact absurd selected (answers _)
  | absorbed selected answered =>
      rename_i handler state event result final suspensions
      have ended : errorOf (result.map fun _ => ([] : List A)) =
          errorOf result := by
        cases result with
        | ok value => rfl
        | error error => rfl
      refine ⟨⟨some ⟨.unhandled handler state event, call.context, final, _⟩,
        none, none, ?_, handler_spec trivial answered rfl, ?_, ?_⟩, ?_⟩
      · simp
      · simp
      · simp
      · simp only [awaited_append, quiet, ended, List.nil_append]
        exact .single ⟨_, _, _, _⟩
  | declined selected failed =>
      rename_i trigger error final suspensions
      refine ⟨⟨some ⟨.trigger trigger, call.context, final, some error⟩,
        none, none, ?_, handler_spec trivial failed rfl, ?_, ?_⟩, ?_⟩
      · simp
      · simp
      · simp
      · simp only [awaited_append, quiet, List.nil_append]
        exact .single ⟨_, _, _, some error⟩
  | exitFailed selected answered failed =>
      rename_i trigger replied suspensions error final exitSuspensions
        transition
      refine ⟨⟨some ⟨.trigger trigger, call.context, replied, none⟩,
        machine.hookRecord .exit machine.currentState replied, none, ?_,
        handler_spec trivial answered rfl, hookRecord_spec, ?_⟩, ?_⟩
      · simp
      · simp
      · simpa using (Runs.single ⟨.trigger trigger, call.context, replied,
          none⟩).append (runs_of_hook failed)
  | entryFailed selected answered exited failed =>
      rename_i trigger transition replied suspensions exitActions left
        exitSuspensions error final entrySuspensions
      refine ⟨⟨some ⟨.trigger trigger, call.context, replied, none⟩,
        machine.hookRecord .exit machine.currentState replied,
        machine.hookRecord .entry transition.nextState left, ?_,
        handler_spec trivial answered rfl, hookRecord_spec,
        hookRecord_spec⟩, ?_⟩
      · simp
      · have both := (runs_of_hook exited).append (runs_of_hook failed)
        simpa using (Runs.single ⟨.trigger trigger, call.context, replied,
          none⟩).append both
  | completed selected answered exited entered =>
      rename_i trigger transition replied suspensions exitActions left
        exitSuspensions entryActions final entrySuspensions
      refine ⟨⟨some ⟨.trigger trigger, call.context, replied, none⟩,
        machine.hookRecord .exit machine.currentState replied,
        machine.hookRecord .entry transition.nextState left, ?_,
        handler_spec trivial answered rfl, hookRecord_spec,
        hookRecord_spec⟩, ?_⟩
      · simp
      · have both := (runs_of_hook exited).append (runs_of_hook entered)
        simpa [errorOf] using (Runs.single ⟨.trigger trigger, call.context, replied,
          none⟩).append both

/-! ### The law -/

/-- A call raises exactly the error of the last handler or hook it awaited, or
refuses an event for which it awaited none. It awaits one handler, then the
hook of the state it leaves, then that of the state it ends in, threading one
context through them, and none after the first that fails. -/
structure PropagatesErrors (machine : StateMachine S E C A)
    (call : Call E C) : Prop where
  raised : ∀ error, (machine.report call).result = .error error ↔
    (∃ last, (awaited (machine.report call).trace).getLast? = some last ∧
        last.error = some error) ∨
      machine.Refuses call error
  refused : ∀ error, machine.Refuses call error →
    awaited (machine.report call).trace = []
  stages : ∃ handler exit entry,
    machine.Stages (machine.report call) handler exit entry
  threaded : ∃ outcome,
    Runs call.context (awaited (machine.report call).trace) outcome
      (machine.report call).context
  stopped : ∀ record ∈ (awaited (machine.report call).trace).dropLast,
    record.error = none

theorem errorOf_eq_some_iff {Value : Type} {result : FsmResult Value}
    {error : FsmError} :
    errorOf result = some error ↔ result = .error error := by
  cases result with
  | ok value => simp [errorOf]
  | error held => simp [errorOf]

/-- On every machine, whatever fails. -/
theorem propagatesErrors (machine : StateMachine S E C A)
    (call : Call E C) : machine.PropagatesErrors call := by
  by_cases refuses : ∃ error, machine.select call = .refuse error
  · obtain ⟨error, selected⟩ := refuses
    obtain ⟨failed, kept, silent⟩ := awaited_refused selected
    have refuses := select_eq_refuse_iff.mp selected
    constructor
    · intro other
      rw [failed, silent, ← select_eq_refuse_iff, selected]
      simp
    · intro other _
      exact silent
    · refine ⟨none, none, none, silent, ?_, ?_, ?_⟩
      · simp
      · simp
      · simp
    · rw [silent, kept]
      exact ⟨none, .done⟩
    · simp [silent]
  · have answers : ∀ error, machine.select call ≠ .refuse error :=
      fun error selected => refuses ⟨error, selected⟩
    obtain ⟨stages, runs⟩ := exists_stages answers
    constructor
    · intro error
      rw [← errorOf_eq_some_iff, runs.outcome_eq_some_iff,
        ← select_eq_refuse_iff]
      simp [answers]
    · intro error refused
      exact absurd (select_eq_refuse_iff.mpr refused) (answers error)
    · exact stages
    · exact ⟨_, runs⟩
    · exact runs.error_eq_none

end StateMachine

end ObzenflowFsm
