import ObzenflowFsm.Machine.Dispatch
import ObzenflowFsm.Theory.Bracketing

namespace ObzenflowFsm

open Polling Bracketing

variable {S E C A : Type}

structure HookCall (S C A : Type) where
  side : Side
  key : String
  handler : StateHandler S C A
  state : S

/-- An effect as the bracketing law sees it. An exit hook that fails does not
count: the state is not left. -/
def mark : Effect S E C A → Option (Mark (HookCall S C A) S)
  | .invoked (.hook .entry key handler state) _ _ _ =>
      some (.hook ⟨.entry, key, handler, state⟩)
  | .invoked (.hook .exit key handler state) _ _ none =>
      some (.hook ⟨.exit, key, handler, state⟩)
  | .assignState state => some (.moved state)
  | _ => none

def marks (trace : List (Effect S E C A)) :
    List (Mark (HookCall S C A) S) :=
  trace.filterMap mark

theorem marks_append (first second : List (Effect S E C A)) :
    marks (first ++ second) = marks first ++ marks second :=
  List.filterMap_append

def assignedStates (trace : List (Effect S E C A)) : List S :=
  moves (marks trace)

theorem assignedStates_append (first second : List (Effect S E C A)) :
    assignedStates (first ++ second) =
      assignedStates first ++ assignedStates second := by
  rw [assignedStates, marks_append, moves_append]
  rfl

def hookCalls (trace : List (Effect S E C A)) : List (HookCall S C A) :=
  hooks (marks trace)

def Tables.hookHandlers (tables : Tables S E C A) :
    Side → StateHandlerMap S C A
  | .exit => tables.exitHandlers
  | .entry => tables.entryHandlers

/-- The call of a state's hook on one side; none without a hook. -/
def Tables.hookCall [StateVariant S] (tables : Tables S E C A) (side : Side)
    (state : S) : List (HookCall S C A) :=
  let stateName := StateVariant.variantName state
  match (tables.hookHandlers side).lookup stateName with
  | some handler => [⟨side, stateName, handler, state⟩]
  | none => []

namespace StateMachine

theorem marks_preamble (machine : StateMachine S E C A) (call : Call E C) :
    marks (machine.preamble call) = [] := by
  unfold preamble
  split
  · rfl
  · split
    · rfl
    · rfl

variable [StateVariant S]

theorem marks_rearmTrace (machine : StateMachine S E C A) (state : S)
    (armed : Instant) : marks (machine.rearmTrace state armed) = [] := by
  unfold rearmTrace
  split
  · rfl
  · rfl

theorem marks_entryTrace (machine : StateMachine S E C A) (state : S)
    (context : C) :
    marks (machine.hookTrace .entry state context) =
      (machine.toTables.hookCall .entry state).map .hook := by
  simp only [hookTrace, hooks, Tables.hookCall,
    Tables.hookHandlers]
  cases machine.entryHandlers.lookup (StateVariant.variantName state) with
  | none => rfl
  | some handler => rfl

theorem marks_exitTrace {machine : StateMachine S E C A} {state : S}
    {given left : C} {actions : List A}
    (exited : (machine.hookFuture .exit state given).Completes (.ok actions)
      left suspensions) :
    marks (machine.hookTrace .exit state given) =
      (machine.toTables.hookCall .exit state).map .hook := by
  have succeeded := exited.value_eq
  simp only [hookFuture, hookTrace, hooks, Tables.hookCall,
    Tables.hookHandlers] at succeeded ⊢
  cases found : machine.exitHandlers.lookup
      (StateVariant.variantName state) with
  | none => rfl
  | some handler =>
      rw [found] at succeeded
      simp only [succeeded]
      rfl

theorem marks_failedExitTrace {machine : StateMachine S E C A} {state : S}
    {given left : C} {error : FsmError}
    (failed : (machine.hookFuture .exit state given).Completes (.error error)
      left suspensions) :
    marks (machine.hookTrace .exit state given) = [] := by
  have stopped := failed.value_eq
  simp only [hookFuture, hookTrace, hooks] at stopped ⊢
  cases found : machine.exitHandlers.lookup
      (StateVariant.variantName state) with
  | none => rfl
  | some handler =>
      rw [found] at stopped
      simp only [stopped]
      rfl

variable [EventVariant E]

/-- A call that assigns the current state leaves the old state and enters the
new one around it; any other call counts for nothing. -/
theorem marks_report (machine : StateMachine S E C A) (call : Call E C) :
    marks (machine.report call).trace =
      match machine.entering call with
      | none => []
      | some (transition, _) =>
          (machine.toTables.hookCall .exit machine.currentState).map .hook ++
            .moved transition.nextState ::
              (machine.toTables.hookCall .entry transition.nextState).map
                .hook := by
  have course := machine.course call
  generalize machine.report call = outcome at course ⊢
  cases course with
  | idle selected =>
      rw [entering_of_unfired (by simp [selected])]
      exact machine.marks_preamble call
  | refused selected =>
      rw [entering_of_unfired (by simp [selected])]
      exact machine.marks_preamble call
  | absorbed selected answered =>
      rw [entering_of_unfired (by simp [selected]), marks_append,
        marks_preamble]
      rfl
  | declined selected failed =>
      rw [entering_of_declined selected failed, marks_append, marks_preamble]
      rfl
  | exitFailed selected answered failed =>
      rw [entering_of_exitFailed selected answered failed, marks_append,
        marks_append, marks_preamble, marks_failedExitTrace failed]
      rfl
  | entryFailed selected answered exited failed =>
      rw [entering_of_exited selected answered exited]
      simp only [marks_append, marks_preamble, marks_exitTrace exited,
        marks_entryTrace, List.append_assoc]
      rfl
  | completed selected answered exited entered =>
      rw [entering_of_exited selected answered exited]
      simp only [marks_append, marks_preamble, marks_exitTrace exited,
        marks_entryTrace, marks_rearmTrace, List.append_assoc,
        List.append_nil]
      rfl

/-- An exit hook that fails is the last a call invokes, and nothing moves. -/
theorem position_of_failedExit {machine : StateMachine S E C A}
    {call : Call E C} {key : String} {handler : StateHandler S C A} {state : S}
    {given left : C} {error : FsmError}
    (invoked : .invoked (.hook .exit key handler state) given left
      (some error) ∈ (machine.report call).trace) :
    (machine.report call).machine.position = machine.position := by
  have course := machine.course call
  generalize machine.report call = outcome at course invoked ⊢
  cases course with
  | idle | refused | absorbed | declined | exitFailed => rfl
  | entryFailed selected answered exited failed =>
      simp only [List.mem_append, List.mem_singleton] at invoked
      rcases invoked with
        (((invoked | equality) | invoked) | equality) | invoked
      · exact absurd invoked not_invoked_preamble
      · cases equality
      · obtain ⟨_, _, _, outcome⟩ := hook_of_hookTrace invoked
        rw [exited.value_eq] at outcome
        cases outcome
      · cases equality
      · obtain ⟨_, _, other, _⟩ := hook_of_hookTrace invoked
        cases other
  | completed selected answered exited entered =>
      simp only [List.mem_append, List.mem_singleton] at invoked
      rcases invoked with
        ((((invoked | equality) | invoked) | equality) | invoked) | invoked
      · exact absurd invoked not_invoked_preamble
      · cases equality
      · obtain ⟨_, _, _, outcome⟩ := hook_of_hookTrace invoked
        rw [exited.value_eq] at outcome
        cases outcome
      · cases equality
      · obtain ⟨_, _, other, _⟩ := hook_of_hookTrace invoked
        cases other
      · exact absurd invoked not_invoked_rearmTrace

/-- The only hook calls that do not count are exits that failed, and they
change neither state nor deadline. -/
theorem unmarked_hook {machine : StateMachine S E C A} {call : Call E C}
    {side : Side} {key : String} {handler : StateHandler S C A} {state : S}
    {given left : C} {error : Option FsmError}
    (invoked : .invoked (.hook side key handler state) given left error ∈
      (machine.report call).trace)
    (unmarked : mark (.invoked (E := E) (.hook side key handler state) given
      left error) = none) :
    side = .exit ∧ error.isSome ∧
      (machine.report call).machine.position = machine.position := by
  cases side with
  | entry => cases unmarked
  | exit =>
      cases error with
      | none => cases unmarked
      | some failure => exact ⟨rfl, rfl, position_of_failedExit invoked⟩

/-! ### Whole runs -/

def runTrace (machine : StateMachine S E C A) (calls : List (Call E C)) :
    List (Effect S E C A) :=
  (Trajectory.outputs step machine calls).flatMap Report.trace

theorem runTrace_cons (machine : StateMachine S E C A) (call : Call E C)
    (rest : List (Call E C)) :
    machine.runTrace (call :: rest) =
      (machine.report call).trace ++
        (machine.report call).machine.runTrace rest := rfl

theorem marks_runTrace (machine : StateMachine S E C A)
    (calls : List (Call E C)) :
    marks (machine.runTrace calls) =
      bracketed (machine.toTables.hookCall .exit)
        (machine.toTables.hookCall .entry) machine.currentState
        (assignedStates (machine.runTrace calls)) := by
  induction calls generalizing machine with
  | nil => rfl
  | cons call rest induction =>
      have tail := induction (machine.report call).machine
      rw [report_toTables, report_currentState] at tail
      have head := machine.marks_report call
      have assigned : assignedStates (machine.report call).trace =
          moves (marks (machine.report call).trace) := rfl
      rw [runTrace_cons, marks_append, assignedStates_append, assigned, head]
      cases reached : machine.entering call with
      | none =>
          rw [reached] at tail
          exact tail
      | some entered =>
          rw [reached] at tail
          simp only [moves_append, moves_map, moves_moved, List.nil_append,
            List.cons_append, List.append_assoc, bracketed, tail]

/-- Hook calls bracket every stay in a state. -/
structure HookBracketing (machine : StateMachine S E C A)
    (calls : List (Call E C)) : Prop where
  /-- The hook calls that count leave each state and enter the next, in the
  order in which the current state is assigned. -/
  sequence : hookCalls (machine.runTrace calls) =
    brackets (machine.toTables.hookCall .exit)
      (machine.toTables.hookCall .entry) machine.currentState
      (assignedStates (machine.runTrace calls))
  placed : marks (machine.runTrace calls) =
    bracketed (machine.toTables.hookCall .exit)
      (machine.toTables.hookCall .entry) machine.currentState
      (assignedStates (machine.runTrace calls))
  /-- Between two assignments a side is called at most once. -/
  once : ∀ side between, between <:+: marks (machine.runTrace calls) →
    (∀ state, .moved state ∉ between) →
      (Bracketing.hooks between).countP (·.side = side) ≤ 1
  /-- Only exits that fail do not count, and they move nothing. -/
  others : ∀ visit ∈ Trajectory.visits step machine calls,
    ∀ side key handler state given left error,
      .invoked (.hook side key handler state) given left error ∈
          (visit.1.report visit.2).trace →
        mark (.invoked (E := E) (.hook side key handler state) given left
            error) = none →
          side = .exit ∧ error.isSome ∧
            (visit.1.report visit.2).machine.position = visit.1.position

end StateMachine

theorem Tables.countP_hookCall [StateVariant S] (tables : Tables S E C A)
    (side : Side) (state : S) :
    (tables.hookCall .entry state).countP (·.side = side) +
        (tables.hookCall .exit state).countP (·.side = side) ≤ 1 := by
  have bound (own : Side) :
      (tables.hookCall own state).countP (·.side = side) ≤
        if own = side then 1 else 0 := by
    simp only [Tables.hookCall]
    split
    · rw [List.countP_singleton]
      simp only [decide_eq_true_iff]
      exact le_refl _
    · exact Nat.zero_le _
  have entry := bound .entry
  have exit := bound .exit
  cases side with
  | exit =>
      simp only [reduceCtorEq, if_false, if_true] at entry exit
      omega
  | entry =>
      simp only [reduceCtorEq, if_false, if_true] at entry exit
      omega

variable [StateVariant S] [EventVariant E]

/-- Whatever fails in a run, hook calls bracket every stay in a state. -/
theorem StateMachine.hookBracketing (machine : StateMachine S E C A)
    (calls : List (Call E C)) : machine.HookBracketing calls where
  sequence := by
    rw [hookCalls, machine.marks_runTrace calls, hooks_bracketed]
  placed := machine.marks_runTrace calls
  once := by
    intro side between contained unmoved
    rw [machine.marks_runTrace calls] at contained
    exact countP_stay (machine.toTables.countP_hookCall side) unmoved _ _
      contained
  others := by
    intro visit _ side key handler state given left error invoked unmarked
    exact unmarked_hook invoked unmarked

end ObzenflowFsm
