import ObzenflowFsm.Builder

namespace ObzenflowFsm

open Registry

variable {S E C A : Type}

/-- Through which of the two `on` methods a row was registered. -/
inductive Via where
  | when
  | timeout
  deriving DecidableEq

structure Row (S E C A : Type) where
  via : Via
  key : String × String
  handler : TransitionHandler S E C A

def Row.entry (row : Row S E C A) :
    (String × String) × TransitionHandler S E C A :=
  (row.key, row.handler)

structure Registrations (S E C A : Type) where
  rows : List (Row S E C A) := []
  timeouts : List (String × Duration × TimeoutHandler S C A) := []
  entries : List (String × StateHandler S C A) := []
  exits : List (String × StateHandler S C A) := []
  unhandled : Option (UnhandledHandler S E C) := none

def BuilderCall.register (stateName : String)
    (registrations : Registrations S E C A) :
    BuilderCall S E C A source target → Registrations S E C A
  | .strict | .when _ | .fromAny | .whenDone | .timeoutDone => registrations
  | .whenUnhandled handler => { registrations with unhandled := some handler }
  | .onEntry name handler =>
      { registrations with entries := registrations.entries ++ [(name, handler)] }
  | .onExit name handler =>
      { registrations with exits := registrations.exits ++ [(name, handler)] }
  | .whenOn eventName handler =>
      { registrations with
        rows := registrations.rows ++
          [⟨.when, (stateName, eventName), handler⟩] }
  | .timeout duration handler =>
      { registrations with
        timeouts := registrations.timeouts ++
          [(stateName, duration, handler)] }
  | .timeoutOn eventName handler =>
      { registrations with
        rows := registrations.rows ++
          [⟨.timeout, (stateName, eventName), handler⟩] }

def Chain.blockName : Chain S E C A stage → String
  | .new _ => ""
  | .call _ (.when stateName) => stateName
  | .call _ .fromAny => "_"
  | .call chain _ => chain.blockName

def Chain.registrations : Chain S E C A stage → Registrations S E C A
  | .new _ => {}
  | .call chain next => next.register chain.blockName chain.registrations

def Chain.initialState : Chain S E C A stage → S
  | .new initialState => initialState
  | .call chain _ => chain.initialState

/-- The rows that repeat an earlier key, in order. -/
def Registrations.repeats (registrations : Registrations S E C A) :
    List (Row S E C A) :=
  Registry.repeats Row.key registrations.rows

def Stage.inner : {stage : Stage} → stage.Builder S E C A →
    FsmBuilder S E C A
  | .fsm, builder => builder
  | .when, block => block.builder
  | .timeout, block => block.builder

def Stage.NamedBy (stateName : String) :
    {stage : Stage} → stage.Builder S E C A → Prop
  | .fsm, _ => True
  | .when, block => block.stateName = stateName
  | .timeout, block => block.stateName = stateName

/-- A builder holds exactly what a chain registered: last registrations win,
and the recorded duplicates are the repeats made through `WhenBuilder.on`. -/
structure FsmBuilder.Holds (builder : FsmBuilder S E C A)
    (registrations : Registrations S E C A) : Prop where
  transitions :
    Tracks builder.transitions (registrations.rows.map Row.entry)
  timeouts : Tracks builder.timeoutHandlers registrations.timeouts
  entries : Tracks builder.entryHandlers registrations.entries
  exits : Tracks builder.exitHandlers registrations.exits
  unhandled : builder.unhandledHandler = registrations.unhandled
  duplicates : builder.duplicateHandlers =
    (registrations.repeats.filter (·.via = .when)).map Row.key
  strict : builder.strictValidation = true

theorem FsmBuilder.holds_new (initialState : S) :
    (FsmBuilder.new initialState : FsmBuilder S E C A).Holds {} where
  transitions := Tracks.empty
  timeouts := Tracks.empty
  entries := Tracks.empty
  exits := Tracks.empty
  unhandled := rfl
  duplicates := rfl
  strict := rfl

theorem FsmBuilder.Holds.mem_transitions_iff {builder : FsmBuilder S E C A}
    {registrations : Registrations S E C A}
    (holds : builder.Holds registrations) (key : String × String) :
    key ∈ builder.transitions ↔ key ∈ registrations.rows.map Row.key := by
  rw [holds.transitions.mem_iff, List.map_map]
  rfl

theorem FsmBuilder.Holds.row {builder : FsmBuilder S E C A}
    {registrations : Registrations S E C A}
    (holds : builder.Holds registrations) (row : Row S E C A)
    {duplicates : List (String × String)}
    (recorded : duplicates = builder.duplicateHandlers ++
      if row.via = .when ∧ row.key ∈ builder.transitions then [row.key]
      else []) :
    FsmBuilder.Holds
      { builder with
        transitions := builder.transitions.insert row.key row.handler
        duplicateHandlers := duplicates }
      { registrations with rows := registrations.rows ++ [row] } where
  transitions := by
    rw [List.map_append]
    exact holds.transitions.insert row.key row.handler
  timeouts := holds.timeouts
  entries := holds.entries
  exits := holds.exits
  unhandled := holds.unhandled
  duplicates := by
    simp only [Registrations.repeats, repeats_concat, recorded,
      holds.duplicates, holds.mem_transitions_iff, List.filter_append,
      List.map_append]
    congr 1
    by_cases member : row.key ∈ registrations.rows.map Row.key
    · by_cases via : row.via = .when
      · simp [member, via]
      · simp [member, via]
    · simp [member]
  strict := holds.strict

theorem WhenBuilder.on_holds (block : WhenBuilder S E C A)
    {registrations : Registrations S E C A}
    (holds : block.builder.Holds registrations) (eventName : String)
    (handler : TransitionHandler S E C A) :
    (block.on eventName handler).builder.Holds
      { registrations with
        rows := registrations.rows ++
          [⟨.when, (block.stateName, eventName), handler⟩] } := by
  unfold WhenBuilder.on
  by_cases member : (block.stateName, eventName) ∈ block.builder.transitions
  · simp only [if_pos member]
    exact holds.row ⟨.when, (block.stateName, eventName), handler⟩
      (by simp [member])
  · simp only [if_neg member]
    exact holds.row ⟨.when, (block.stateName, eventName), handler⟩
      (by simp [member])

theorem TimeoutBuilder.on_holds (block : TimeoutBuilder S E C A)
    {registrations : Registrations S E C A}
    (holds : block.builder.Holds registrations) (eventName : String)
    (handler : TransitionHandler S E C A) :
    (block.on eventName handler).builder.Holds
      { registrations with
        rows := registrations.rows ++
          [⟨.timeout, (block.stateName, eventName), handler⟩] } :=
  holds.row ⟨.timeout, (block.stateName, eventName), handler⟩ (by simp)

theorem BuilderCall.holds_apply (call : BuilderCall S E C A source target)
    {builder : source.Builder S E C A} {stateName : String}
    {registrations : Registrations S E C A}
    (holds : (Stage.inner builder).Holds registrations)
    (named : Stage.NamedBy stateName builder) :
    (Stage.inner (call.apply builder)).Holds
      (call.register stateName registrations) := by
  cases call with
  | strict => exact { holds with strict := rfl }
  | when stateName => exact holds
  | fromAny => exact holds
  | whenUnhandled handler => exact { holds with unhandled := rfl }
  | onEntry stateName handler =>
      exact { holds with entries := holds.entries.insert stateName handler }
  | onExit stateName handler =>
      exact { holds with exits := holds.exits.insert stateName handler }
  | whenOn eventName handler =>
      subst named
      exact WhenBuilder.on_holds builder holds eventName handler
  | timeout duration handler =>
      subst named
      exact { holds with
        timeouts := holds.timeouts.insert builder.stateName (duration, handler) }
  | whenDone => exact holds
  | timeoutOn eventName handler =>
      subst named
      exact TimeoutBuilder.on_holds builder holds eventName handler
  | timeoutDone => exact holds

theorem Chain.namedBy_eval (chain : Chain S E C A stage) :
    Stage.NamedBy chain.blockName chain.eval := by
  induction chain with
  | new initialState => trivial
  | call chain next induction =>
      cases next with
      | strict | whenUnhandled | onEntry | onExit | whenDone | timeoutDone =>
          trivial
      | when | fromAny => rfl
      | whenOn | timeout | timeoutOn => exact induction

theorem Chain.holds_eval (chain : Chain S E C A stage) :
    (Stage.inner chain.eval).Holds chain.registrations := by
  induction chain with
  | new initialState => exact FsmBuilder.holds_new initialState
  | call chain next induction =>
      exact next.holds_apply induction chain.namedBy_eval

theorem Chain.initialState_eval (chain : Chain S E C A stage) :
    (Stage.inner chain.eval).initialState = chain.initialState := by
  induction chain with
  | new initialState => rfl
  | call chain next induction =>
      rw [Chain.initialState, ← induction]
      cases next with
      | whenOn eventName handler =>
          change (if _ then _ else _ : FsmBuilder S E C A).initialState = _
          split <;> rfl
      | strict | when | fromAny | whenUnhandled | onEntry | onExit
      | timeout | whenDone | timeoutOn | timeoutDone => rfl

end ObzenflowFsm
