import Mathlib.Data.List.Find
import ObzenflowFsm.Macro.Preservation

namespace ObzenflowFsm

open Registry TimedMealy

variable {Ty Ex S E C A Value : Type}

/-! A table over derived enums, read as the `match` it looks like: its paths
are patterns, and no name is compared. -/

/-! ### Names looked up in a table -/

theorem lookup_flatMap {Item Key Held : Type} [BEq Key]
    (items : List Item) (entries : Item → List (Key × Held)) (key : Key) :
    (items.flatMap entries).lookup key =
      items.findSome? fun item => (entries item).lookup key := by
  induction items with
  | nil => rfl
  | cons item rest induction =>
      rw [List.flatMap_cons, List.lookup_append, List.findSome?_cons,
        induction]
      cases (entries item).lookup key with
      | none => rfl
      | some held => rfl

theorem findSome?_congr_of_mem {Item Held : Type} {items : List Item}
    {first second : Item → Option Held}
    (same : ∀ item ∈ items, first item = second item) :
    items.findSome? first = items.findSome? second := by
  induction items with
  | nil => rfl
  | cons item rest induction =>
      rw [List.forall_mem_cons] at same
      rw [List.findSome?_cons, List.findSome?_cons, same.1,
        induction same.2]

theorem lookup_toList {Held : Type} (held : Option Held) (name key : String) :
    (held.toList.map (name, ·)).lookup key =
      if name = key then held else none := by
  cases held with
  | none => simp
  | some value =>
      by_cases same : name = key
      · simp [same]
      · have other : (key == name) = false :=
          beq_eq_false_iff_ne.mpr (Ne.symm same)
        simp [same, List.lookup_cons, other]

theorem lookup_handlers (handlers : List (OnHandler Ex))
    (name stateName eventName : String) :
    (handlers.map fun on =>
        ((name, on.eventPath.dispatchName), on.handler)).lookup
          (stateName, eventName) =
      if name = stateName then
        (handlers.find? fun on =>
          on.eventPath.dispatchName = eventName).map OnHandler.handler
      else none := by
  induction handlers with
  | nil => simp
  | cons on rest induction =>
      rw [List.map_cons, List.lookup_cons, induction, List.find?_cons]
      by_cases same : name = stateName
      · subst same
        by_cases hit : on.eventPath.dispatchName = eventName
        · subst hit
          simp
        · have other : (((name, eventName) : String × String) ==
              (name, on.eventPath.dispatchName)) = false := by
            apply beq_eq_false_iff_ne.mpr
            intro equal
            exact hit (congrArg Prod.snd equal).symm
          simp [hit, other]
      · have other : (((stateName, eventName) : String × String) ==
            (name, on.eventPath.dispatchName)) = false := by
          apply beq_eq_false_iff_ne.mpr
          intro equal
          exact same (congrArg Prod.fst equal).symm
        simp [same, other]

namespace FsmSpec

theorem lookup_ofKind {spec : FsmSpec Ty Ex}
    {kind : Clause Ex → Option Value} {held : StateBlock Ex → Option Value}
    (kept : ∀ block : StateBlock Ex,
      block.clauses.filterMap kind = (held block).toList) (name : String) :
    (spec.ofKind kind).lookup name =
      spec.states.findSome? fun block =>
        if block.stateName = name then held block else none := by
  rw [ofKind_eq, lookup_flatMap]
  apply findSome?_congr_of_mem
  intro block _
  rw [kept block, lookup_toList]

theorem lookup_rows (spec : FsmSpec Ty Ex) (stateName eventName : String) :
    spec.rows.lookup (stateName, eventName) =
      spec.states.findSome? fun block =>
        if block.stateName = stateName then
          (block.handlers.find? fun on =>
            on.eventPath.dispatchName = eventName).map OnHandler.handler
        else none := by
  have rows : spec.rows = spec.states.flatMap fun block =>
      block.handlers.map fun on =>
        ((block.stateName, on.eventPath.dispatchName), on.handler) := by
    rw [FsmSpec.rows, ofKind_eq, List.map_flatMap]
    simp only [StateBlock.filterMap_on, List.map_map, Function.comp_def]
  rw [rows, lookup_flatMap]
  apply findSome?_congr_of_mem
  intro block _
  exact lookup_handlers block.handlers block.stateName stateName eventName

/-! ### The table as a `match` -/

/-- Every path compiles, and is spelled as its variant is declared. -/
structure Declared (spec : FsmSpec Ty Ex) (states : Patterns S)
    (events : Patterns E) : Prop where
  state : ∀ block ∈ spec.states, states.Declared block.statePath
  event : ∀ block ∈ spec.states, ∀ on ∈ block.handlers,
    events.Declared on.eventPath

section Matching

variable [StateVariant S] [EventVariant E] (meaning : Meaning S E C A Ex)
  (spec : FsmSpec Ty Ex) (states : Patterns S) (events : Patterns E)

/-- What the first block that matches the state, and has it, has. -/
def firstOf (held : StateBlock Ex → Option Value) (state : S) :
    Option Value :=
  spec.states.findSome? fun block =>
    if states.takes block.statePath state then held block else none

def rowFor (state : S) (event : E) : Option Ex :=
  spec.firstOf states
    (fun block => (block.handlers.find? fun on =>
      events.takes on.eventPath event).map OnHandler.handler)
    state

def matchedHook (held : StateBlock Ex → Option Ex) (state : S) :
    TimedMealy.Effect C FsmError (List A) :=
  match spec.firstOf states held state with
  | some handler => settle (meaning.hook handler state)
  | none => fun context => (.ok [], context)

/-- The table as a `match` on the state and the event. -/
def matching : Machine S E C A FsmError where
  react := fun state event =>
    match spec.rowFor states events state event with
    | some handler =>
        .move (settleTransition (meaning.transition handler state event))
    | none =>
        match spec.unhandled with
        | some handler =>
            .absorb (settle (meaning.unhandled handler state event))
        | none =>
            .refuse (.unhandledEvent
              (DataEnum.variantName (states.variantOf state))
              (DataEnum.variantName (events.variantOf event)))
  expire := fun state =>
    (spec.firstOf states StateBlock.timeout state).map fun timeout =>
      settleTransition (meaning.timeout timeout.handler state)
  leave := spec.matchedHook meaning states StateBlock.exit
  enter := spec.matchedHook meaning states StateBlock.entry
  delay := fun state =>
    (spec.firstOf states StateBlock.timeout state).map fun timeout =>
      meaning.duration timeout.duration

/-- Calls answered by that `match`, with deadlines that can be armed as long as
they are representable. -/
def matchedAnswer (here : Position S) (call : Call E C) :
    Response S C A Interruption × Position S :=
  (spec.matching meaning states events).guardedStep Instant.limit .returned
    .panicked here call.input

def matchedStart (now : Instant) : Position S :=
  Machine.start (spec.matching meaning states events)
    (meaning.state spec.initialExpr) now

variable {spec states events}
  (derivesState : states.Derives (StateVariant.variantName (S := S)))
  (derivesEvent : events.Derives (EventVariant.variantName (E := E)))
  (declared : spec.Declared states events)

omit [EventVariant E] in
include derivesState declared in
theorem firstOf_eq_findSome? (held : StateBlock Ex → Option Value)
    (state : S) :
    spec.firstOf states held state =
      spec.states.findSome? fun block =>
        if block.stateName = StateVariant.variantName state then held block
        else none := by
  apply findSome?_congr_of_mem
  intro block member
  have hit := Patterns.dispatchName_eq_iff derivesState
    (declared.state block member) state
  by_cases taken : states.takes block.statePath state
  · have named : block.stateName = StateVariant.variantName state :=
      hit.mpr taken
    rw [if_pos taken, if_pos named]
  · have other : block.stateName ≠ StateVariant.variantName state :=
      fun named => taken (hit.mp named)
    rw [if_neg taken, if_neg other]

include derivesState derivesEvent declared in
/-- Comparing names comes to matching patterns. -/
theorem reading_eq_matching :
    spec.reading meaning = spec.matching meaning states events := by
  have rows (state : S) (event : E) :
      spec.rows.lookup
          (StateVariant.variantName state, EventVariant.variantName event) =
        spec.rowFor states events state event := by
    rw [rowFor, firstOf_eq_findSome? derivesState declared, lookup_rows]
    apply findSome?_congr_of_mem
    intro block member
    have found : (block.handlers.find? fun on =>
          on.eventPath.dispatchName = EventVariant.variantName event) =
        block.handlers.find? fun on => events.takes on.eventPath event := by
      apply List.find?_congr
      intro on onMember
      have hit := Patterns.dispatchName_eq_iff derivesEvent
        (declared.event block member on onMember) event
      rw [Bool.eq_iff_iff, decide_eq_true_eq]
      exact hit
    rw [found]
  have timeouts (state : S) :
      spec.timeoutOf state = spec.firstOf states StateBlock.timeout state := by
    rw [firstOf_eq_findSome? derivesState declared, timeoutOf,
      lookup_ofKind StateBlock.filterMap_timeout]
  have hooks {kind : Clause Ex → Option Ex} {held : StateBlock Ex → Option Ex}
      (kept : ∀ block : StateBlock Ex,
        block.clauses.filterMap kind = (held block).toList) :
      spec.hookOf meaning kind = spec.matchedHook meaning states held := by
    funext state
    have same : (spec.ofKind kind).lookup (StateVariant.variantName state) =
        spec.firstOf states held state := by
      rw [firstOf_eq_findSome? derivesState declared, lookup_ofKind kept]
    cases found : spec.firstOf states held state with
    | none => simp only [hookOf, matchedHook, same, found]
    | some handler => simp only [hookOf, matchedHook, same, found]
  apply Machine.ext
  · funext state event
    cases found : spec.rowFor states events state event with
    | some handler => simp only [reading, matching, rows, found]
    | none =>
        cases absorbs : spec.unhandled with
        | some handler => simp only [reading, matching, rows, found, absorbs]
        | none =>
            simp only [reading, matching, rows, found, absorbs,
              derivesState state, derivesEvent event]
  · funext state
    simp only [reading, matching, timeouts]
  · exact hooks StateBlock.filterMap_exit
  · exact hooks StateBlock.filterMap_entry
  · funext state
    simp only [reading, matching, timeouts]

end Matching

/-- The machine a table builds answers every run as the `match` it looks like,
and one is built unless the deadline it starts with overflows. -/
theorem expansion_matches [StateVariant S] [EventVariant E]
    (spec : FsmSpec Ty Ex) (meaning : Meaning S E C A Ex) (now : Instant)
    (states : Patterns S) (events : Patterns E)
    (derivesState : states.Derives StateVariant.variantName)
    (derivesEvent : events.Derives EventVariant.variantName)
    (declared : spec.Declared states events)
    (wellFormed : spec.WellFormed
      (StateVariant.variantName (meaning.state spec.initialExpr))) :
    ((∃ machine : StateMachine S E C A,
        (expandFsmSpec spec).build meaning now = some (.ok machine)) ↔
      (spec.matchedStart meaning states events now).Fits Instant.limit) ∧
    ∀ machine : StateMachine S E C A,
      (expandFsmSpec spec).build meaning now = some (.ok machine) →
        ∀ calls : List (Call E C),
          Trajectory.outputs Checked.respond machine calls =
            Trajectory.outputs (spec.matchedAnswer meaning states events)
              (spec.matchedStart meaning states events now) calls := by
  have same := reading_eq_matching meaning derivesState derivesEvent declared
  constructor
  · rw [wellFormed.exists_build_iff now,
      ← wellFormed.start_fits_iff (E := E) (C := C) (A := A) now,
      start, matchedStart, same]
  · intro machine built calls
    rw [wellFormed.checked_outputs_eq built]
    unfold checkedAnswer start
    rw [same]
    rfl

end FsmSpec

namespace Door

theorem farewell_declared :
    (spec none (some (word "greet"))).placed.Declared statePatterns
      eventPatterns := by
  constructor
  · intro block member
    rcases List.mem_cons.mp member with rfl | member
    · exact ⟨_, rfl, rfl⟩
    rcases List.mem_cons.mp member with rfl | member
    · exact ⟨_, rfl, rfl⟩
    cases List.mem_singleton.mp member
    exact ⟨_, rfl, rfl⟩
  · intro block member on onMember
    rcases List.mem_cons.mp member with rfl | member
    · cases List.mem_singleton.mp onMember
      exact ⟨_, rfl, rfl⟩
    rcases List.mem_cons.mp member with rfl | member
    · cases onMember
    cases List.mem_singleton.mp member
    cases onMember

theorem farewell_matches :
    let table := (spec none (some (word "greet"))).placed
    ((∃ machine : StateMachine DoorState DoorEvent DoorContext DoorAction,
        (expandFsmSpec table).build meaning 0 = some (.ok machine)) ↔
      (table.matchedStart meaning statePatterns eventPatterns 0).Fits
        Instant.limit) ∧
    ∀ machine : StateMachine DoorState DoorEvent DoorContext DoorAction,
      (expandFsmSpec table).build meaning 0 = some (.ok machine) →
        ∀ calls : List (Call DoorEvent DoorContext),
          Trajectory.outputs Checked.respond machine calls =
            Trajectory.outputs
              (table.matchedAnswer meaning statePatterns eventPatterns)
              (table.matchedStart meaning statePatterns eventPatterns 0)
              calls :=
  FsmSpec.expansion_matches _ meaning 0 statePatterns eventPatterns
    statePatterns_derives (fun event => by cases event <;> rfl)
    farewell_declared farewell_wellFormed

end Door

end ObzenflowFsm
