import ObzenflowFsm.Builder.Registration
import ObzenflowFsm.Machine.Checked

namespace ObzenflowFsm

open Registry

variable {S E C A : Type}

def Registrations.Serves (registrations : Registrations S E C A)
    (stateName : String) : Prop :=
  stateName ∈ registrations.rows.map (·.key.1) ∨
    stateName ∈ registrations.timeouts.map Prod.fst

instance (registrations : Registrations S E C A) (stateName : String) :
    Decidable (registrations.Serves stateName) :=
  inferInstanceAs (Decidable (_ ∨ _))

def Registrations.firstRecorded (registrations : Registrations S E C A) :
    Option (String × String) :=
  (registrations.repeats.filter (·.via = .when)).head?.map Row.key

def Registrations.firstRepeated (registrations : Registrations S E C A) :
    Option (String × String) :=
  registrations.repeats.head?.map Row.key

theorem Registrations.firstRepeated_eq_some_iff
    (registrations : Registrations S E C A) (key : String × String) :
    registrations.firstRepeated = some key ↔
      FirstRepeat (registrations.rows.map Row.key) key :=
  (firstRepeat_iff_head?_repeats Row.key registrations.rows key).symm

theorem Registrations.repeats_eq_nil
    {registrations : Registrations S E C A}
    (distinct : (registrations.rows.map Row.key).Nodup) :
    registrations.repeats = [] :=
  (repeats_eq_nil_iff Row.key registrations.rows).mpr distinct

theorem Registrations.firstRecorded_eq_none
    {registrations : Registrations S E C A}
    (distinct : (registrations.rows.map Row.key).Nodup) :
    registrations.firstRecorded = none := by
  rw [firstRecorded, repeats_eq_nil distinct]
  rfl

structure Tables.Hold (tables : Tables S E C A)
    (registrations : Registrations S E C A) : Prop where
  transitions :
    Tracks tables.transitions (registrations.rows.map Row.entry)
  timeouts : Tracks tables.timeoutHandlers registrations.timeouts
  entries : Tracks tables.entryHandlers registrations.entries
  exits : Tracks tables.exitHandlers registrations.exits
  unhandled : tables.unhandledHandler = registrations.unhandled

def idleInitialMessage (stateName : String) : String :=
  "No transitions or timeout configured for initial state '" ++ stateName ++
    "'"

theorem FsmBuilder.Holds.serves_iff {builder : FsmBuilder S E C A}
    {registrations : Registrations S E C A}
    (holds : builder.Holds registrations) (stateName : String) :
    (!(builder.transitions.keys.any fun key => key.1 == stateName) &&
        !decide (stateName ∈ builder.timeoutHandlers)) = false ↔
      registrations.Serves stateName := by
  have transition :
      (builder.transitions.keys.any fun key => key.1 == stateName) = true ↔
        stateName ∈ registrations.rows.map (·.key.1) := by
    rw [List.any_eq_true, List.mem_map]
    constructor
    · intro found
      obtain ⟨key, member, named⟩ := found
      obtain ⟨row, rowMember, rfl⟩ := List.mem_map.mp
        ((holds.mem_transitions_iff key).mp (AList.mem_keys.mp member))
      exact ⟨row, rowMember, eq_of_beq named⟩
    · intro found
      obtain ⟨row, member, rfl⟩ := found
      have keyMember := (holds.mem_transitions_iff row.key).mpr
        (List.mem_map_of_mem member)
      exact ⟨row.key, AList.mem_keys.mpr keyMember, beq_self_eq_true _⟩
  unfold Registrations.Serves
  rw [← transition, ← holds.timeouts.mem_iff]
  simp only [Bool.and_eq_false_iff, Bool.not_eq_false', decide_eq_true_iff]

section Verdict

variable [StateVariant S]

theorem FsmBuilder.Holds.tryBuild_eq {builder : FsmBuilder S E C A}
    {registrations : Registrations S E C A}
    (holds : builder.Holds registrations) (now : Instant) :
    builder.tryBuild now =
      match registrations.firstRecorded with
      | some (state, event) => .error (.duplicateHandler state event)
      | none =>
          if registrations.Serves
              (StateVariant.variantName builder.initialState) then
            .ok (builder.machine now)
          else
            .error (.builderError (idleInitialMessage
              (StateVariant.variantName builder.initialState))) := by
  have recorded :
      builder.duplicateHandlers.head? = registrations.firstRecorded := by
    rw [holds.duplicates, List.head?_map]
    rfl
  unfold FsmBuilder.tryBuild
  rw [recorded, holds.strict]
  cases registrations.firstRecorded with
  | some key => rfl
  | none =>
      have served := holds.serves_iff
        (StateVariant.variantName builder.initialState)
      by_cases serves : registrations.Serves
          (StateVariant.variantName builder.initialState)
      · simp only [served.mpr serves, if_pos serves]
        rfl
      · have idle := eq_true_of_ne_false fun free => serves (served.mp free)
        simp only [idle, if_neg serves]
        rfl

theorem FsmBuilder.tables_machine (builder : FsmBuilder S E C A)
    (now : Instant) :
    (builder.machine now).toTables =
      { transitions := builder.transitions
        entryHandlers := builder.entryHandlers
        exitHandlers := builder.exitHandlers
        timeoutHandlers := builder.timeoutHandlers
        unhandledHandler := builder.unhandledHandler } := by
  simp only [FsmBuilder.machine, StateMachine.new]
  cases builder.timeoutHandlers.lookup
      (StateVariant.variantName builder.initialState) with
  | none => rfl
  | some timeout => rfl

theorem FsmBuilder.Holds.hold_machine {builder : FsmBuilder S E C A}
    {registrations : Registrations S E C A}
    (holds : builder.Holds registrations) (now : Instant) :
    (builder.machine now).toTables.Hold registrations := by
  rw [builder.tables_machine now]
  exact {
    transitions := holds.transitions
    timeouts := holds.timeouts
    entries := holds.entries
    exits := holds.exits
    unhandled := holds.unhandled }

variable (chain : Chain S E C A .fsm) (now : Instant)

theorem Chain.tryBuild_eq :
    chain.eval.tryBuild now =
      match chain.registrations.firstRecorded with
      | some (state, event) => .error (.duplicateHandler state event)
      | none =>
          if chain.registrations.Serves
              (StateVariant.variantName chain.initialState) then
            .ok (chain.eval.machine now)
          else
            .error (.builderError (idleInitialMessage
              (StateVariant.variantName chain.initialState))) := by
  rw [← chain.initialState_eval]
  exact chain.holds_eval.tryBuild_eq now

structure Chain.Accepted (chain : Chain S E C A .fsm) (now : Instant)
    (machine : StateMachine S E C A) : Prop where
  unrecorded : chain.registrations.firstRecorded = none
  serves : chain.registrations.Serves
    (StateVariant.variantName chain.initialState)
  constructed : machine = chain.eval.machine now

theorem Chain.accepted_iff {machine : StateMachine S E C A} :
    chain.eval.tryBuild now = .ok machine ↔
      chain.Accepted now machine := by
  rw [chain.tryBuild_eq now]
  constructor
  · intro built
    split at built
    · cases built
    · rename_i unrecorded
      split at built
      · rename_i serves
        cases built
        exact ⟨unrecorded, serves, rfl⟩
      · cases built
  · intro accepted
    rw [accepted.unrecorded, accepted.constructed]
    exact if_pos accepted.serves

theorem Chain.hold_of_built {now : Instant} {machine : StateMachine S E C A}
    (built : chain.eval.tryBuild now = .ok machine) :
    machine.toTables.Hold chain.registrations := by
  rw [((chain.accepted_iff now).mp built).constructed]
  exact chain.holds_eval.hold_machine now

/-! ### The build with the addition that can panic -/

/-- No repeat is recorded, and the deadline of the initial state is not
representable. -/
def Chain.InitialOverflows : Prop :=
  chain.registrations.firstRecorded = none ∧
    ∃ timeout,
      latest chain.registrations.timeouts
          (StateVariant.variantName chain.initialState) = some timeout ∧
        ¬ Instant.Representable (now + timeout.1)

theorem Chain.tryBuild_panics_iff :
    Checked.tryBuild chain.eval now = .error .panicked ↔
      chain.InitialOverflows now := by
  have timeouts := chain.holds_eval.timeouts
    (StateVariant.variantName chain.initialState)
  have named : chain.eval.initialState = chain.initialState :=
    chain.initialState_eval
  rw [Checked.tryBuild_eq, chain.tryBuild_eq, InitialOverflows]
  cases chain.registrations.firstRecorded with
  | some key => simp
  | none =>
      by_cases serves : chain.registrations.Serves
          (StateVariant.variantName chain.initialState)
      · simp only [if_pos serves, Checked.new_panics_iff, named, true_and]
        rw [← timeouts]
        rfl
      · simp only [if_neg serves, true_and]
        constructor
        · intro panicked
          cases panicked
        · intro overflows
          obtain ⟨timeout, found, _⟩ := overflows
          exact absurd (.inr (List.mem_map_of_mem (f := Prod.fst)
            (mem_of_latest found))) serves

/-- Unless it panics, the build is that of the unchecked machine. -/
theorem Chain.tryBuild_of_fits
    (fits : ¬ chain.InitialOverflows now) :
    Checked.tryBuild chain.eval now =
      (chain.eval.tryBuild now).mapError .returned := by
  have returns := mt (chain.tryBuild_panics_iff now).mp fits
  rw [Checked.tryBuild_eq] at returns ⊢
  cases built : chain.eval.tryBuild now with
  | error error => rfl
  | ok machine =>
      rw [built] at returns
      simp only at returns ⊢
      rw [Checked.new_of_not_panicked returns,
        ((chain.accepted_iff now).mp built).constructed]
      rfl

theorem Chain.checked_built_iff {machine : StateMachine S E C A} :
    Checked.tryBuild chain.eval now = .ok machine ↔
      chain.eval.tryBuild now = .ok machine ∧
        ¬ chain.InitialOverflows now := by
  by_cases overflows : chain.InitialOverflows now
  · rw [(chain.tryBuild_panics_iff now).mpr overflows]
    simp [overflows]
  · rw [chain.tryBuild_of_fits now overflows]
    cases chain.eval.tryBuild now with
    | ok other => simp [Except.mapError, overflows]
    | error error => simp [Except.mapError]

/-! ### The verdict the builder is meant to give -/

/-- The first repeated pair, if any, is the one reported; otherwise an initial
state with nothing to do is; otherwise the build succeeds. -/
structure Chain.ExactVerdict : Prop where
  duplicate : ∀ state event,
    Checked.tryBuild chain.eval now =
        .error (.returned (.duplicateHandler state event)) ↔
      FirstRepeat (chain.registrations.rows.map Row.key) (state, event)
  idle : (chain.registrations.rows.map Row.key).Nodup →
    ((∃ message, Checked.tryBuild chain.eval now =
        .error (.returned (.builderError message))) ↔
      ¬ chain.registrations.Serves
        (StateVariant.variantName chain.initialState))
  built : (chain.registrations.rows.map Row.key).Nodup →
    ((∃ machine, Checked.tryBuild chain.eval now = .ok machine) ↔
      chain.registrations.Serves
        (StateVariant.variantName chain.initialState))

/-- The first repeat of a pair was made through `WhenBuilder::on`, or an equal
one was before any other was. -/
def Registrations.FirstRepeatRecorded (registrations : Registrations S E C A) :
    Prop :=
  registrations.firstRecorded = registrations.firstRepeated

theorem Chain.tryBuild_of_unrecorded
    (unrecorded : chain.registrations.firstRecorded = none) :
    chain.eval.tryBuild now =
      if chain.registrations.Serves
          (StateVariant.variantName chain.initialState) then
        .ok (chain.eval.machine now)
      else
        .error (.builderError (idleInitialMessage
          (StateVariant.variantName chain.initialState))) := by
  rw [chain.tryBuild_eq, unrecorded]

theorem Chain.ne_duplicate
    (unrecorded : chain.registrations.firstRecorded = none)
    (state event : String) :
    chain.eval.tryBuild now ≠ .error (.duplicateHandler state event) := by
  rw [chain.tryBuild_of_unrecorded now unrecorded]
  split
  · simp
  · simp

theorem Chain.exists_idle_iff
    (unrecorded : chain.registrations.firstRecorded = none) :
    (∃ message, chain.eval.tryBuild now = .error (.builderError message)) ↔
      ¬ chain.registrations.Serves
        (StateVariant.variantName chain.initialState) := by
  rw [chain.tryBuild_of_unrecorded now unrecorded]
  split
  · rename_i serves
    simp [serves]
  · rename_i idle
    simp [idle]

theorem Chain.exists_built_iff
    (unrecorded : chain.registrations.firstRecorded = none) :
    (∃ machine, chain.eval.tryBuild now = .ok machine) ↔
      chain.registrations.Serves
        (StateVariant.variantName chain.initialState) := by
  rw [chain.tryBuild_of_unrecorded now unrecorded]
  split
  · rename_i serves
    simp [serves]
  · rename_i idle
    simp [idle]

theorem Chain.serves_of_initialOverflows
    (overflows : chain.InitialOverflows now) :
    chain.registrations.Serves
      (StateVariant.variantName chain.initialState) := by
  obtain ⟨_, timeout, found, _⟩ := overflows
  exact .inr (List.mem_map_of_mem (f := Prod.fst) (mem_of_latest found))

/-- A verdict is owed, so a build that gives it does not panic. -/
theorem Chain.ExactVerdict.fits (exact : chain.ExactVerdict now) :
    ¬ chain.InitialOverflows now := by
  intro overflows
  have panicked := (chain.tryBuild_panics_iff now).mpr overflows
  cases repeated : chain.registrations.firstRepeated with
  | none =>
      have empty : chain.registrations.repeats = [] := by
        simpa [Registrations.firstRepeated] using repeated
      have distinct :=
        (repeats_eq_nil_iff Row.key chain.registrations.rows).mp empty
      obtain ⟨machine, built⟩ := (exact.built distinct).mpr
        (chain.serves_of_initialOverflows now overflows)
      rw [panicked] at built
      cases built
  | some key =>
      have reported := (exact.duplicate key.1 key.2).mpr
        ((chain.registrations.firstRepeated_eq_some_iff key).mp repeated)
      rw [panicked] at reported
      cases reported

theorem Chain.checked_error_iff (fits : ¬ chain.InitialOverflows now)
    (error : FsmError) :
    Checked.tryBuild chain.eval now = .error (.returned error) ↔
      chain.eval.tryBuild now = .error error := by
  rw [chain.tryBuild_of_fits now fits]
  cases chain.eval.tryBuild now with
  | ok machine => simp [Except.mapError]
  | error other => simp [Except.mapError]

theorem Chain.exactVerdict_of_firstRepeatRecorded
    (recorded : chain.registrations.FirstRepeatRecorded)
    (fits : ¬ chain.InitialOverflows now) :
    chain.ExactVerdict now := by
  constructor
  case duplicate =>
    intro state event
    rw [chain.checked_error_iff now fits,
      ← chain.registrations.firstRepeated_eq_some_iff, ← recorded]
    cases first : chain.registrations.firstRecorded with
    | some key => simp [chain.tryBuild_eq, first, Prod.ext_iff]
    | none => simp [chain.ne_duplicate now first]
  case idle =>
    intro distinct
    simp only [chain.checked_error_iff now fits]
    exact chain.exists_idle_iff now
      (Registrations.firstRecorded_eq_none distinct)
  case built =>
    intro distinct
    simp only [chain.checked_built_iff now, fits, not_false_eq_true, and_true]
    exact chain.exists_built_iff now
      (Registrations.firstRecorded_eq_none distinct)

/-- The build gives the exact verdict for exactly these chains: a repeat made
through `TimeoutBuilder::on` alone is not recorded, and an initial deadline
that is not representable is no verdict at all. -/
theorem Chain.exactVerdict_iff :
    chain.ExactVerdict now ↔
      chain.registrations.FirstRepeatRecorded ∧
        ¬ chain.InitialOverflows now := by
  constructor
  · intro exact
    have fits := exact.fits
    refine ⟨?_, fits⟩
    unfold Registrations.FirstRepeatRecorded
    cases repeated : chain.registrations.firstRepeated with
    | none =>
        have empty : chain.registrations.repeats = [] := by
          simpa [Registrations.firstRepeated] using repeated
        rw [Registrations.firstRecorded, empty]
        rfl
    | some key =>
        have reported := (chain.checked_error_iff now fits _).mp
          ((exact.duplicate key.1 key.2).mpr
            ((chain.registrations.firstRepeated_eq_some_iff key).mp repeated))
        cases recorded : chain.registrations.firstRecorded with
        | some first =>
            rw [chain.tryBuild_eq, recorded] at reported
            simpa [Prod.ext_iff] using reported
        | none =>
            exact absurd reported (chain.ne_duplicate now recorded _ _)
  · intro exact
    exact chain.exactVerdict_of_firstRepeatRecorded now exact.1 exact.2

end Verdict

namespace Door

theorem repeatedChain_not_exactVerdict : ¬ repeatedChain.ExactVerdict 0 := by
  intro exact
  have repeated : FirstRepeat (repeatedChain.registrations.rows.map Row.key)
      ("Closed", "Open") :=
    ⟨[("Closed", "Open")], [], rfl, List.nodup_singleton _,
      List.mem_singleton_self _⟩
  have rejected := (exact.duplicate "Closed" "Open").mpr repeated
  cases rejected

end Door

end ObzenflowFsm
