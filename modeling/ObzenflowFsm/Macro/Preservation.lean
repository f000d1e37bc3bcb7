import ObzenflowFsm.Machine.Refinement
import ObzenflowFsm.Macro.Clauses

namespace ObzenflowFsm

open Registry TimedMealy

variable {Ty Ex S E C A : Type}

/-! Tables read as timed Mealy machines, and the machines they build. -/

namespace FsmSpec

def rows (spec : FsmSpec Ty Ex) : List ((String × String) × Ex) :=
  (spec.ofKind Clause.asOn).map fun row =>
    ((row.1, row.2.eventPath.dispatchName), row.2.handler)

/-- No name has two clauses of a kind, and the initial state has something to
do. -/
structure WellFormed (spec : FsmSpec Ty Ex) (initialName : String) :
    Prop where
  rows : (spec.rows.map Prod.fst).Nodup
  timeouts : ((spec.ofKind Clause.asTimeout).map Prod.fst).Nodup
  entries : ((spec.ofKind Clause.asEntry).map Prod.fst).Nodup
  exits : ((spec.ofKind Clause.asExit).map Prod.fst).Nodup
  starts : initialName ∈ spec.rows.map (·.1.1) ∨
    initialName ∈ (spec.ofKind Clause.asTimeout).map Prod.fst

section Reading

variable [StateVariant S] [EventVariant E] (meaning : Meaning S E C A Ex)
  (spec : FsmSpec Ty Ex)

def hookOf (kind : Clause Ex → Option Ex) (state : S) :
    TimedMealy.Effect C FsmError (List A) :=
  match (spec.ofKind kind).lookup (StateVariant.variantName state) with
  | some handler => settle (meaning.hook handler state)
  | none => fun context => (.ok [], context)

def timeoutOf (state : S) : Option (TimeoutSpec Ex) :=
  (spec.ofKind Clause.asTimeout).lookup (StateVariant.variantName state)

/-- A table as it reads: the row of the state's variant and the event, else the
unhandled clause, else a refusal; that variant's hooks and timeout. -/
def reading : Machine S E C A FsmError where
  react := fun state event =>
    let stateName := StateVariant.variantName state
    let eventName := EventVariant.variantName event
    match spec.rows.lookup (stateName, eventName) with
    | some handler =>
        .move (settleTransition (meaning.transition handler state event))
    | none =>
        match spec.unhandled with
        | some handler =>
            .absorb (settle (meaning.unhandled handler state event))
        | none => .refuse (.unhandledEvent stateName eventName)
  expire := fun state => (spec.timeoutOf state).map fun timeout =>
    settleTransition (meaning.timeout timeout.handler state)
  leave := spec.hookOf meaning Clause.asExit
  enter := spec.hookOf meaning Clause.asEntry
  delay := fun state => (spec.timeoutOf state).map fun timeout =>
    meaning.duration timeout.duration

def answer (here : Position S) (call : Call E C) :
    Response S C A FsmError × Position S :=
  (spec.reading meaning).step here call.input

/-- The reading, with deadlines that can be armed as long as they are
representable. -/
def checkedAnswer (here : Position S) (call : Call E C) :
    Response S C A Interruption × Position S :=
  (spec.reading meaning).guardedStep Instant.limit .returned .panicked here
    call.input

def start (now : Instant) : Position S :=
  Machine.start (spec.reading (E := E) meaning)
    (meaning.state spec.initialExpr) now

end Reading

theorem timeouts_eq_ofKind (spec : FsmSpec Ty Ex) :
    spec.timeouts = spec.ofKind Clause.asTimeout := by
  simp only [timeouts, ofKind_eq, StateBlock.filterMap_timeout]

/-! ### The reading and the registrations -/

section Registered

variable (meaning : Meaning S E C A Ex) {spec : FsmSpec Ty Ex}
  {initialName : String}

theorem entries_eq_rows (spec : FsmSpec Ty Ex) :
    (spec.registrations meaning).rows.map Row.entry =
      spec.rows.map fun row => (row.1, meaning.transition row.2) := by
  rw [registrations_rows, rows, List.map_map]
  rfl

theorem keys_eq_rows (spec : FsmSpec Ty Ex) :
    (spec.registrations meaning).rows.map Row.key =
      spec.rows.map Prod.fst := by
  have entries := congrArg (List.map Prod.fst) (spec.entries_eq_rows meaning)
  rw [List.map_map, List.map_map] at entries
  exact entries

/-- No row is under the wildcard's name: no identifier is spelled so. -/
theorem lookup_wildcard (spec : FsmSpec Ty Ex) (eventName : String) :
    spec.rows.lookup ("_", eventName) = none := by
  rw [List.lookup_eq_none_iff]
  intro row member
  obtain ⟨⟨name, on⟩, onMember, rfl⟩ := List.mem_map.mp member
  obtain ⟨clause, clauseMember, _⟩ := mem_ofKind_iff.mp onMember
  obtain ⟨block, _, blockMember⟩ := List.mem_flatMap.mp clauseMember
  obtain ⟨_, _, same⟩ := List.mem_map.mp blockMember
  cases same
  rw [bne_iff_ne]
  intro wildcard
  exact block.statePath.last.toString_ne_wildcard
    (congrArg Prod.fst wildcard).symm

namespace WellFormed

variable (wellFormed : spec.WellFormed initialName)

include wellFormed in
theorem latest_rows (key : String × String) :
    latest ((spec.registrations meaning).rows.map Row.entry) key =
      (spec.rows.lookup key).map meaning.transition := by
  rw [entries_eq_rows]
  exact latest_map wellFormed.rows meaning.transition key

include wellFormed in
theorem latest_timeouts (name : String) :
    latest (spec.registrations meaning).timeouts name =
      ((spec.ofKind Clause.asTimeout).lookup name).map fun timeout =>
        (meaning.duration timeout.duration,
          meaning.timeout timeout.handler) := by
  rw [registrations_timeouts]
  exact latest_map wellFormed.timeouts
    (fun timeout => (meaning.duration timeout.duration,
      meaning.timeout timeout.handler)) name

include wellFormed in
theorem latest_entries (name : String) :
    latest (spec.registrations meaning).entries name =
      ((spec.ofKind Clause.asEntry).lookup name).map meaning.hook := by
  rw [registrations_entries]
  exact latest_map wellFormed.entries meaning.hook name

include wellFormed in
theorem latest_exits (name : String) :
    latest (spec.registrations meaning).exits name =
      ((spec.ofKind Clause.asExit).lookup name).map meaning.hook := by
  rw [registrations_exits]
  exact latest_map wellFormed.exits meaning.hook name

include wellFormed in
theorem unrecorded :
    (spec.registrations meaning).firstRecorded = none := by
  have distinct : ((spec.registrations meaning).rows.map Row.key).Nodup := by
    rw [keys_eq_rows]
    exact wellFormed.rows
  rw [Registrations.firstRecorded, Registrations.repeats_eq_nil distinct]
  rfl

include wellFormed in
theorem serves : (spec.registrations meaning).Serves initialName := by
  have names := congrArg (List.map Prod.fst) (spec.keys_eq_rows meaning)
  rw [List.map_map, List.map_map] at names
  refine wellFormed.starts.imp (fun row => ?_) fun timeout => ?_
  · exact names ▸ row
  · rw [registrations_timeouts, List.map_map]
    exact timeout

variable [StateVariant S] [EventVariant E]

include wellFormed in
/-- What a well-formed table registers describes what the table reads as. -/
theorem reference_eq_reading :
    (spec.registrations meaning).reference = spec.reading meaning := by
  apply Machine.ext
  · funext state event
    simp only [Registrations.reference, Registrations.react, reading,
      wellFormed.latest_rows, lookup_wildcard]
    cases spec.rows.lookup (StateVariant.variantName state,
        EventVariant.variantName event) with
    | some handler => rfl
    | none =>
        cases unhandled : spec.unhandled with
        | some handler => simp [registrations, unhandled]
        | none => simp [registrations, unhandled]
  · funext state
    simp only [Registrations.reference, reading, timeoutOf,
      wellFormed.latest_timeouts, Option.map_map]
    rfl
  · funext state
    simp only [Registrations.reference, reading, settleHook, hookOf,
      wellFormed.latest_exits]
    cases (spec.ofKind Clause.asExit).lookup
        (StateVariant.variantName state) with
    | some handler => rfl
    | none => rfl
  · funext state
    simp only [Registrations.reference, reading, settleHook, hookOf,
      wellFormed.latest_entries]
    cases (spec.ofKind Clause.asEntry).lookup
        (StateVariant.variantName state) with
    | some handler => rfl
    | none => rfl
  · funext state
    simp only [Registrations.reference, reading, timeoutOf,
      wellFormed.latest_timeouts, Option.map_map]
    rfl

end WellFormed

end Registered

/-! ### Whole runs -/

section Runs

variable [StateVariant S] [EventVariant E] {meaning : Meaning S E C A Ex}
  {spec : FsmSpec Ty Ex} {now : Instant} {machine : StateMachine S E C A}

theorem position_of_build
    (built : (expandFsmSpec spec).build meaning now = some (.ok machine)) :
    machine.position = (spec.registrations meaning).reference.start
      (meaning.state spec.initialExpr) now := by
  obtain ⟨chain, accepted, registered, initial⟩ := chain_of_build meaning built
  rw [← registered, ← initial]
  exact Chain.position_of_built ((chain.checked_built_iff now).mp accepted).1

theorem fits_of_build
    (built : (expandFsmSpec spec).build meaning now = some (.ok machine)) :
    machine.position.Fits Instant.limit := by
  obtain ⟨chain, accepted, _⟩ := chain_of_build meaning built
  exact Chain.fits_of_built accepted

/-- Deadlines fit that stay representable with every duration of the table. -/
theorem run_fits
    (built : (expandFsmSpec spec).build meaning now = some (.ok machine))
    {calls : List (Call E C)}
    (short : ∀ call ∈ calls, ∀ named ∈ spec.timeouts,
      Instant.Representable
        (call.armed + meaning.duration named.2.duration)) :
    ∀ visit ∈ Trajectory.visits Checked.respond machine calls,
      ¬ visit.1.Overflows visit.2 := by
  obtain ⟨chain, accepted, registered, _⟩ := chain_of_build meaning built
  refine Chain.run_fits ((chain.checked_built_iff now).mp accepted).1 ?_
  intro call member timeout timeoutMember
  rw [registered, registrations_timeouts] at timeoutMember
  obtain ⟨named, namedMember, rfl⟩ := List.mem_map.mp timeoutMember
  rw [← timeouts_eq_ofKind] at namedMember
  exact short call member named namedMember

/-- On a run the machine behaves as the table reads: it answers alike, and no
wildcard row is fired. -/
structure BehavesAsRead (spec : FsmSpec Ty Ex) (meaning : Meaning S E C A Ex)
    (now : Instant) (machine : StateMachine S E C A)
    (calls : List (Call E C)) : Prop where
  answers : Trajectory.outputs Checked.respond machine calls =
    (Trajectory.outputs (spec.answer meaning)
      (spec.start (E := E) meaning now) calls).map
        (Response.mapError .returned)
  named : ∀ visit ∈ Trajectory.visits Checked.respond machine calls,
    ∀ key handler state event given left error,
      .invoked (.trigger (.transition key handler state event)) given left
          error ∈ (Checked.perform visit.1 visit.2).state.trace →
        key.1 ≠ "_"

theorem WellFormed.answer_eq
    (wellFormed : spec.WellFormed
      (StateVariant.variantName (meaning.state spec.initialExpr))) :
    (spec.registrations meaning).answer = spec.answer (E := E) meaning := by
  funext here call
  rw [Registrations.answer, answer, wellFormed.reference_eq_reading]

theorem WellFormed.outputs_eq
    (wellFormed : spec.WellFormed
      (StateVariant.variantName (meaning.state spec.initialExpr)))
    (built : (expandFsmSpec spec).build meaning now = some (.ok machine))
    (calls : List (Call E C)) :
    Trajectory.outputs StateMachine.respond machine calls =
      Trajectory.outputs (spec.answer meaning)
        (spec.start (E := E) meaning now) calls := by
  rw [(hold_of_build meaning built).outputs_eq calls, wellFormed.answer_eq,
    position_of_build built, wellFormed.reference_eq_reading]
  rfl

/-- With the addition that can panic, every run is answered as the table reads
with deadlines that must be representable. -/
theorem WellFormed.checked_outputs_eq
    (wellFormed : spec.WellFormed
      (StateVariant.variantName (meaning.state spec.initialExpr)))
    (built : (expandFsmSpec spec).build meaning now = some (.ok machine))
    (calls : List (Call E C)) :
    Trajectory.outputs Checked.respond machine calls =
      Trajectory.outputs (spec.checkedAnswer meaning)
        (spec.start (E := E) meaning now) calls := by
  have answers : (spec.registrations meaning).checkedAnswer =
      spec.checkedAnswer (E := E) meaning := by
    funext here call
    rw [Registrations.checkedAnswer, checkedAnswer,
      wellFormed.reference_eq_reading]
  rw [(hold_of_build meaning built).checked_outputs_eq (fits_of_build built)
    calls, answers, position_of_build built, wellFormed.reference_eq_reading]
  rfl

theorem WellFormed.named
    (wellFormed : spec.WellFormed
      (StateVariant.variantName (meaning.state spec.initialExpr)))
    (built : (expandFsmSpec spec).build meaning now = some (.ok machine))
    (calls : List (Call E C)) :
    ∀ visit ∈ Trajectory.visits Checked.respond machine calls,
      ∀ key handler state event given left error,
        .invoked (.trigger (.transition key handler state event)) given left
            error ∈ (Checked.perform visit.1 visit.2).state.trace →
          key.1 ≠ "_" := by
  intro ⟨reached, call⟩ visited key handler state event given left error
    invoked wildcard
  have holds := hold_of_build meaning built
  rw [← Checked.visits_toTables machine calls _ visited] at holds
  have sameTrace := (Checked.alike_perform reached call).trace
  rw [← Checked.mem_invocations_iff, sameTrace,
    Checked.mem_invocations_iff] at invoked
  cases StateMachine.dispatched_of_invoked invoked with
  | trigger selected =>
      cases call with
      | handle handled context armed =>
          obtain ⟨stateName, found, same, lookup, _⟩ :=
            StateMachine.selectEvent_fire selected
          cases same
          cases wildcard
          rw [holds.transitions, wellFormed.latest_rows, lookup_wildcard]
            at lookup
          cases lookup
      | checkTimeout context polled armed =>
          obtain ⟨_, _, _, same, _⟩ :=
            StateMachine.selectTimeout_fire selected
          cases same

theorem WellFormed.behavesAsRead_iff
    (wellFormed : spec.WellFormed
      (StateVariant.variantName (meaning.state spec.initialExpr)))
    (built : (expandFsmSpec spec).build meaning now = some (.ok machine))
    (calls : List (Call E C)) :
    spec.BehavesAsRead meaning now machine calls ↔
      ∀ visit ∈ Trajectory.visits Checked.respond machine calls,
        ¬ visit.1.Overflows visit.2 := by
  rw [← Checked.outputs_eq_iff machine calls, wellFormed.outputs_eq built]
  constructor
  · intro behaves
    exact behaves.answers
  · intro answers
    exact ⟨answers, wellFormed.named built calls⟩

omit [EventVariant E] in
theorem WellFormed.exists_build_iff
    (wellFormed : spec.WellFormed
      (StateVariant.variantName (meaning.state spec.initialExpr)))
    (now : Instant) :
    (∃ machine : StateMachine S E C A,
        (expandFsmSpec spec).build meaning now = some (.ok machine)) ↔
      ¬ spec.InitialOverflows meaning now := by
  rw [spec.exists_build_iff meaning now]
  constructor
  · intro allowed
    exact allowed.2.2
  · intro fits
    exact ⟨wellFormed.unrecorded meaning, wellFormed.serves meaning, fits⟩

theorem WellFormed.start_fits_iff {initialName : String}
    (wellFormed : spec.WellFormed initialName) (now : Instant) :
    (spec.start (E := E) meaning now).Fits Instant.limit ↔
      ¬ spec.InitialOverflows meaning now := by
  have found : spec.timeoutOf (meaning.state spec.initialExpr) =
      latest spec.timeouts
        (StateVariant.variantName (meaning.state spec.initialExpr)) := by
    rw [timeouts_eq_ofKind, timeoutOf]
    exact (latest_eq_lookup wellFormed.timeouts _).symm
  simp [InitialOverflows, ← found, Position.Fits, start, Machine.start,
    reading, Instant.Representable]

end Runs

/-! ### Rearranged tables -/

/-- The same clauses for the same states: the blocks in another order, the
clauses of a block in another order, or a block in two. -/
inductive Rearranged : List (StateBlock Ex) → List (StateBlock Ex) → Prop
  | blocks (permuted : first.Perm second) : Rearranged first second
  | clauses (before after : List (StateBlock Ex)) (block other : StateBlock Ex)
      (named : other.statePath = block.statePath)
      (permuted : block.clauses.Perm other.clauses) :
      Rearranged (before ++ block :: after) (before ++ other :: after)
  | split (before after : List (StateBlock Ex))
      (block head tail : StateBlock Ex)
      (headNamed : head.statePath = block.statePath)
      (tailNamed : tail.statePath = block.statePath)
      (parts : block.clauses.Perm (head.clauses ++ tail.clauses)) :
      Rearranged (before ++ block :: after)
        (before ++ head :: tail :: after)
  | trans (head : Rearranged first second)
      (tail : Rearranged second third) : Rearranged first third

/-- A block with its clauses written in another order is accepted as well. -/
theorem Rearranged.of_perm (before after : List (StateBlock Ex))
    (path : ExprPath) {first second : List (Clause Ex)}
    {clauses : BlockClauses Ex} (permuted : first.Perm second)
    (assembled : BlockClauses.ofWritten first = some clauses) :
    ∃ other, BlockClauses.ofWritten second = some other ∧
      Rearranged (before ++ clauses.block path :: after)
        (before ++ other.block path :: after) := by
  have apart :=
    (BlockClauses.exists_ofWritten_iff first).mp ⟨clauses, assembled⟩
  obtain ⟨other, otherAssembled⟩ :=
    (BlockClauses.exists_ofWritten_iff second).mpr
      (apart.perm permuted fun free rivals => free rivals.symm)
  refine ⟨other, otherAssembled, .clauses _ _ _ _ rfl ?_⟩
  exact (BlockClauses.written_ofWritten assembled).trans
    (permuted.trans (BlockClauses.written_ofWritten otherAssembled).symm)

/-- So is a block that is written in two. -/
theorem Rearranged.of_append (before after : List (StateBlock Ex))
    (path : ExprPath) {first second : List (Clause Ex)}
    {clauses : BlockClauses Ex}
    (assembled : BlockClauses.ofWritten (first ++ second) = some clauses) :
    ∃ head tail, BlockClauses.ofWritten first = some head ∧
      BlockClauses.ofWritten second = some tail ∧
      Rearranged (before ++ clauses.block path :: after)
        (before ++ head.block path :: tail.block path :: after) := by
  have apart :=
    (BlockClauses.exists_ofWritten_iff _).mp ⟨clauses, assembled⟩
  obtain ⟨headApart, tailApart, _⟩ := List.pairwise_append.mp apart
  obtain ⟨head, headAssembled⟩ :=
    (BlockClauses.exists_ofWritten_iff first).mpr headApart
  obtain ⟨tail, tailAssembled⟩ :=
    (BlockClauses.exists_ofWritten_iff second).mpr tailApart
  refine ⟨head, tail, headAssembled, tailAssembled,
    .split _ _ _ _ _ rfl rfl ?_⟩
  exact (BlockClauses.written_ofWritten assembled).trans
    ((BlockClauses.written_ofWritten headAssembled).append
      (BlockClauses.written_ofWritten tailAssembled)).symm

theorem Rearranged.perm {first second : List (StateBlock Ex)}
    (rearranged : Rearranged first second) :
    (first.flatMap fun block => block.clauses.map (block.stateName, ·)).Perm
      (second.flatMap fun block =>
        block.clauses.map (block.stateName, ·)) := by
  induction rearranged with
  | blocks permuted => exact permuted.flatMap_right _
  | clauses before after block other named permuted =>
      have sameName : other.stateName = block.stateName :=
        congrArg ExprPath.dispatchName named
      simp only [List.flatMap_append, List.flatMap_cons, sameName]
      exact ((permuted.map _).append_right _).append_left _
  | split before after block head tail headNamed tailNamed parts =>
      have headName : head.stateName = block.stateName :=
        congrArg ExprPath.dispatchName headNamed
      have tailName : tail.stateName = block.stateName :=
        congrArg ExprPath.dispatchName tailNamed
      simp only [List.flatMap_append, List.flatMap_cons, headName, tailName]
      rw [← List.append_assoc (List.map _ head.clauses), ← List.map_append]
      exact ((parts.map _).append_right _).append_left _
  | trans head tail headPermuted tailPermuted =>
      exact headPermuted.trans tailPermuted

section Permutation

variable {spec other : FsmSpec Ty Ex}
  (permuted : spec.clauses.Perm other.clauses)

include permuted in
theorem ofKind_perm (kind : Clause Ex → Option Held) :
    (spec.ofKind kind).Perm (other.ofKind kind) :=
  permuted.filterMap _

include permuted in
theorem rows_perm : spec.rows.Perm other.rows :=
  (ofKind_perm permuted Clause.asOn).map _

include permuted in
theorem WellFormed.of_perm {initialName : String}
    (wellFormed : spec.WellFormed initialName) :
    other.WellFormed initialName where
  rows := ((rows_perm permuted).map _).nodup_iff.mp wellFormed.rows
  timeouts :=
    ((ofKind_perm permuted _).map _).nodup_iff.mp wellFormed.timeouts
  entries := ((ofKind_perm permuted _).map _).nodup_iff.mp wellFormed.entries
  exits := ((ofKind_perm permuted _).map _).nodup_iff.mp wellFormed.exits
  starts := wellFormed.starts.imp
    ((rows_perm permuted).map _).mem_iff.mp
    ((ofKind_perm permuted _).map _).mem_iff.mp

include permuted in
/-- What a well-formed table reads as depends on its clauses, not their order. -/
theorem WellFormed.reading_eq_of_perm [StateVariant S] [EventVariant E]
    {initialName : String} (wellFormed : spec.WellFormed initialName)
    (unhandled : spec.unhandled = other.unhandled)
    (meaning : Meaning S E C A Ex) :
    spec.reading meaning = other.reading meaning := by
  have rows := lookup_eq_of_perm (rows_perm permuted) wellFormed.rows
  have timeouts := lookup_eq_of_perm (ofKind_perm permuted Clause.asTimeout)
    wellFormed.timeouts
  have entries := lookup_eq_of_perm (ofKind_perm permuted Clause.asEntry)
    wellFormed.entries
  have exits := lookup_eq_of_perm (ofKind_perm permuted Clause.asExit)
    wellFormed.exits
  apply Machine.ext
  · funext state event
    simp only [reading, rows, unhandled]
  · funext state
    simp only [reading, timeoutOf, timeouts]
  · funext state
    simp only [reading, hookOf, exits]
  · funext state
    simp only [reading, hookOf, entries]
  · funext state
    simp only [reading, timeoutOf, timeouts]

end Permutation

section Rearranging

variable [StateVariant S] [EventVariant E] {meaning : Meaning S E C A Ex}
  {spec : FsmSpec Ty Ex} {now : Instant}

omit [EventVariant E] in
theorem WellFormed.initialOverflows_of_perm {other : FsmSpec Ty Ex}
    {initialName : String} (wellFormed : spec.WellFormed initialName)
    (permuted : spec.clauses.Perm other.clauses)
    (initial : other.initialExpr = spec.initialExpr)
    (overflows : other.InitialOverflows meaning now) :
    spec.InitialOverflows meaning now := by
  obtain ⟨timeout, found, large⟩ := overflows
  refine ⟨timeout, ?_, large⟩
  rw [timeouts_eq_ofKind] at found ⊢
  rw [latest_eq_of_perm (ofKind_perm permuted Clause.asTimeout)
    wellFormed.timeouts, ← initial]
  exact found

/-- A rearranged table builds when the table does, and all its runs are the
same, those that panic included. -/
theorem WellFormed.rearranged
    (wellFormed : spec.WellFormed
      (StateVariant.variantName (meaning.state spec.initialExpr)))
    {machine : StateMachine S E C A}
    (built : (expandFsmSpec spec).build meaning now = some (.ok machine))
    {states : List (StateBlock Ex)}
    (rearranged : Rearranged spec.states states) :
    ∃ other : StateMachine S E C A,
      (expandFsmSpec { spec with states := states }).build meaning now =
          some (.ok other) ∧
        ∀ calls : List (Call E C),
          Trajectory.outputs Checked.respond other calls =
            Trajectory.outputs Checked.respond machine calls := by
  have permuted : spec.clauses.Perm { spec with states := states }.clauses :=
    rearranged.perm
  have otherWellFormed := wellFormed.of_perm permuted
  have fits := (wellFormed.exists_build_iff now).mp ⟨machine, built⟩
  obtain ⟨other, otherBuilt⟩ : ∃ other : StateMachine S E C A,
      (expandFsmSpec { spec with states := states }).build meaning now =
        some (.ok other) :=
    (otherWellFormed.exists_build_iff now).mpr
      (mt (wellFormed.initialOverflows_of_perm permuted rfl) fits)
  refine ⟨other, otherBuilt, fun calls => ?_⟩
  have same := wellFormed.reading_eq_of_perm permuted rfl meaning
  rw [otherWellFormed.checked_outputs_eq otherBuilt,
    wellFormed.checked_outputs_eq built]
  unfold checkedAnswer start
  rw [same]

end Rearranging

/-- The code of a table builds, behaves on a run as the table reads, and as the
code of every rearranged table does. -/
def Preserved [StateVariant S] [EventVariant E] (spec : FsmSpec Ty Ex)
    (meaning : Meaning S E C A Ex) (now : Instant) (calls : List (Call E C)) :
    Prop :=
  ∃ machine : StateMachine S E C A,
    (expandFsmSpec spec).build meaning now = some (.ok machine) ∧
      spec.BehavesAsRead meaning now machine calls ∧
      ∀ states, Rearranged spec.states states →
        ∃ other : StateMachine S E C A,
          (expandFsmSpec { spec with states := states }).build meaning now =
              some (.ok other) ∧
            Trajectory.outputs Checked.respond other calls =
              Trajectory.outputs Checked.respond machine calls

/-- The expansion preserves what a well-formed table reads as exactly if no
deadline overflows, the initial one included. -/
theorem expansion_preserves_reading_iff [StateVariant S] [EventVariant E]
    (spec : FsmSpec Ty Ex) (meaning : Meaning S E C A Ex) (now : Instant)
    (wellFormed : spec.WellFormed
      (StateVariant.variantName (meaning.state spec.initialExpr)))
    (calls : List (Call E C)) :
    spec.Preserved meaning now calls ↔
      ¬ spec.InitialOverflows meaning now ∧
        ∀ machine : StateMachine S E C A,
          (expandFsmSpec spec).build meaning now = some (.ok machine) →
            ∀ visit ∈ Trajectory.visits Checked.respond machine calls,
              ¬ visit.1.Overflows visit.2 := by
  constructor
  · intro preserved
    obtain ⟨machine, built, behaves, _⟩ := preserved
    refine ⟨(wellFormed.exists_build_iff now).mp ⟨machine, built⟩, ?_⟩
    intro other otherBuilt
    cases built.symm.trans otherBuilt
    exact (wellFormed.behavesAsRead_iff built calls).mp behaves
  · intro fits
    obtain ⟨machine, built⟩ :=
      (wellFormed.exists_build_iff (E := E) (C := C) (A := A) now).mpr fits.1
    refine ⟨machine, built, ?_, fun states rearranged => ?_⟩
    · exact (wellFormed.behavesAsRead_iff built calls).mpr
        (fits.2 machine built)
    · obtain ⟨other, otherBuilt, same⟩ :=
        wellFormed.rearranged built rearranged
      exact ⟨other, otherBuilt, same calls⟩

end FsmSpec

namespace Door

theorem farewell_wellFormed :
    (spec none (some (word "greet"))).placed.WellFormed "Closed" :=
  ⟨by decide, by decide, by decide, by decide, .inl (by decide)⟩

theorem farewell_preserved :
    (spec none (some (word "greet"))).placed.Preserved meaning 0 visit := by
  refine (FsmSpec.expansion_preserves_reading_iff _ meaning 0
    farewell_wellFormed visit).mpr ⟨?_, fun machine built => ?_⟩
  · rintro ⟨timeout, found, _⟩
    cases found
  · exact FsmSpec.run_fits built (by decide)

/-- The same handlers, and `Duration::MAX` for every timeout. -/
def forGood : Meaning DoorState DoorEvent DoorContext DoorAction
    (Site × Ident) :=
  { meaning with duration := fun _ => longest }

theorem forGood_not_preserved :
    ¬ ∀ calls,
      (spec none (some (word "greet"))).placed.Preserved forGood 0 calls := by
  intro preserved
  obtain ⟨machine, built, behaves, _⟩ := preserved [.handle .opening {} 0]
  have wellFormed : (spec none (some (word "greet"))).placed.WellFormed
      (StateVariant.variantName (forGood.state
        (spec none (some (word "greet"))).placed.initialExpr)) :=
    farewell_wellFormed
  have fits := (wellFormed.behavesAsRead_iff built _).mp behaves
  cases (show some (Except.ok _) = some (Except.ok machine) from built)
  exact fits _ List.mem_cons_self
    ⟨⟨.opened, [.ring, .log "Door opened"]⟩, (longest, autoClose),
      ⟨{}, [.ring], rfl, rfl⟩, rfl, by decide⟩

end Door

end ObzenflowFsm
