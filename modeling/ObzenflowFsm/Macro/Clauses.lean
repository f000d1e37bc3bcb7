import ObzenflowFsm.Machine.Overflow
import ObzenflowFsm.Macro.Derive
import ObzenflowFsm.Macro.Expand
import ObzenflowFsm.Macro.Grammar

namespace ObzenflowFsm

open Registry

variable {Ty Ex Value Place S E C A : Type}

/-! The clauses of a table, each with the name of its state, and which of them
the machine that the table builds runs. -/

namespace Clause

def asOn : Clause Ex → Option (OnHandler Ex)
  | .on handler => some handler
  | _ => none

def asTimeout : Clause Ex → Option (TimeoutSpec Ex)
  | .timeout spec => some spec
  | _ => none

def asEntry : Clause Ex → Option Ex
  | .entry handler => some handler
  | _ => none

def asExit : Clause Ex → Option Ex
  | .exit handler => some handler
  | _ => none

/-- Two clauses of a kind that a state runs one of. -/
inductive Rivals : Clause Ex → Clause Ex → Prop
  | timeout (first second : TimeoutSpec Ex) :
      Rivals (.timeout first) (.timeout second)
  | entry (first second : Ex) : Rivals (.entry first) (.entry second)
  | exit (first second : Ex) : Rivals (.exit first) (.exit second)

theorem Rivals.symm {clause rival : Clause Ex} (rivals : clause.Rivals rival) :
    rival.Rivals clause := by
  cases rivals with
  | timeout first second => exact .timeout second first
  | entry first second => exact .entry second first
  | exit first second => exact .exit second first

theorem rivals_timeout_iff {held : TimeoutSpec Ex} {rival : Clause Ex} :
    (timeout held).Rivals rival ↔ ∃ other, rival = timeout other := by
  constructor
  · intro rivals
    cases rivals
    exact ⟨_, rfl⟩
  · rintro ⟨other, rfl⟩
    exact .timeout held other

theorem rivals_entry_iff {held : Ex} {rival : Clause Ex} :
    (entry held).Rivals rival ↔ ∃ other, rival = entry other := by
  constructor
  · intro rivals
    cases rivals
    exact ⟨_, rfl⟩
  · rintro ⟨other, rfl⟩
    exact .entry held other

theorem rivals_exit_iff {held : Ex} {rival : Clause Ex} :
    (exit held).Rivals rival ↔ ∃ other, rival = exit other := by
  constructor
  · intro rivals
    cases rivals
    exact ⟨_, rfl⟩
  · rintro ⟨other, rfl⟩
    exact .exit held other

end Clause

namespace StateBlock

def clauses (block : StateBlock Ex) : List (Clause Ex) :=
  BlockClauses.written
    { handlers := block.handlers
      timeout := block.timeout
      entry := block.entry
      exit := block.exit }

variable (block : StateBlock Ex)

theorem filterMap_on : block.clauses.filterMap Clause.asOn = block.handlers := by
  simp [clauses, BlockClauses.written, List.filterMap_map, Function.comp_def,
    Clause.asOn]

theorem filterMap_timeout :
    block.clauses.filterMap Clause.asTimeout = block.timeout.toList := by
  simp [clauses, BlockClauses.written, List.filterMap_map, Function.comp_def,
    Clause.asTimeout]

theorem filterMap_entry :
    block.clauses.filterMap Clause.asEntry = block.entry.toList := by
  simp [clauses, BlockClauses.written, List.filterMap_map, Function.comp_def,
    Clause.asEntry]

theorem filterMap_exit :
    block.clauses.filterMap Clause.asExit = block.exit.toList := by
  simp [clauses, BlockClauses.written, List.filterMap_map, Function.comp_def,
    Clause.asExit]

theorem mem_timeout_iff {held : TimeoutSpec Ex} :
    .timeout held ∈ block.clauses ↔ block.timeout = some held := by
  simp [clauses, BlockClauses.written]

theorem mem_entry_iff {held : Ex} :
    .entry held ∈ block.clauses ↔ block.entry = some held := by
  simp [clauses, BlockClauses.written]

theorem mem_exit_iff {held : Ex} :
    .exit held ∈ block.clauses ↔ block.exit = some held := by
  simp [clauses, BlockClauses.written]

end StateBlock

/-- The clauses of a table, each under the name of its state. -/
def FsmSpec.clauses (spec : FsmSpec Ty Ex) : List (String × Clause Ex) :=
  spec.states.flatMap fun block => block.clauses.map (block.stateName, ·)

def FsmSpec.ofKind (kind : Clause Ex → Option Value) (spec : FsmSpec Ty Ex) :
    List (String × Value) :=
  spec.clauses.filterMap fun named => (kind named.2).map (named.1, ·)

theorem FsmSpec.ofKind_eq (kind : Clause Ex → Option Value)
    (spec : FsmSpec Ty Ex) :
    spec.ofKind kind = spec.states.flatMap fun block =>
      (block.clauses.filterMap kind).map (block.stateName, ·) := by
  simp only [ofKind, clauses, List.filterMap_flatMap, List.filterMap_map,
    List.map_filterMap]
  rfl

theorem FsmSpec.mem_ofKind_iff {kind : Clause Ex → Option Value}
    {spec : FsmSpec Ty Ex} {name : String} {value : Value} :
    (name, value) ∈ spec.ofKind kind ↔
      ∃ clause, (name, clause) ∈ spec.clauses ∧ kind clause = some value := by
  simp only [ofKind, List.mem_filterMap, Option.map_eq_some_iff]
  constructor
  · intro found
    obtain ⟨⟨_, clause⟩, member, _, kept, same⟩ := found
    cases same
    exact ⟨clause, member, kept⟩
  · intro found
    obtain ⟨clause, member, kept⟩ := found
    exact ⟨(name, clause), member, value, kept, rfl⟩

/-- The last block of a name that has a clause of the kind decides. -/
theorem FsmSpec.latest_ofKind_eq_some_iff {spec : FsmSpec Ty Ex}
    {kind : Clause Ex → Option Value} {held : StateBlock Ex → Option Value}
    (kept : ∀ block : StateBlock Ex,
      block.clauses.filterMap kind = (held block).toList)
    {name : String} {value : Value} :
    latest (spec.ofKind kind) name = some value ↔
      ∃ (index : Nat) (block : StateBlock Ex),
        spec.states[index]? = some block ∧ block.stateName = name ∧
        held block = some value ∧
        ∀ (later : Nat) (other : StateBlock Ex), index < later →
          spec.states[later]? = some other → other.stateName = name →
            held other = none := by
  simp only [ofKind_eq, latest_flatMap_eq_some_iff, kept, latest_toList,
    Option.ite_none_right_eq_some, ite_eq_right_iff, and_assoc]

/-! ### What is registered, clause by clause -/

namespace FsmSpec

variable (meaning : Meaning S E C A Ex) (spec : FsmSpec Ty Ex)

theorem registrations_rows :
    (spec.registrations meaning).rows.map Row.entry =
      (spec.ofKind Clause.asOn).map fun named =>
        ((named.1, named.2.eventPath.dispatchName),
          meaning.transition named.2.handler) := by
  simp only [registrations, StateBlock.rows, ofKind_eq,
    StateBlock.filterMap_on, List.map_flatMap, List.map_map]
  rfl

theorem registrations_timeouts :
    (spec.registrations meaning).timeouts =
      (spec.ofKind Clause.asTimeout).map fun named =>
        (named.1, meaning.duration named.2.duration,
          meaning.timeout named.2.handler) := by
  simp only [registrations, ofKind_eq,
    StateBlock.filterMap_timeout, List.map_flatMap, List.map_map]
  rfl

theorem registrations_entries :
    (spec.registrations meaning).entries =
      (spec.ofKind Clause.asEntry).map fun named =>
        (named.1, meaning.hook named.2) := by
  simp only [registrations, ofKind_eq,
    StateBlock.filterMap_entry, List.map_flatMap, List.map_map]
  rfl

theorem registrations_exits :
    (spec.registrations meaning).exits =
      (spec.ofKind Clause.asExit).map fun named =>
        (named.1, meaning.hook named.2) := by
  simp only [registrations, ofKind_eq,
    StateBlock.filterMap_exit, List.map_flatMap, List.map_map]
  rfl

end FsmSpec

/-! ### The clauses a table is written with -/

def Table.blocks (written : Table Ty Ex) :
    List (ExprPath × List (Clause Ex)) :=
  written.items.filterMap fun
    | .state path clauses => some (path, clauses)
    | .unhandled _ => none

theorem BlockClauses.written_ofWritten {written : List (Clause Ex)}
    {clauses : BlockClauses Ex}
    (assembled : BlockClauses.ofWritten written = some clauses) :
    clauses.written.Perm written := by
  have kept : ∀ (held : BlockClauses Ex),
      written.foldlM BlockClauses.add held = some clauses →
        clauses.written.Perm (held.written ++ written) := by
    clear assembled
    induction written with
    | nil =>
        intro held ended
        cases ended
        rw [List.append_nil]
    | cons clause rest induction =>
        intro held added
        rw [List.foldlM_cons] at added
        obtain ⟨next, first, remaining⟩ := Option.bind_eq_some_iff.mp added
        have moved := (BlockClauses.written_add first).append_right rest
        exact (induction next remaining).trans
          (moved.trans List.perm_middle.symm)
  exact kept {} assembled

theorem BlockClauses.exists_add_iff (held : BlockClauses Ex)
    (clause : Clause Ex) :
    (∃ next, held.add clause = some next) ↔
      ∀ other ∈ held.written, ¬ other.Rivals clause := by
  obtain ⟨handlers, timeout, entry, exit⟩ := held
  cases clause with
  | on handler =>
      refine ⟨fun _ other _ rivals => ?_, fun _ => ⟨_, rfl⟩⟩
      cases rivals
  | timeout given =>
      cases timeout with
      | none =>
          refine ⟨fun _ other member rivals => ?_, fun _ => ⟨_, rfl⟩⟩
          cases rivals
          simp [written] at member
      | some first =>
          refine ⟨fun added => ?_, fun free => ?_⟩
          · obtain ⟨_, refused⟩ := added
            cases refused
          · exact absurd (.timeout first given)
              (free (.timeout first) (by simp [written]))
  | entry given =>
      cases entry with
      | none =>
          refine ⟨fun _ other member rivals => ?_, fun _ => ⟨_, rfl⟩⟩
          cases rivals
          simp [written] at member
      | some first =>
          refine ⟨fun added => ?_, fun free => ?_⟩
          · obtain ⟨_, refused⟩ := added
            cases refused
          · exact absurd (.entry first given)
              (free (.entry first) (by simp [written]))
  | exit given =>
      cases exit with
      | none =>
          refine ⟨fun _ other member rivals => ?_, fun _ => ⟨_, rfl⟩⟩
          cases rivals
          simp [written] at member
      | some first =>
          refine ⟨fun added => ?_, fun free => ?_⟩
          · obtain ⟨_, refused⟩ := added
            cases refused
          · exact absurd (.exit first given)
              (free (.exit first) (by simp [written]))

/-- Within one block, rivals are refused. -/
theorem BlockClauses.exists_ofWritten_iff (written : List (Clause Ex)) :
    (∃ clauses, BlockClauses.ofWritten written = some clauses) ↔
      written.Pairwise fun first second => ¬ first.Rivals second := by
  have general : ∀ held : BlockClauses Ex,
      (∃ clauses, written.foldlM BlockClauses.add held = some clauses) ↔
        (∀ clause ∈ written, ∀ other ∈ held.written,
            ¬ other.Rivals clause) ∧
          written.Pairwise fun first second => ¬ first.Rivals second := by
    induction written with
    | nil =>
        intro held
        exact ⟨fun _ => ⟨by simp, .nil⟩, fun _ => ⟨held, rfl⟩⟩
    | cons clause rest induction =>
        intro held
        rw [List.forall_mem_cons, List.pairwise_cons]
        constructor
        · intro accepted
          obtain ⟨clauses, added⟩ := accepted
          rw [List.foldlM_cons] at added
          obtain ⟨next, first, remaining⟩ := Option.bind_eq_some_iff.mp added
          obtain ⟨free, pairwise⟩ :=
            (induction next).mp ⟨clauses, remaining⟩
          have kept := BlockClauses.written_add first
          refine ⟨⟨(held.exists_add_iff clause).mp ⟨next, first⟩, ?_⟩, ?_,
            pairwise⟩
          · intro later member other otherMember
            exact free later member other
              (kept.mem_iff.mpr (List.mem_cons_of_mem _ otherMember))
          · intro later member
            exact free later member clause
              (kept.mem_iff.mpr List.mem_cons_self)
        · intro allowed
          obtain ⟨⟨freeHead, freeRest⟩, apart, pairwise⟩ := allowed
          obtain ⟨next, first⟩ := (held.exists_add_iff clause).mpr freeHead
          have kept := BlockClauses.written_add first
          obtain ⟨clauses, remaining⟩ := (induction next).mpr ⟨by
            intro later member other otherMember
            cases kept.mem_iff.mp otherMember with
            | head => exact apart later member
            | tail _ held => exact freeRest later member other held, pairwise⟩
          refine ⟨clauses, ?_⟩
          rw [List.foldlM_cons, first]
          exact remaining
  rw [BlockClauses.ofWritten, general {}]
  simp [BlockClauses.written]

/-- Parsing a table keeps its blocks, in order, and all their clauses. -/
theorem Table.blocks_of_spec {written : Table Ty Ex} {spec : FsmSpec Ty Ex}
    (assembled : written.spec = some spec) :
    List.Forall₂ (fun block parsed =>
        parsed.statePath = block.1 ∧ parsed.clauses.Perm block.2)
      written.blocks spec.states := by
  obtain ⟨header, items⟩ := written
  obtain ⟨body, added, rfl⟩ := Option.map_eq_some_iff.mp assembled
  have kept : ∀ held : TableBody Ex,
      items.foldlM TableBody.add held = some body →
        ∃ states, body.states = held.states ++ states ∧
          List.Forall₂ (fun block parsed =>
              parsed.statePath = block.1 ∧ parsed.clauses.Perm block.2)
            (Table.mk header items).blocks states := by
    clear added assembled
    induction items with
    | nil =>
        intro held ended
        cases ended
        exact ⟨[], (List.append_nil _).symm, .nil⟩
    | cons item rest induction =>
        intro held added
        rw [List.foldlM_cons] at added
        obtain ⟨next, first, remaining⟩ := Option.bind_eq_some_iff.mp added
        obtain ⟨states, grown, related⟩ := induction next remaining
        cases item with
        | state path clauses =>
            obtain ⟨parsed, parsedOk, rfl⟩ := Option.map_eq_some_iff.mp first
            refine ⟨parsed.block path :: states, ?_, .cons ?_ related⟩
            · rw [grown, List.append_assoc]
              rfl
            · exact ⟨rfl, BlockClauses.written_ofWritten parsedOk⟩
        | unhandled handler =>
            refine ⟨states, ?_, related⟩
            rw [grown]
            simp only [TableBody.add] at first
            split at first
            · cases first
            · cases first
              rfl
  obtain ⟨states, grown, related⟩ := kept {} added
  rw [List.nil_append] at grown
  change List.Forall₂ _ _ body.states
  rw [grown]
  exact related

/-! ### Which clause is which -/

/-- Where an expression stands: in the block of an index, or in none. -/
inductive Site where
  | table
  | block (index : Nat)
  deriving DecidableEq

def Clause.placed (site : Site) : Clause Ex → Clause (Site × Ex)
  | .on handler => .on ⟨handler.eventPath, (site, handler.handler)⟩
  | .timeout spec => .timeout ⟨(site, spec.duration), (site, spec.handler)⟩
  | .entry handler => .entry (site, handler)
  | .exit handler => .exit (site, handler)

def StateBlock.placed (site : Site) (block : StateBlock Ex) :
    StateBlock (Site × Ex) where
  statePath := block.statePath
  handlers := block.handlers.map fun on =>
    ⟨on.eventPath, (site, on.handler)⟩
  timeout := block.timeout.map fun timeout =>
    ⟨(site, timeout.duration), (site, timeout.handler)⟩
  entry := block.entry.map (site, ·)
  exit := block.exit.map (site, ·)

/-- The table with every expression apart from those in other blocks, as the
code evaluates each where it stands. -/
def FsmSpec.placed (spec : FsmSpec Ty Ex) : FsmSpec Ty (Site × Ex) where
  stateTy := spec.stateTy
  eventTy := spec.eventTy
  contextTy := spec.contextTy
  actionTy := spec.actionTy
  initialExpr := (.table, spec.initialExpr)
  states := spec.states.mapIdx fun index block => block.placed (.block index)
  unhandled := spec.unhandled.map (.table, ·)

/-! ### The block that decides -/

/-- The block of an index has the value, under the name, and no later block of
that name has another. -/
def FsmSpec.Decides (spec : FsmSpec Ty Ex)
    (held : StateBlock Ex → Option Value) (name : String) (index : Nat)
    (value : Value) : Prop :=
  ∃ block, spec.states[index]? = some block ∧ block.stateName = name ∧
    held block = some value ∧
    ∀ (later : Nat) (other : StateBlock Ex), index < later →
      spec.states[later]? = some other → other.stateName = name →
        held other = none

theorem FsmSpec.latest_placed_iff {spec : FsmSpec Ty Ex} {Placed : Type}
    {kind : Clause (Site × Ex) → Option Placed}
    {placedHeld : StateBlock (Site × Ex) → Option Placed}
    {held : StateBlock Ex → Option Value} (place : Site → Value → Placed)
    (kept : ∀ block : StateBlock (Site × Ex),
      block.clauses.filterMap kind = (placedHeld block).toList)
    (moves : ∀ site (block : StateBlock Ex),
      placedHeld (block.placed site) = (held block).map (place site))
    {name : String} {value : Placed} :
    latest (spec.placed.ofKind kind) name = some value ↔
      ∃ index given, spec.Decides held name index given ∧
        place (.block index) given = value := by
  rw [latest_ofKind_eq_some_iff kept]
  simp only [placed, List.getElem?_mapIdx, Option.map_eq_some_iff, Decides]
  constructor
  · rintro ⟨index, _, ⟨block, found, rfl⟩, named, decided, last⟩
    rw [moves, Option.map_eq_some_iff] at decided
    obtain ⟨given, decided, rfl⟩ := decided
    refine ⟨index, given, ⟨block, found, named, decided, ?_⟩, rfl⟩
    intro later other after foundOther namedOther
    have absent := last later _ after ⟨other, foundOther, rfl⟩ namedOther
    rwa [moves, Option.map_eq_none_iff] at absent
  · rintro ⟨index, given, ⟨block, found, named, decided, last⟩, rfl⟩
    refine ⟨index, _, ⟨block, found, rfl⟩, named, ?_, ?_⟩
    · rw [moves, decided]
      rfl
    · rintro later _ after ⟨other, foundOther, rfl⟩ namedOther
      rw [moves, last later other after foundOther namedOther]
      rfl

/-- The block of an index has the clause, under the name, and no later block of
that name has a rival. -/
structure Table.Decides (written : Table Ty Ex) (name : String) (index : Nat)
    (clause : Clause Ex) : Prop where
  registered : ∃ block, written.blocks[index]? = some block ∧
    block.1.dispatchName = name ∧ clause ∈ block.2
  last : ∀ later block rival, index < later →
    written.blocks[later]? = some block → block.1.dispatchName = name →
      rival ∈ block.2 → ¬ clause.Rivals rival

theorem Table.block_iff {written : Table Ty Ex} {spec : FsmSpec Ty Ex}
    (assembled : written.spec = some spec) (pathed : ExprPath → Prop)
    (index : Nat) (clause : Clause Ex) :
    (∃ block, written.blocks[index]? = some block ∧ pathed block.1 ∧
        clause ∈ block.2) ↔
      ∃ parsed, spec.states[index]? = some parsed ∧
        pathed parsed.statePath ∧ clause ∈ parsed.clauses := by
  have related := Table.blocks_of_spec assembled
  constructor
  · rintro ⟨block, found, holds, member⟩
    obtain ⟨writtenBound, rfl⟩ := List.getElem?_eq_some_iff.mp found
    have bound := related.length_eq ▸ writtenBound
    obtain ⟨path, kept⟩ := related.get writtenBound bound
    refine ⟨_, List.getElem?_eq_getElem bound, ?_, kept.mem_iff.mpr member⟩
    exact Eq.mpr (congrArg pathed path) holds
  · rintro ⟨parsed, found, holds, member⟩
    obtain ⟨bound, rfl⟩ := List.getElem?_eq_some_iff.mp found
    have writtenBound := related.length_eq ▸ bound
    obtain ⟨path, kept⟩ := related.get writtenBound bound
    refine ⟨_, List.getElem?_eq_getElem writtenBound, ?_,
      kept.mem_iff.mp member⟩
    exact Eq.mp (congrArg pathed path) holds

/-- As written or as parsed, the same blocks decide. -/
theorem Table.decides_iff {written : Table Ty Ex} {spec : FsmSpec Ty Ex}
    (assembled : written.spec = some spec)
    {held : StateBlock Ex → Option Value} {make : Value → Clause Ex}
    (members : ∀ (block : StateBlock Ex) value,
      make value ∈ block.clauses ↔ held block = some value)
    (rivals : ∀ value rival,
      (make value).Rivals rival ↔ ∃ other, rival = make other)
    {name : String} {index : Nat} {value : Value} :
    written.Decides name index (make value) ↔
      spec.Decides held name index value := by
  have registers :=
    Table.block_iff assembled fun path => path.dispatchName = name
  constructor
  · intro decides
    obtain ⟨block, found, named, member⟩ :=
      (registers index _).mp decides.registered
    refine ⟨block, found, named, (members block value).mp member, ?_⟩
    intro later other after foundOther namedOther
    by_contra present
    obtain ⟨rival, present⟩ := Option.ne_none_iff_exists'.mp present
    obtain ⟨written, foundWritten, namedWritten, rivalMember⟩ :=
      (registers later (make rival)).mpr
        ⟨other, foundOther, namedOther, (members other rival).mpr present⟩
    exact decides.last later written _ after foundWritten namedWritten
      rivalMember ((rivals value _).mpr ⟨rival, rfl⟩)
  · rintro ⟨block, found, named, decided, last⟩
    constructor
    · exact (registers index _).mpr
        ⟨block, found, named, (members block value).mpr decided⟩
    · intro later other rival after foundOther namedOther rivalMember opposed
      obtain ⟨given, rfl⟩ := (rivals value rival).mp opposed
      obtain ⟨parsed, foundParsed, namedParsed, parsedMember⟩ :=
        (registers later (make given)).mp
          ⟨other, foundOther, namedOther, rivalMember⟩
      have absent := last later parsed after foundParsed namedParsed
      rw [(members parsed given).mp parsedMember] at absent
      cases absent

/-! ### The clauses that are run -/

/-- The deadline is armed for a duration. -/
def Checked.armFor (duration : Duration) (armed : Instant) :
    Checked.Engine S E C A Unit := do
  let reading ← Checked.plain (now armed)
  match reading.checkedAdd duration with
  | some deadline => Checked.plain (assignTimeout (some deadline))
  | none => Polling.Async.fail .panicked

section Kept

variable [StateVariant S] {written : Table Ty Ex} {spec : FsmSpec Ty Ex}

/-- What the machine does in the state is what the clause says: it awaits the
hook on that side, it is armed for that long, and the timeout handler is the one
fired once the deadline is reached. -/
def Clause.RunIn (meaning : Meaning S E C A Ex)
    (machine : StateMachine S E C A) (state : S) : Clause Ex → Prop
  | .on _ => True
  | .timeout spec =>
      (∀ armed,
        Checked.scheduleTimeout (E := E) machine.timeoutHandlers
            (StateVariant.variantName state) armed =
          Checked.armFor (meaning.duration spec.duration) armed) ∧
      ∀ deadline polled, deadline ≤ polled →
        StateMachine.selectTimeout (E := E)
            ⟨machine.toTables, state, some deadline⟩ polled =
          .fire (.timeout (StateVariant.variantName state)
            (meaning.timeout spec.handler) state)
  | .entry handler =>
      ∀ context, machine.hookFuture .entry state context =
        meaning.hook handler state context
  | .exit handler =>
      ∀ context, machine.hookFuture .exit state context =
        meaning.hook handler state context

/-- The path of the block matches the state, and the block has the clause. -/
def Table.Carries (written : Table Ty Ex) (states : Patterns S) (state : S)
    (index : Nat) (clause : Clause Ex) : Prop :=
  ∃ block, written.blocks[index]? = some block ∧ states.takes block.1 state ∧
    clause ∈ block.2

/-- Whatever its expressions evaluate to, every clause of the table is the one
its state runs, wherever a run takes the machine that is built. -/
def Table.KeepsClauses (E C A : Type) [EventVariant E]
    (written : Table Ty Ex) (spec : FsmSpec Ty Ex) (states : Patterns S) :
    Prop :=
  ∀ (meaning : Meaning S E C A (Site × Ex)) now machine horizon reached,
    (expandFsmSpec spec.placed).build meaning now = some (.ok machine) →
      Checked.Reachable horizon machine reached →
        ∀ state index clause, written.Carries states state index clause →
          (clause.placed (.block index)).RunIn meaning reached state

/-- Every block with a hook or a timeout is spelled as the variant that its path
matches is declared, and no later block of that name has such a clause as
well. -/
structure Table.Undropped (written : Table Ty Ex) (states : Patterns S) :
    Prop where
  spelled : ∀ (state : S) block clause, block ∈ written.blocks →
    states.takes block.1 state → clause ∈ block.2 → clause.asOn = none →
      block.1.last = (states.variantOf state).val
  last : ∀ (state : S) first later clause block rival,
    written.Carries states state first clause → first < later →
      written.blocks[later]? = some block →
        block.1.last = (states.variantOf state).val →
          rival ∈ block.2 → ¬ clause.Rivals rival

variable {states : Patterns S}

/-- What is asked of a table is that each of its clauses decides. -/
theorem Table.undropped_iff
    (derives : states.Derives StateVariant.variantName) :
    written.Undropped states ↔
      ∀ (state : S) index clause,
        written.Carries states state index clause → clause.asOn = none →
          written.Decides (StateVariant.variantName state) index clause := by
  have named (path : ExprPath) (state : S) :
      path.dispatchName = StateVariant.variantName state ↔
        path.last = (states.variantOf state).val := by
    rw [derives state, DataEnum.variantName_eq]
    exact Ident.toString_injective.eq_iff
  constructor
  · intro undropped state index clause carried kind
    obtain ⟨block, found, taken, member⟩ := carried
    refine ⟨⟨block, found, (named _ state).mpr ?_, member⟩, ?_⟩
    · exact undropped.spelled state block clause
        (List.mem_of_getElem? found) taken member kind
    · intro later other rival after foundOther namedOther rivalMember
      exact undropped.last state index later clause other rival
        ⟨block, found, taken, member⟩ after foundOther
        ((named _ state).mp namedOther) rivalMember
  · intro decides
    constructor
    · intro state block clause member taken clauseMember kind
      obtain ⟨index, found⟩ := List.mem_iff_getElem?.mp member
      obtain ⟨other, foundOther, namedOther, _⟩ :=
        (decides state index clause ⟨block, found, taken, clauseMember⟩
          kind).registered
      cases found.symm.trans foundOther
      exact (named _ state).mp namedOther
    · intro state first later clause block rival carried after found spelled
        member rivals
      have kind : clause.asOn = none := by
        cases rivals with
        | timeout first second | entry first second | exit first second => rfl
      exact (decides state first clause carried kind).last later block rival
        after found ((named _ state).mpr spelled) member rivals

variable {meaning : Meaning S E C A (Site × Ex)}

section Latest

omit [StateVariant S]

theorem Table.latest_placed_iff (assembled : written.spec = some spec)
    {Placed : Type} {kind : Clause (Site × Ex) → Option Placed}
    {placedHeld : StateBlock (Site × Ex) → Option Placed}
    {held : StateBlock Ex → Option Value} {make : Value → Clause Ex}
    (place : Site → Value → Placed)
    (kept : ∀ block : StateBlock (Site × Ex),
      block.clauses.filterMap kind = (placedHeld block).toList)
    (moves : ∀ site (block : StateBlock Ex),
      placedHeld (block.placed site) = (held block).map (place site))
    (members : ∀ (block : StateBlock Ex) value,
      make value ∈ block.clauses ↔ held block = some value)
    (rivals : ∀ value rival,
      (make value).Rivals rival ↔ ∃ other, rival = make other)
    {name : String} {value : Placed} :
    latest (spec.placed.ofKind kind) name = some value ↔
      ∃ index given, written.Decides name index (make given) ∧
        place (.block index) given = value := by
  rw [FsmSpec.latest_placed_iff place kept moves]
  simp only [Table.decides_iff assembled members rivals]

theorem Table.latest_timeout_iff (assembled : written.spec = some spec)
    {name : String} {value : TimeoutSpec (Site × Ex)} :
    latest (spec.placed.ofKind Clause.asTimeout) name = some value ↔
      ∃ index held, written.Decides name index (.timeout held) ∧
        ⟨(.block index, held.duration), (.block index, held.handler)⟩ =
          value :=
  Table.latest_placed_iff assembled
    (fun site held => ⟨(site, held.duration), (site, held.handler)⟩)
    StateBlock.filterMap_timeout (fun _ _ => rfl)
    (fun block _ => block.mem_timeout_iff)
    (fun _ _ => Clause.rivals_timeout_iff)

theorem Table.latest_entry_iff (assembled : written.spec = some spec)
    {name : String} {value : Site × Ex} :
    latest (spec.placed.ofKind Clause.asEntry) name = some value ↔
      ∃ index held, written.Decides name index (.entry held) ∧
        (.block index, held) = value :=
  Table.latest_placed_iff assembled Prod.mk StateBlock.filterMap_entry
    (fun _ _ => rfl) (fun block _ => block.mem_entry_iff)
    (fun _ _ => Clause.rivals_entry_iff)

theorem Table.latest_exit_iff (assembled : written.spec = some spec)
    {name : String} {value : Site × Ex} :
    latest (spec.placed.ofKind Clause.asExit) name = some value ↔
      ∃ index held, written.Decides name index (.exit held) ∧
        (.block index, held) = value :=
  Table.latest_placed_iff assembled Prod.mk StateBlock.filterMap_exit
    (fun _ _ => rfl) (fun block _ => block.mem_exit_iff)
    (fun _ _ => Clause.rivals_exit_iff)

end Latest

theorem Table.runIn_of_decides (assembled : written.spec = some spec)
    {machine : StateMachine S E C A}
    (holds : machine.toTables.Hold (spec.placed.registrations meaning))
    {state : S} {index : Nat} {clause : Clause Ex}
    (decides : clause.asOn = none →
      written.Decides (StateVariant.variantName state) index clause) :
    (clause.placed (.block index)).RunIn meaning machine state := by
  cases clause with
  | on handler => trivial
  | timeout held =>
      have found := holds.timeouts (StateVariant.variantName state)
      rw [FsmSpec.registrations_timeouts,
        latest_map_values _ (fun timeout : TimeoutSpec (Site × Ex) =>
          (meaning.duration timeout.duration,
            meaning.timeout timeout.handler)),
        (Table.latest_timeout_iff assembled).mpr
          ⟨index, held, decides rfl, rfl⟩] at found
      refine ⟨fun armed => ?_, fun deadline polled reached => ?_⟩
      · simp only [Checked.scheduleTimeout, found]
        rfl
      · simp only [StateMachine.selectTimeout, found, Option.map_some,
          if_pos reached]
  | entry held =>
      have found := holds.entries (StateVariant.variantName state)
      rw [FsmSpec.registrations_entries, latest_map_values,
        (Table.latest_entry_iff assembled).mpr
          ⟨index, held, decides rfl, rfl⟩] at found
      intro context
      simp only [StateMachine.hookFuture, StateMachine.hooks, found]
      rfl
  | exit held =>
      have found := holds.exits (StateVariant.variantName state)
      rw [FsmSpec.registrations_exits, latest_map_values,
        (Table.latest_exit_iff assembled).mpr
          ⟨index, held, decides rfl, rfl⟩] at found
      intro context
      simp only [StateMachine.hookFuture, StateMachine.hooks, found]
      rfl

/-- A meaning whose hooks and timeouts fail at one site only. -/
def Meaning.marked (meaning : Meaning S E C A (Site × Ex)) (site : Site) :
    Meaning S E C A (Site × Ex) :=
  { meaning with
    hook := fun expr _ context =>
      if expr.1 = site then .ready (.error (.handlerError "")) context
      else .ready (.ok []) context
    timeout := fun expr state context =>
      if expr.1 = site then .ready (.error (.handlerError "")) context
      else .ready (.ok ⟨state, []⟩) context }

theorem FsmSpec.exists_build_marked {now : Instant}
    {machine : StateMachine S E C A}
    (built : (expandFsmSpec spec.placed).build meaning now =
      some (.ok machine)) (site : Site) :
    ∃ other : StateMachine S E C A,
      (expandFsmSpec spec.placed).build (meaning.marked site) now =
        some (.ok other) := by
  obtain ⟨unrecorded, serves, fits⟩ :=
    (spec.placed.exists_build_iff meaning now).mp ⟨machine, built⟩
  refine (spec.placed.exists_build_iff _ now).mpr ⟨unrecorded, ?_, fits⟩
  refine serves.imp id fun member => ?_
  rw [FsmSpec.registrations_timeouts, List.map_map] at member ⊢
  exact member

omit [StateVariant S] in
theorem Meaning.site_of_hook {index : Nat} {site : Site} {handler held : Ex}
    {state : S} {context : C}
    (same : (meaning.marked (.block index)).hook (site, handler) state context =
      (meaning.marked (.block index)).hook (.block index, held) state
        context) :
    site = .block index := by
  by_contra other
  simp [Meaning.marked, other] at same

omit [StateVariant S] in
theorem Meaning.site_of_timeout {index : Nat} {site : Site}
    {handler held : Ex} {state : S} {context : C}
    (same : (meaning.marked (.block index)).timeout (site, handler) state
        context =
      (meaning.marked (.block index)).timeout (.block index, held) state
        context) :
    site = .block index := by
  by_contra other
  simp [Meaning.marked, other] at same

omit [StateVariant S] in
/-- A block has one clause of a kind. -/
theorem Table.decides_of_carries (assembled : written.spec = some spec)
    {held : StateBlock Ex → Option Value} {make : Value → Clause Ex}
    (members : ∀ (block : StateBlock Ex) value,
      make value ∈ block.clauses ↔ held block = some value)
    {state : S} {name : String} {index : Nat} {value other : Value}
    (carried : written.Carries states state index (make value))
    (decides : written.Decides name index (make other)) :
    written.Decides name index (make value) := by
  obtain ⟨block, found, _, member⟩ :=
    (Table.block_iff assembled (fun path => states.takes path state) _ _).mp
      carried
  obtain ⟨_, foundOther, _, otherMember⟩ :=
    (Table.block_iff assembled (fun path => path.dispatchName = name) _ _).mp
      decides.registered
  cases found.symm.trans foundOther
  have same := ((members block value).mp member).symm.trans
    ((members block other).mp otherMember)
  rwa [Option.some.inj same]

/-- Where the clause of one block alone fails, it decides if it is run. -/
theorem Table.decides_of_runIn (assembled : written.spec = some spec)
    {machine : StateMachine S E C A} {state : S} {index : Nat}
    {clause : Clause Ex}
    (holds : machine.toTables.Hold
      (spec.placed.registrations (meaning.marked (.block index))))
    (context : C) (carried : written.Carries states state index clause)
    (kind : clause.asOn = none)
    (run : (clause.placed (.block index)).RunIn
      (meaning.marked (.block index)) machine state) :
    written.Decides (StateVariant.variantName state) index clause := by
  cases clause with
  | on handler => cases kind
  | timeout held =>
      have fired := run.2 0 0 le_rfl
      have tracked := holds.timeouts (StateVariant.variantName state)
      simp only [StateMachine.selectTimeout] at fired
      cases looked : machine.timeoutHandlers.lookup
          (StateVariant.variantName state) with
      | none => simp [looked] at fired
      | some timeout =>
          rw [looked, FsmSpec.registrations_timeouts,
            latest_map_values _ (fun timeout : TimeoutSpec (Site × Ex) =>
              ((meaning.marked (.block index)).duration timeout.duration,
                (meaning.marked (.block index)).timeout timeout.handler)),
            eq_comm, Option.map_eq_some_iff] at tracked
          obtain ⟨_, found, rfl⟩ := tracked
          simp only [looked, le_refl, if_true, Selection.fire.injEq,
            Trigger.timeout.injEq, true_and, and_true] at fired
          obtain ⟨_, _, decides, rfl⟩ :=
            (Table.latest_timeout_iff assembled).mp found
          cases Meaning.site_of_timeout
            (congrFun (congrFun fired state) context)
          exact Table.decides_of_carries assembled
            (fun block _ => block.mem_timeout_iff) carried decides
  | entry held =>
      have awaited := run context
      have tracked := holds.entries (StateVariant.variantName state)
      simp only [StateMachine.hookFuture, StateMachine.hooks] at awaited
      cases looked : machine.entryHandlers.lookup
          (StateVariant.variantName state) with
      | none => simp [looked, Meaning.marked] at awaited
      | some hook =>
          rw [looked, FsmSpec.registrations_entries, latest_map_values,
            eq_comm, Option.map_eq_some_iff] at tracked
          obtain ⟨_, found, rfl⟩ := tracked
          rw [looked] at awaited
          obtain ⟨_, _, decides, rfl⟩ :=
            (Table.latest_entry_iff assembled).mp found
          cases Meaning.site_of_hook awaited
          exact Table.decides_of_carries assembled
            (fun block _ => block.mem_entry_iff) carried decides
  | exit held =>
      have awaited := run context
      have tracked := holds.exits (StateVariant.variantName state)
      simp only [StateMachine.hookFuture, StateMachine.hooks] at awaited
      cases looked : machine.exitHandlers.lookup
          (StateVariant.variantName state) with
      | none => simp [looked, Meaning.marked] at awaited
      | some hook =>
          rw [looked, FsmSpec.registrations_exits, latest_map_values,
            eq_comm, Option.map_eq_some_iff] at tracked
          obtain ⟨_, found, rfl⟩ := tracked
          rw [looked] at awaited
          obtain ⟨_, _, decides, rfl⟩ :=
            (Table.latest_exit_iff assembled).mp found
          cases Meaning.site_of_hook awaited
          exact Table.decides_of_carries assembled
            (fun block _ => block.mem_exit_iff) carried decides

theorem Table.undropped_of_keepsClauses [EventVariant E] (context : C)
    (assembled : written.spec = some spec)
    (derives : states.Derives StateVariant.variantName) {now : Instant}
    {machine : StateMachine S E C A}
    (built : (expandFsmSpec spec.placed).build meaning now =
      some (.ok machine))
    (keeps : written.KeepsClauses E C A spec states) :
    written.Undropped states := by
  refine (Table.undropped_iff derives).mpr ?_
  intro state index clause carried kind
  obtain ⟨marked, markedBuilt⟩ :=
    FsmSpec.exists_build_marked built (.block index)
  exact Table.decides_of_runIn assembled
    (FsmSpec.hold_of_build _ markedBuilt) context carried kind
    (keeps _ now marked now marked markedBuilt .start state index clause
      carried)

/-- A table that builds keeps its clauses exactly if each of its blocks with a
hook or a timeout is spelled as its variant is declared, and no later block of
that name has a clause of the same kind. -/
theorem Table.keepsClauses_iff [EventVariant E] [Nonempty C]
    {syn : Syn Ty Ex} {tokens : List Token}
    (reads : Table.Reads syn tokens written)
    (parsed : FsmSpec.parse syn tokens = .ok spec)
    (derives : states.Derives StateVariant.variantName)
    (builds : ∃ (meaning : Meaning S E C A (Site × Ex)) (now : Instant)
      (machine : StateMachine S E C A),
      (expandFsmSpec spec.placed).build meaning now = some (.ok machine)) :
    written.KeepsClauses E C A spec states ↔ written.Undropped states := by
  obtain ⟨other, otherReads, assembled⟩ := FsmSpec.parse_ok_iff.mp parsed
  cases reads.unique otherReads
  constructor
  · intro keeps
    obtain ⟨meaning, now, machine, built⟩ := builds
    obtain ⟨context⟩ := (inferInstance : Nonempty C)
    exact Table.undropped_of_keepsClauses context assembled derives built keeps
  · intro undropped meaning now machine horizon reached built reachable state
      index clause carried
    have holds := FsmSpec.hold_of_build meaning built
    rw [← reachable.toTables] at holds
    exact Table.runIn_of_decides assembled holds
      ((Table.undropped_iff derives).mp undropped state index clause carried)

end Kept

/-! ### The door as a table -/

namespace Door

def word (name : String)
    (clean : '#' ∉ name.toList ∧ name ≠ "_" := by decide) : Ident :=
  ⟨name, false, clean⟩

theorem ident_shortens : Parsing.Shortens ident := by
  intro tokens value rest parsed
  rw [(ident_ok_iff.mp parsed).1]
  exact Nat.le_succ _

/-- Types, expressions and paths of one identifier. -/
def syn : Syn Ident Ident where
  type := ident
  expr := ident
  path := do
    let last ← ident
    return ⟨false, [], last, []⟩
  type_shortens := ident_shortens
  expr_shortens := ident_shortens
  path_shortens := by
    intro tokens path rest parsed
    obtain ⟨last, middle, taken, ended⟩ := Parsing.run_bind_ok_iff.mp parsed
    obtain ⟨_, rfl⟩ := Parsing.run_pure_ok_iff.mp ended
    exact ident_shortens tokens last middle taken

def arrow : List Token := [.punct '=' true, .punct '>' false]

def semi : Token := .punct ';' false

def headerTokens : List Token :=
  [.ident (word "state"), .punct ':' false, .ident (word "DoorState"), semi,
    .ident (word "event"), .punct ':' false, .ident (word "DoorEvent"), semi,
    .ident (word "context"), .punct ':' false, .ident (word "DoorContext"),
    semi,
    .ident (word "action"), .punct ':' false, .ident (word "DoorAction"), semi,
    .ident (word "initial"), .punct ':' false, .ident (word "closed"), semi]

def blockTokens (name : Ident) (content : List Token) : List Token :=
  [.ident (word "state"), .ident name, .group .brace content]

/-- A door whose open state has a second block with one more clause. -/
def tableTokens (keyword handler : Ident) : List Token :=
  headerTokens ++
    blockTokens (word "Closed")
      (.ident (word "on") :: .ident (word "Open") :: arrow ++
        [.ident (word "openDoor"), semi]) ++
    blockTokens (word "Open")
      (.ident (word "timeout") :: .ident (word "openFor") :: arrow ++
        [.ident (word "autoClose"), semi, .ident (word "on_entry"),
          .ident (word "greet"), semi]) ++
    blockTokens (word "Open") [.ident keyword, .ident handler, semi]

def path (name : Ident) : ExprPath := ⟨false, [], name, []⟩

def written (clause : Clause Ident) : Table Ident Ident where
  header := ⟨word "DoorState", word "DoorEvent", word "DoorContext",
    word "DoorAction", word "closed"⟩
  items :=
    [.state (path (word "Closed"))
        [.on ⟨path (word "Open"), word "openDoor"⟩],
      .state (path (word "Open"))
        [.timeout ⟨word "openFor", word "autoClose"⟩, .entry (word "greet")],
      .state (path (word "Open")) [clause]]

def spec (entry exit : Option Ident) : FsmSpec Ident Ident where
  stateTy := word "DoorState"
  eventTy := word "DoorEvent"
  contextTy := word "DoorContext"
  actionTy := word "DoorAction"
  initialExpr := word "closed"
  states :=
    [⟨path (word "Closed"), [⟨path (word "Open"), word "openDoor"⟩], none,
        none, none⟩,
      ⟨path (word "Open"), [], some ⟨word "openFor", word "autoClose"⟩,
        some (word "greet"), none⟩,
      ⟨path (word "Open"), [], none, entry, exit⟩]
  unhandled := none

def meaning : Meaning DoorState DoorEvent DoorContext DoorAction
    (Site × Ident) where
  state _ := .closed
  duration _ := openFor
  transition _ := openDoor
  timeout _ := autoClose
  hook expr := if expr.2 = word "jam" then jam else greet
  unhandled _ _ _ context := .ready (.ok ()) context

theorem built_spec (entry exit : Option Ident) :
    ∃ machine : StateMachine DoorState DoorEvent DoorContext DoorAction,
      (expandFsmSpec (spec entry exit).placed).build meaning 0 =
        some (.ok machine) := by
  refine (FsmSpec.exists_build_iff meaning _ 0).mpr
    ⟨rfl, .inl (List.mem_singleton_self _), ?_⟩
  rintro ⟨timeout, found, _⟩
  cases found

/-- An enum of two variants, both of which are imported. -/
def imported (first second : Ident)
    (distinct : [first.name, second.name].Nodup) (isFirst : Value → Bool) :
    Patterns Value :=
  let derived : DataEnum := ⟨[first, second], distinct⟩
  let one : derived.Value := ⟨first, List.mem_cons_self⟩
  let other : derived.Value :=
    ⟨second, List.mem_cons_of_mem first (List.mem_singleton_self second)⟩
  { derived
    variantOf := fun value => if isFirst value then one else other
    scope :=
      ⟨[(first.name, .variant one), (second.name, .variant other)], []⟩ }

theorem closed_clean : '#' ∉ "Closed".toList ∧ "Closed" ≠ "_" := by decide

theorem open_clean : '#' ∉ "Open".toList ∧ "Open" ≠ "_" := by decide

theorem close_clean : '#' ∉ "Close".toList ∧ "Close" ≠ "_" := by decide

/-- `use DoorState::*;` -/
def statePatterns : Patterns DoorState :=
  imported (word "Closed" closed_clean) (word "Open" open_clean) (by decide)
    (DoorState.closed == ·)

/-- `use DoorEvent::*;` -/
def eventPatterns : Patterns DoorEvent :=
  imported (word "Open" open_clean) (word "Close" close_clean) (by decide)
    (DoorEvent.opening == ·)

theorem reads_tokens (keyword handler : Ident) (clause : Clause Ident)
    (reads : Clause.Reads syn [.ident keyword, .ident handler, semi] clause
      []) :
    Table.Reads syn (tableTokens keyword handler) (written clause) := by
  refine ⟨_, rfl, ?_⟩
  exact .cons (.state rfl rfl (.cons (.on rfl rfl rfl) .nil))
    (.cons (.state rfl rfl
        (.cons (.timeout rfl rfl rfl) (.cons (.entry rfl rfl) .nil)))
      (.cons (.state rfl rfl (.cons reads .nil)) .nil))

theorem statePatterns_derives :
    statePatterns.Derives (StateVariant.variantName (S := DoorState)) := by
  intro state
  cases state with
  | closed => rfl
  | opened => rfl

theorem farewell_undropped :
    (written (.exit (word "greet"))).Undropped statePatterns := by
  constructor
  · intro state block clause member taken clauseMember kind
    rcases List.mem_cons.mp member with rfl | member
    · cases List.mem_singleton.mp clauseMember
      cases kind
    rcases List.mem_cons.mp member with rfl | member
    · cases state with
      | closed => cases taken
      | opened => rfl
    cases List.mem_singleton.mp member
    cases state with
    | closed => cases taken
    | opened => rfl
  · intro state first later clause block rival carried after found spelled
      member rivals
    obtain ⟨carrier, foundCarrier, taken, clauseMember⟩ := carried
    match later with
    | 0 => exact absurd after (Nat.not_lt_zero first)
    | 1 =>
        cases Nat.lt_one_iff.mp after
        cases foundCarrier
        cases found
        cases state with
        | closed => exact absurd spelled (by decide)
        | opened => cases taken
    | 2 =>
        cases found
        cases List.mem_singleton.mp member
        cases rivals
        match first with
        | 0 =>
            cases foundCarrier
            simp at clauseMember
        | 1 =>
            cases foundCarrier
            simp at clauseMember
        | index + 2 => exact absurd after (by omega)
    | index + 3 => cases found

theorem farewell_keepsClauses :
    (written (.exit (word "greet"))).KeepsClauses DoorEvent DoorContext
      DoorAction (spec none (some (word "greet"))) statePatterns := by
  have reads := reads_tokens (word "on_exit") (word "greet") _ (.exit rfl rfl)
  have : Nonempty DoorContext := ⟨{}⟩
  exact (Table.keepsClauses_iff reads
    (FsmSpec.parse_ok_iff.mpr ⟨_, reads, rfl⟩) statePatterns_derives
    ⟨meaning, 0, built_spec none (some (word "greet"))⟩).mpr
      farewell_undropped

theorem jammed_not_keepsClauses :
    ¬ ∀ (table : Table Ident Ident) (parsed : FsmSpec Ident Ident),
      Table.Reads syn (tableTokens (word "on_entry") (word "jam")) table →
        FsmSpec.parse syn (tableTokens (word "on_entry") (word "jam")) =
            .ok parsed →
          table.KeepsClauses DoorEvent DoorContext DoorAction parsed
            statePatterns := by
  intro keeps
  have reads := reads_tokens (word "on_entry") (word "jam") _ (.entry rfl rfl)
  obtain ⟨machine, built⟩ := built_spec (some (word "jam")) none
  have undropped := Table.undropped_of_keepsClauses {} rfl
    statePatterns_derives built
    (keeps _ _ reads (FsmSpec.parse_ok_iff.mpr ⟨_, reads, rfl⟩))
  exact undropped.last .opened 1 2 (.entry (word "greet")) _
    (.entry (word "jam")) ⟨_, rfl, by decide, by simp⟩ (by decide) rfl rfl
    (by simp) (.entry _ _)

end Door

end ObzenflowFsm
