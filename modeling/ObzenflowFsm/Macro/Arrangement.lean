import ObzenflowFsm.Macro.Clauses

namespace ObzenflowFsm

open Parsing

variable {Ty Ex Value : Type}

/-! The ways in which a specification can be written down as a table: its
blocks and rows in order, anything else wherever it may stand. -/

def Item.asUnhandled : Item Ex → Option Ex
  | .state _ _ => none
  | .unhandled handler => some handler

/-- These are the clauses of the block, its rows in order. -/
structure StateBlock.Arranges (block : StateBlock Ex)
    (written : List (Clause Ex)) : Prop where
  rows : written.filterMap Clause.asOn = block.handlers
  timeout : written.filterMap Clause.asTimeout = block.timeout.toList
  entry : written.filterMap Clause.asEntry = block.entry.toList
  exit : written.filterMap Clause.asExit = block.exit.toList

def FsmSpec.header (spec : FsmSpec Ty Ex) : Header Ty Ex where
  stateTy := spec.stateTy
  eventTy := spec.eventTy
  contextTy := spec.contextTy
  actionTy := spec.actionTy
  initialExpr := spec.initialExpr

/-- The table is the specification, with its blocks in order. -/
structure FsmSpec.Arranges (spec : FsmSpec Ty Ex) (written : Table Ty Ex) :
    Prop where
  header : written.header = spec.header
  blocks : List.Forall₂
    (fun block parsed =>
      parsed.statePath = block.1 ∧ parsed.Arranges block.2)
    written.blocks spec.states
  unhandled : written.items.filterMap Item.asUnhandled = spec.unhandled.toList

/-- At most one clause of each kind that a block, or the table, has one of. -/
structure Table.Admissible (written : Table Ty Ex) : Prop where
  timeouts : ∀ block ∈ written.blocks,
    (block.2.filterMap Clause.asTimeout).length ≤ 1
  entries : ∀ block ∈ written.blocks,
    (block.2.filterMap Clause.asEntry).length ≤ 1
  exits : ∀ block ∈ written.blocks,
    (block.2.filterMap Clause.asExit).length ≤ 1
  unhandled : (written.items.filterMap Item.asUnhandled).length ≤ 1

/-! ### What parsing assembles -/

theorem toList_inj {first second : Option Value} :
    first.toList = second.toList ↔ first = second := by
  cases first with
  | none => cases second <;> simp
  | some value => cases second <;> simp

theorem toList_ne_cons_cons (held : Option Value) (first second : Value)
    (rest : List Value) : held.toList ≠ first :: second :: rest := by
  cases held with
  | none => simp
  | some value => simp

/-- The clauses of a block are collected kind by kind; a second one of a kind
that a block has one of is refused. -/
theorem BlockClauses.foldlM_add_iff {written : List (Clause Ex)}
    {held final : BlockClauses Ex} :
    written.foldlM BlockClauses.add held = some final ↔
      held.handlers ++ written.filterMap Clause.asOn = final.handlers ∧
        held.timeout.toList ++ written.filterMap Clause.asTimeout =
          final.timeout.toList ∧
        held.entry.toList ++ written.filterMap Clause.asEntry =
          final.entry.toList ∧
        held.exit.toList ++ written.filterMap Clause.asExit =
          final.exit.toList := by
  induction written generalizing held with
  | nil =>
      obtain ⟨handlers, timeout, entry, exit⟩ := held
      obtain ⟨finalHandlers, finalTimeout, finalEntry, finalExit⟩ := final
      simp [toList_inj]
  | cons clause rest induction =>
      obtain ⟨handlers, timeout, entry, exit⟩ := held
      rw [List.foldlM_cons]
      cases clause with
      | on handler =>
          simp [add, induction, List.filterMap_cons, Clause.asOn,
            Clause.asTimeout, Clause.asEntry, Clause.asExit]
      | timeout given =>
          cases timeout with
          | none =>
              simp [add, induction, List.filterMap_cons, Clause.asOn,
                Clause.asTimeout, Clause.asEntry, Clause.asExit]
          | some first =>
              simp [add, List.filterMap_cons, Clause.asTimeout,
                (toList_ne_cons_cons _ _ _ _).symm]
      | entry given =>
          cases entry with
          | none =>
              simp [add, induction, List.filterMap_cons, Clause.asOn,
                Clause.asTimeout, Clause.asEntry, Clause.asExit]
          | some first =>
              simp [add, List.filterMap_cons, Clause.asEntry,
                (toList_ne_cons_cons _ _ _ _).symm]
      | exit given =>
          cases exit with
          | none =>
              simp [add, induction, List.filterMap_cons, Clause.asOn,
                Clause.asTimeout, Clause.asEntry, Clause.asExit]
          | some first =>
              simp [add, List.filterMap_cons, Clause.asExit,
                (toList_ne_cons_cons _ _ _ _).symm]

theorem BlockClauses.ofWritten_eq_some_iff {written : List (Clause Ex)}
    {clauses : BlockClauses Ex} (path : ExprPath) :
    BlockClauses.ofWritten written = some clauses ↔
      (clauses.block path).Arranges written := by
  rw [BlockClauses.ofWritten, foldlM_add_iff]
  constructor
  · intro collected
    obtain ⟨rows, timeout, entry, exit⟩ := collected
    exact ⟨rows, timeout, entry, exit⟩
  · intro arranges
    exact ⟨arranges.rows, arranges.timeout, arranges.entry, arranges.exit⟩

/-- The table's blocks are kept in order, and its unhandled clauses collected. -/
theorem TableBody.foldlM_add_iff (header : Header Ty Ex)
    {items : List (Item Ex)} {held final : TableBody Ex} :
    items.foldlM TableBody.add held = some final ↔
      (∃ states, held.states ++ states = final.states ∧
        List.Forall₂
          (fun block parsed =>
            parsed.statePath = block.1 ∧ parsed.Arranges block.2)
          (Table.mk header items).blocks states) ∧
        held.unhandled.toList ++ items.filterMap Item.asUnhandled =
          final.unhandled.toList := by
  induction items generalizing held with
  | nil =>
      obtain ⟨states, unhandled⟩ := held
      obtain ⟨finalStates, finalUnhandled⟩ := final
      simp [toList_inj, Table.blocks]
  | cons item rest induction =>
      obtain ⟨states, unhandled⟩ := held
      rw [List.foldlM_cons]
      cases item with
      | state path clauses =>
          have blocks : (Table.mk header (.state path clauses :: rest)).blocks =
              (path, clauses) :: (Table.mk header rest).blocks := rfl
          rw [blocks]
          constructor
          · intro added
            obtain ⟨next, first, remaining⟩ := Option.bind_eq_some_iff.mp added
            obtain ⟨parsed, assembled, rfl⟩ := Option.map_eq_some_iff.mp first
            obtain ⟨⟨later, grown, related⟩, collected⟩ :=
              induction.mp remaining
            refine ⟨⟨parsed.block path :: later, ?_, .cons ⟨rfl, ?_⟩ related⟩,
              collected⟩
            · rw [← grown, List.append_assoc]
              rfl
            · exact (BlockClauses.ofWritten_eq_some_iff path).mp assembled
          · intro kept
            obtain ⟨⟨_, grown, related⟩, collected⟩ := kept
            cases related with
            | cons first related =>
                rename_i parsed later
                obtain ⟨rfl, arranges⟩ := first
                have assembled : BlockClauses.ofWritten clauses =
                    some ⟨parsed.handlers, parsed.timeout, parsed.entry,
                      parsed.exit⟩ :=
                  (BlockClauses.ofWritten_eq_some_iff parsed.statePath).mpr
                    arranges
                rw [add, assembled]
                refine induction.mpr ⟨⟨later, ?_, related⟩, collected⟩
                rw [← grown, List.append_assoc]
                rfl
      | unhandled given =>
          cases unhandled with
          | none =>
              simp [add, induction, Item.asUnhandled, Table.blocks]
          | some first =>
              simp [add, Item.asUnhandled, (toList_ne_cons_cons _ _ _ _).symm]

theorem Table.spec_eq_some_iff {written : Table Ty Ex}
    {spec : FsmSpec Ty Ex} :
    written.spec = some spec ↔ spec.Arranges written := by
  obtain ⟨header, items⟩ := written
  constructor
  · intro assembled
    obtain ⟨body, added, rfl⟩ := Option.map_eq_some_iff.mp assembled
    obtain ⟨⟨states, grown, related⟩, collected⟩ :=
      (TableBody.foldlM_add_iff header).mp added
    subst grown
    exact ⟨rfl, related, collected⟩
  · intro arranges
    obtain ⟨headed, related, collected⟩ := arranges
    refine Option.map_eq_some_iff.mpr ⟨⟨spec.states, spec.unhandled⟩, ?_, ?_⟩
    · exact (TableBody.foldlM_add_iff header).mpr
        ⟨⟨spec.states, rfl, related⟩, collected⟩
    · change header = spec.header at headed
      rw [headed]
      rfl

/-! ### The tables that are assembled -/

theorem eq_head?_toList {values : List Value} (few : values.length ≤ 1) :
    values = values.head?.toList := by
  match values with
  | [] => rfl
  | [value] => rfl
  | _ :: _ :: _ => simp at few

theorem toList_length_le (held : Option Value) : held.toList.length ≤ 1 := by
  cases held with
  | none => exact Nat.zero_le 1
  | some value => exact Nat.le_refl 1

theorem FsmSpec.Arranges.admissible {spec : FsmSpec Ty Ex}
    {written : Table Ty Ex} (arranges : spec.Arranges written) :
    written.Admissible := by
  have parsed : ∀ block ∈ written.blocks,
      ∃ parsed : StateBlock Ex, parsed.Arranges block.2 := by
    intro block member
    obtain ⟨index, bound, rfl⟩ := List.getElem_of_mem member
    have parsedBound := arranges.blocks.length_eq ▸ bound
    exact ⟨_, (arranges.blocks.get bound parsedBound).2⟩
  constructor
  · intro block member
    obtain ⟨_, kept⟩ := parsed block member
    exact kept.timeout ▸ toList_length_le _
  · intro block member
    obtain ⟨_, kept⟩ := parsed block member
    exact kept.entry ▸ toList_length_le _
  · intro block member
    obtain ⟨_, kept⟩ := parsed block member
    exact kept.exit ▸ toList_length_le _
  · exact arranges.unhandled ▸ toList_length_le _

/-- What an admissible block is a way of writing down. -/
def StateBlock.ofBlock (block : ExprPath × List (Clause Ex)) :
    StateBlock Ex where
  statePath := block.1
  handlers := block.2.filterMap Clause.asOn
  timeout := (block.2.filterMap Clause.asTimeout).head?
  entry := (block.2.filterMap Clause.asEntry).head?
  exit := (block.2.filterMap Clause.asExit).head?

theorem Table.Admissible.exists_arranges {written : Table Ty Ex}
    (admissible : written.Admissible) :
    ∃ spec : FsmSpec Ty Ex, spec.Arranges written := by
  refine ⟨written.header.spec ⟨written.blocks.map StateBlock.ofBlock,
    (written.items.filterMap Item.asUnhandled).head?⟩, rfl, ?_,
    eq_head?_toList admissible.unhandled⟩
  change List.Forall₂ _ written.blocks
    (written.blocks.map StateBlock.ofBlock)
  rw [List.forall₂_map_right_iff, List.forall₂_same]
  intro block member
  exact ⟨rfl, rfl, eq_head?_toList (admissible.timeouts block member),
    eq_head?_toList (admissible.entries block member),
    eq_head?_toList (admissible.exits block member)⟩

theorem Table.admissible_iff {written : Table Ty Ex} :
    written.Admissible ↔ ∃ spec : FsmSpec Ty Ex, spec.Arranges written := by
  constructor
  · intro admissible
    exact admissible.exists_arranges
  · intro arranged
    obtain ⟨spec, arranges⟩ := arranged
    exact arranges.admissible

/-- The specification written down block by block, `unhandled` last. -/
def FsmSpec.table (spec : FsmSpec Ty Ex) : Table Ty Ex where
  header := spec.header
  items :=
    spec.states.map (fun block => .state block.statePath block.clauses) ++
      spec.unhandled.toList.map .unhandled

theorem StateBlock.arranges_clauses (block : StateBlock Ex) :
    block.Arranges block.clauses :=
  ⟨block.filterMap_on, block.filterMap_timeout, block.filterMap_entry,
    block.filterMap_exit⟩

theorem FsmSpec.arranges_table (spec : FsmSpec Ty Ex) :
    spec.Arranges spec.table := by
  refine ⟨rfl, ?_, ?_⟩
  · have blocks : spec.table.blocks =
        spec.states.map fun block => (block.statePath, block.clauses) := by
      simp [Table.blocks, table, List.filterMap_append, List.filterMap_map]
    rw [blocks, List.forall₂_map_left_iff, List.forall₂_same]
    intro block _
    exact ⟨rfl, block.arranges_clauses⟩
  · simp [table, List.filterMap_append, List.filterMap_map, Function.comp_def,
      Item.asUnhandled]

/-! ### The grammar -/

/-- `name: value;` -/
inductive FieldReads {Value : Type} (name : String)
    (value : TokenParser Value) : List Token → Value → List Token → Prop
  | mk (named : word.toString = name)
      (valued : value tokens = .ok (parsed, .punct ';' stop :: rest)) :
      FieldReads name value (.ident word :: .punct ':' spacing :: tokens)
        parsed rest

inductive Header.Reads (syn : Syn Ty Ex) :
    List Token → Header Ty Ex → List Token → Prop
  | mk (state : FieldReads "state" syn.type tokens written.stateTy afterState)
      (event : FieldReads "event" syn.type afterState written.eventTy
        afterEvent)
      (context : FieldReads "context" syn.type afterEvent written.contextTy
        afterContext)
      (action : FieldReads "action" syn.type afterContext written.actionTy
        afterAction)
      (initial : FieldReads "initial" syn.expr afterAction
        written.initialExpr rest) :
      Reads syn tokens written rest

/-- The five fields of the header, then blocks and `unhandled` clauses up to
the end. -/
def Table.Spells (syn : Syn Ty Ex) (tokens : List Token)
    (written : Table Ty Ex) : Prop :=
  ∃ rest, Header.Reads syn tokens written.header rest ∧
    Sequence (Item.Reads syn) rest written.items

section Grammar

variable {syn : Syn Ty Ex} {tokens rest : List Token}

theorem headerField_ok_iff {Value : Type} {name : String}
    {value : TokenParser Value} {parsed : Value}
    (allowed : name ∉ rustKeywords) :
    headerField name value tokens = .ok (parsed, rest) ↔
      FieldReads name value tokens parsed rest := by
  constructor
  · intro read
    obtain ⟨word, middle, taken, continued⟩ := run_bind_ok_iff.mp read
    obtain ⟨rfl, _⟩ := ident_ok_iff.mp taken
    split at continued
    · rename_i named
      simp only [colon, semicolon, run_bind_ok_iff, punct_ok_iff,
        run_pure_ok_iff] at continued
      obtain ⟨_, _, ⟨spacing, rfl⟩, _, _, valued, _, _, ⟨stop, rfl⟩, rfl,
        rfl⟩ := continued
      exact .mk named valued
    · cases continued
  · intro reads
    cases reads with
    | mk named valued =>
        refine run_bind_ok_iff.mpr ⟨_, _, ident_ok_iff.mpr
          ⟨rfl, named ▸ allowed⟩, ?_⟩
        rw [if_pos named]
        simp only [colon, semicolon, run_bind_ok_iff, punct_ok_iff,
          run_pure_ok_iff]
        exact ⟨(), _, ⟨_, rfl⟩, _, _, valued, (), _, ⟨_, rfl⟩, rfl, rfl⟩

theorem header_ok_iff {parsed : Header Ty Ex} :
    header syn tokens = .ok (parsed, rest) ↔
      Header.Reads syn tokens parsed rest := by
  simp only [header, run_bind_ok_iff, run_pure_ok_iff]
  constructor
  · intro read
    obtain ⟨_, _, state, _, _, event, _, _, context, _, _, action, _, _,
      initial, rfl, rfl⟩ := read
    exact .mk ((headerField_ok_iff (by decide)).mp state)
      ((headerField_ok_iff (by decide)).mp event)
      ((headerField_ok_iff (by decide)).mp context)
      ((headerField_ok_iff (by decide)).mp action)
      ((headerField_ok_iff (by decide)).mp initial)
  · intro reads
    cases reads with
    | mk state event context action initial =>
        exact ⟨_, _, (headerField_ok_iff (by decide)).mpr state,
          _, _, (headerField_ok_iff (by decide)).mpr event,
          _, _, (headerField_ok_iff (by decide)).mpr context,
          _, _, (headerField_ok_iff (by decide)).mpr action,
          _, _, (headerField_ok_iff (by decide)).mpr initial, rfl, rfl⟩

theorem Table.reads_iff {written : Table Ty Ex} :
    Table.Reads syn tokens written ↔ Table.Spells syn tokens written := by
  simp only [Table.Reads, Table.Spells, header_ok_iff]

end Grammar

/-! ### Parsing ends -/

/-- The parsers of `syn` return, whatever they are given. -/
structure Syn.Returns (syn : Syn Ty Ex) : Prop where
  type : Avoids .unfinished syn.type
  expr : Avoids .unfinished syn.expr
  path : Avoids .unfinished syn.path

theorem avoids_ident : Avoids .unfinished ident := by
  intro tokens failed
  unfold ident at failed
  split at failed
  · split at failed
    · cases failed
    · cases failed
  · cases failed

theorem avoids_punct (char : Char) (text : String) :
    Avoids .unfinished (punct char text) := by
  intro tokens failed
  unfold punct at failed
  split at failed
  · split at failed
    · cases failed
    · cases failed
  · cases failed

theorem avoids_fatArrow : Avoids .unfinished fatArrow := by
  intro tokens failed
  unfold fatArrow at failed
  split at failed
  · cases failed
  · cases failed

theorem avoids_braced : Avoids .unfinished braced := by
  intro tokens failed
  unfold braced at failed
  split at failed
  · cases failed
  · cases failed

theorem avoids_within {Value : Type} {content : List Token}
    {parser : TokenParser Value} (avoids : Avoids .unfinished parser) :
    Avoids .unfinished (within content parser) := by
  intro tokens failed
  unfold within at failed
  cases parsed : parser content with
  | error error =>
      rw [parsed] at failed
      cases failed
      exact avoids content parsed
  | ok answer =>
      rw [parsed] at failed
      cases failed

theorem avoids_spanned {Value : Type} (message : String) :
    Avoids .unfinished
      (fail (.spanned message) : TokenParser Value) :=
  avoids_fail (by simp)

theorem avoids_headerField {Value : Type} (name : String)
    {value : TokenParser Value} (avoids : Avoids .unfinished value) :
    Avoids .unfinished (headerField name value) := by
  refine avoids_ident.bind fun _ => .ite ?_ (avoids_spanned _)
  refine (avoids_punct _ _).bind fun _ => avoids.bind fun _ => ?_
  exact (avoids_punct _ _).bind fun _ => avoids_pure _

namespace Syn.Returns

variable {syn : Syn Ty Ex} (returns : syn.Returns)

include returns

theorem hookHandler : Avoids .unfinished (hookHandler syn) :=
  returns.expr.bind fun _ => (avoids_punct _ _).bind fun _ => avoids_pure _

theorem unhandledHandler : Avoids .unfinished (unhandledHandler syn) :=
  avoids_fatArrow.bind fun _ => returns.hookHandler

theorem onHandler : Avoids .unfinished (onHandler syn) := by
  refine returns.path.bind fun _ => avoids_fatArrow.bind fun _ => ?_
  exact returns.expr.bind fun _ => (avoids_punct _ _).bind fun _ =>
    avoids_pure _

theorem timeoutSpec : Avoids .unfinished (timeoutSpec syn) := by
  refine returns.expr.bind fun _ => avoids_fatArrow.bind fun _ => ?_
  exact returns.expr.bind fun _ => (avoids_punct _ _).bind fun _ =>
    avoids_pure _

theorem blockClause (clauses : BlockClauses Ex) :
    Avoids .unfinished (blockClause syn clauses) := by
  have once {present : Bool} {message : String} {Value : Type}
      {parser : TokenParser Value} {next : Value → BlockClauses Ex}
      (avoids : Avoids .unfinished parser) :
      Avoids .unfinished
        (if present = true then fail (.spanned message)
          else parser >>= fun value => pure (next value)) :=
    .ite (avoids_spanned message) (avoids.bind fun _ => avoids_pure _)
  refine avoids_ident.bind fun _ => .ite ?_ (.ite ?_ (.ite ?_ (.ite ?_ ?_)))
  · exact returns.onHandler.bind fun _ => avoids_pure _
  · exact once returns.timeoutSpec
  · exact once returns.hookHandler
  · exact once returns.hookHandler
  · exact avoids_spanned _

theorem stateBlock : Avoids .unfinished (stateBlock syn) := by
  refine returns.path.bind fun _ => avoids_braced.bind fun content => ?_
  refine (avoids_within ?_).bind fun _ => avoids_pure _
  exact avoids_whileNonempty
    (consumes_of_reads (fun _ _ _ _ => blockClause_ok_iff)
      (fun _ _ _ (reads : Clause.Reads syn _ _ _) => reads.consumes))
    returns.blockClause {}

theorem tableItem (body : TableBody Ex) :
    Avoids .unfinished (tableItem syn body) := by
  refine avoids_ident.bind fun _ => .ite ?_ (.ite (.ite ?_ ?_) ?_)
  · exact returns.stateBlock.bind fun _ => avoids_pure _
  · exact avoids_spanned _
  · exact returns.unhandledHandler.bind fun _ => avoids_pure _
  · exact avoids_spanned _

theorem header : Avoids .unfinished (header syn) := by
  refine (avoids_headerField _ returns.type).bind fun _ => ?_
  refine (avoids_headerField _ returns.type).bind fun _ => ?_
  refine (avoids_headerField _ returns.type).bind fun _ => ?_
  refine (avoids_headerField _ returns.type).bind fun _ => ?_
  exact (avoids_headerField _ returns.expr).bind fun _ => avoids_pure _

theorem parse (tokens : List Token) :
    FsmSpec.parse syn tokens ≠ .error .unfinished := by
  have table : Avoids .unfinished (table syn) := by
    refine returns.header.bind fun _ => ?_
    refine Avoids.bind ?_ fun _ => avoids_pure _
    exact avoids_whileNonempty
      (consumes_of_reads (fun _ _ _ _ => tableItem_ok_iff)
        (fun _ _ _ (reads : Item.Reads syn _ _ _) => reads.consumes))
      returns.tableItem {}
  intro failed
  cases parsed : ObzenflowFsm.table syn tokens with
  | error error =>
      rw [FsmSpec.parse, parsed] at failed
      cases failed
      exact table tokens parsed
  | ok answer =>
      rw [FsmSpec.parse, parsed] at failed
      cases failed

end Syn.Returns

end ObzenflowFsm
