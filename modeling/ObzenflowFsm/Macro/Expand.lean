import ObzenflowFsm.Builder.Validation
import ObzenflowFsm.Macro.Syntax

namespace ObzenflowFsm

open Registry

variable {Ty Ex S E C A : Type}

/-! ### The code a table expands to -/

/-- The builder methods, as the expansion calls them by name. -/
inductive MethodCall (Ex : Type) where
  | whenUnhandled (handler : Ex)
  | onEntry (stateName : String) (handler : Ex)
  | onExit (stateName : String) (handler : Ex)
  | when (stateName : String)
  | timeout (duration handler : Ex)
  | on (eventName : String) (handler : Ex)
  | done

/-- `matches!` checks that only have to compile, and blocks in which a builder
is assigned one chain of calls after the other. -/
inductive Stmt (Ex : Type) where
  | checkState (path : ExprPath)
  | checkEvent (path : ExprPath)
  | rebuild (assignments : List (List (MethodCall Ex)))

structure Expansion (Ty Ex : Type) where
  requireDerivedState : Ty
  requireDerivedEvent : Ty
  builderTypes : Ty × Ty × Ty × Ty
  initial : Ex
  stmts : List (Stmt Ex)

namespace StateBlock

def stateName (block : StateBlock Ex) : String :=
  block.statePath.dispatchName

def onChain (block : StateBlock Ex) : List (MethodCall Ex) :=
  block.handlers.map fun on => .on on.eventPath.dispatchName on.handler

def timeoutChain (block : StateBlock Ex) : List (MethodCall Ex) :=
  match block.timeout with
  | some timeout =>
      [.when block.stateName, .timeout timeout.duration timeout.handler]
  | none => [.when block.stateName]

def entryExitStmts (block : StateBlock Ex) : List (List (MethodCall Ex)) :=
  block.entry.toList.map (fun handler => [.onEntry block.stateName handler]) ++
    block.exit.toList.map fun handler => [.onExit block.stateName handler]

def stmts (block : StateBlock Ex) : List (Stmt Ex) :=
  .checkState block.statePath ::
    (block.handlers.map fun on => .checkEvent on.eventPath) ++
    [.rebuild (block.entryExitStmts ++
      [block.timeoutChain ++ block.onChain ++ [.done]])]

end StateBlock

def expandFsmSpec (spec : FsmSpec Ty Ex) : Expansion Ty Ex where
  requireDerivedState := spec.stateTy
  requireDerivedEvent := spec.eventTy
  builderTypes := (spec.stateTy, spec.eventTy, spec.contextTy, spec.actionTy)
  initial := spec.initialExpr
  stmts :=
    spec.unhandled.toList.map (fun handler => .rebuild [[.whenUnhandled handler]]) ++
      spec.states.flatMap StateBlock.stmts

/-! ### What the code builds -/

/-- What the expressions of a table evaluate to where the macro is invoked. -/
structure Meaning (S E C A Ex : Type) where
  state : Ex → S
  duration : Ex → Duration
  transition : Ex → TransitionHandler S E C A
  timeout : Ex → TimeoutHandler S C A
  hook : Ex → StateHandler S C A
  unhandled : Ex → UnhandledHandler S E C

/-- A builder value, with the type its methods are looked up in. -/
structure Receiver (S E C A : Type) where
  stage : Stage
  chain : Chain S E C A stage

variable (meaning : Meaning S E C A Ex)

def MethodCall.invoke (receiver : Receiver S E C A) :
    MethodCall Ex → Option (Receiver S E C A)
  | .whenUnhandled handler =>
      match receiver with
      | ⟨.fsm, chain⟩ =>
          some ⟨.fsm, chain.call (.whenUnhandled (meaning.unhandled handler))⟩
      | _ => none
  | .onEntry stateName handler =>
      match receiver with
      | ⟨.fsm, chain⟩ =>
          some ⟨.fsm, chain.call (.onEntry stateName (meaning.hook handler))⟩
      | _ => none
  | .onExit stateName handler =>
      match receiver with
      | ⟨.fsm, chain⟩ =>
          some ⟨.fsm, chain.call (.onExit stateName (meaning.hook handler))⟩
      | _ => none
  | .when stateName =>
      match receiver with
      | ⟨.fsm, chain⟩ => some ⟨.when, chain.call (.when stateName)⟩
      | _ => none
  | .timeout duration handler =>
      match receiver with
      | ⟨.when, chain⟩ =>
          some ⟨.timeout, chain.call
            (.timeout (meaning.duration duration) (meaning.timeout handler))⟩
      | _ => none
  | .on eventName handler =>
      match receiver with
      | ⟨.when, chain⟩ =>
          some ⟨.when, chain.call
            (.whenOn eventName (meaning.transition handler))⟩
      | ⟨.timeout, chain⟩ =>
          some ⟨.timeout, chain.call
            (.timeoutOn eventName (meaning.transition handler))⟩
      | _ => none
  | .done =>
      match receiver with
      | ⟨.when, chain⟩ => some ⟨.fsm, chain.call .whenDone⟩
      | ⟨.timeout, chain⟩ => some ⟨.fsm, chain.call .timeoutDone⟩
      | _ => none

def Receiver.builder : Receiver S E C A → Option (Chain S E C A .fsm)
  | ⟨.fsm, chain⟩ => some chain
  | _ => none

/-- `b = b.calls;`, where `b` keeps its type. -/
def assign (chain : Chain S E C A .fsm) (calls : List (MethodCall Ex)) :
    Option (Chain S E C A .fsm) :=
  (calls.foldlM (MethodCall.invoke meaning) ⟨.fsm, chain⟩).bind
    Receiver.builder

def Stmt.run (chain : Chain S E C A .fsm) :
    Stmt Ex → Option (Chain S E C A .fsm)
  | .checkState _ | .checkEvent _ => some chain
  | .rebuild assignments => assignments.foldlM (assign meaning) chain

def Expansion.chain (expansion : Expansion Ty Ex) :
    Option (Chain S E C A .fsm) :=
  expansion.stmts.foldlM (Stmt.run meaning)
    (.new (meaning.state expansion.initial))

/-- The value of the block, which ends in `builder.build()`. -/
def Expansion.build [StateVariant S] (expansion : Expansion Ty Ex)
    (now : Instant) : Option (Except String (StateMachine S E C A)) :=
  (expansion.chain meaning).map fun chain => Checked.build chain.eval now

/-! ### What a table registers -/

def Via.stage : Via → Stage
  | .when => .when
  | .timeout => .timeout

namespace StateBlock

variable (block : StateBlock Ex)

/-- The method that registers the rows of a block: behind a timeout they go
through `TimeoutBuilder::on`. -/
def via : Via :=
  match block.timeout with
  | some _ => .timeout
  | none => .when

def rows : List (Row S E C A) :=
  block.handlers.map fun on =>
    ⟨block.via, (block.stateName, on.eventPath.dispatchName),
      meaning.transition on.handler⟩

def timeouts : List (String × Duration × TimeoutHandler S C A) :=
  block.timeout.toList.map fun timeout =>
    (block.stateName, meaning.duration timeout.duration,
      meaning.timeout timeout.handler)

def entries : List (String × StateHandler S C A) :=
  block.entry.toList.map fun handler =>
    (block.stateName, meaning.hook handler)

def exits : List (String × StateHandler S C A) :=
  block.exit.toList.map fun handler => (block.stateName, meaning.hook handler)

end StateBlock

def FsmSpec.registrations (spec : FsmSpec Ty Ex) : Registrations S E C A where
  rows := spec.states.flatMap (StateBlock.rows meaning)
  timeouts := spec.states.flatMap (StateBlock.timeouts meaning)
  entries := spec.states.flatMap (StateBlock.entries meaning)
  exits := spec.states.flatMap (StateBlock.exits meaning)
  unhandled := spec.unhandled.map meaning.unhandled

def FsmSpec.timeouts (spec : FsmSpec Ty Ex) :
    List (String × TimeoutSpec Ex) :=
  spec.states.flatMap fun block =>
    block.timeout.toList.map (block.stateName, ·)

theorem FsmSpec.latest_registered_timeouts (spec : FsmSpec Ty Ex)
    (name : String) :
    latest (spec.registrations meaning).timeouts name =
      (latest spec.timeouts name).map fun timeout =>
        (meaning.duration timeout.duration,
          meaning.timeout timeout.handler) := by
  rw [← latest_map_values]
  simp only [registrations, timeouts, List.map_flatMap, List.map_map]
  rfl

/-! ### The code registers what the table says -/

def Registrations.append (first second : Registrations S E C A) :
    Registrations S E C A where
  rows := first.rows ++ second.rows
  timeouts := first.timeouts ++ second.timeouts
  entries := first.entries ++ second.entries
  exits := first.exits ++ second.exits
  unhandled := second.unhandled.or first.unhandled

theorem Registrations.append_assoc (first second third :
    Registrations S E C A) :
    (first.append second).append third =
      first.append (second.append third) := by
  simp only [Registrations.append, List.append_assoc, Option.or_assoc]

theorem Registrations.append_empty (registrations : Registrations S E C A) :
    registrations.append {} = registrations := by
  simp only [Registrations.append, List.append_nil, Option.none_or]

theorem Registrations.empty_append (registrations : Registrations S E C A) :
    Registrations.append {} registrations = registrations := by
  simp only [Registrations.append, List.nil_append, Option.or_none]

/-- Running part of the code turns one chain into the other, which registers
so much more. -/
structure Chain.Extends (before : Chain S E C A stage)
    (added : Registrations S E C A) (after : Chain S E C A later) : Prop where
  registrations : after.registrations = before.registrations.append added
  initialState : after.initialState = before.initialState

theorem Chain.Extends.trans {before : Chain S E C A stage}
    {between : Chain S E C A middle} {after : Chain S E C A later}
    {first second : Registrations S E C A}
    (head : before.Extends first between)
    (tail : between.Extends second after) :
    before.Extends (first.append second) after where
  registrations := by
    rw [tail.registrations, head.registrations, Registrations.append_assoc]
  initialState := tail.initialState.trans head.initialState

theorem Chain.Extends.refl (chain : Chain S E C A stage) :
    chain.Extends {} chain where
  registrations := chain.registrations.append_empty.symm
  initialState := rfl

def onCall (eventName : String) (handler : TransitionHandler S E C A) :
    (via : Via) → BuilderCall S E C A via.stage via.stage
  | .when => .whenOn eventName handler
  | .timeout => .timeoutOn eventName handler

theorem invoke_on (via : Via) (chain : Chain S E C A via.stage)
    (eventName : String) (handler : Ex) :
    MethodCall.invoke meaning ⟨via.stage, chain⟩ (.on eventName handler) =
      some ⟨via.stage,
        chain.call (onCall eventName (meaning.transition handler) via)⟩ := by
  cases via with
  | when => rfl
  | timeout => rfl

theorem extends_onCall (via : Via) (chain : Chain S E C A via.stage)
    (eventName : String) (handler : TransitionHandler S E C A) :
    chain.Extends { rows := [⟨via, (chain.blockName, eventName), handler⟩] }
      (chain.call (onCall eventName handler via)) where
  registrations := by
    cases via with
    | when =>
        simp [Chain.registrations, onCall, BuilderCall.register,
          Registrations.append]
    | timeout =>
        simp [Chain.registrations, onCall, BuilderCall.register,
          Registrations.append]
  initialState := rfl

theorem blockName_onCall (via : Via) (chain : Chain S E C A via.stage)
    (eventName : String) (handler : TransitionHandler S E C A) :
    (chain.call (onCall eventName handler via)).blockName =
      chain.blockName := by
  cases via with
  | when => rfl
  | timeout => rfl

theorem run_onChain (via : Via) (handlers : List (OnHandler Ex))
    (chain : Chain S E C A via.stage) :
    ∃ after : Chain S E C A via.stage,
      (handlers.map fun on =>
          MethodCall.on on.eventPath.dispatchName on.handler).foldlM
            (MethodCall.invoke meaning) ⟨via.stage, chain⟩ =
          some ⟨via.stage, after⟩ ∧
        chain.Extends
          { rows := handlers.map fun on =>
              ⟨via, (chain.blockName, on.eventPath.dispatchName),
                meaning.transition on.handler⟩ }
          after := by
  induction handlers generalizing chain with
  | nil => exact ⟨chain, rfl, .refl chain⟩
  | cons on rest induction =>
      obtain ⟨after, ran, extended⟩ := induction
        (chain.call (onCall on.eventPath.dispatchName
          (meaning.transition on.handler) via))
      refine ⟨after, ?_, ?_⟩
      · rw [List.map_cons, List.foldlM_cons, invoke_on]
        exact ran
      · have whole := (extends_onCall via chain on.eventPath.dispatchName
          (meaning.transition on.handler)).trans extended
        rw [blockName_onCall] at whole
        exact whole

namespace StateBlock

variable (block : StateBlock Ex)

def registrations : Registrations S E C A where
  rows := block.rows meaning
  timeouts := block.timeouts meaning
  entries := block.entries meaning
  exits := block.exits meaning

theorem run_entry (chain : Chain S E C A .fsm) :
    ∃ after,
      (block.entry.toList.map fun handler =>
          [MethodCall.onEntry block.stateName handler]).foldlM
            (assign meaning) chain = some after ∧
        chain.Extends { entries := block.entries meaning } after := by
  unfold entries
  cases block.entry with
  | none => exact ⟨chain, rfl, .refl chain⟩
  | some handler =>
      refine ⟨chain.call (.onEntry block.stateName (meaning.hook handler)),
        rfl, ?_, rfl⟩
      simp [Chain.registrations, BuilderCall.register, Registrations.append]

theorem run_exit (chain : Chain S E C A .fsm) :
    ∃ after,
      (block.exit.toList.map fun handler =>
          [MethodCall.onExit block.stateName handler]).foldlM
            (assign meaning) chain = some after ∧
        chain.Extends { exits := block.exits meaning } after := by
  unfold exits
  cases block.exit with
  | none => exact ⟨chain, rfl, .refl chain⟩
  | some handler =>
      refine ⟨chain.call (.onExit block.stateName (meaning.hook handler)),
        rfl, ?_, rfl⟩
      simp [Chain.registrations, BuilderCall.register, Registrations.append]

theorem run_timeoutChain (chain : Chain S E C A .fsm) :
    ∃ opened : Chain S E C A block.via.stage,
      block.timeoutChain.foldlM (MethodCall.invoke meaning) ⟨.fsm, chain⟩ =
          some ⟨block.via.stage, opened⟩ ∧
        chain.Extends { timeouts := block.timeouts meaning } opened ∧
        opened.blockName = block.stateName := by
  unfold timeoutChain timeouts via
  cases block.timeout with
  | none =>
      refine ⟨chain.call (.when block.stateName), rfl, ⟨?_, rfl⟩, rfl⟩
      simp [Chain.registrations, BuilderCall.register, Registrations.append]
  | some timeout =>
      refine ⟨(chain.call (.when block.stateName)).call
        (.timeout (meaning.duration timeout.duration)
          (meaning.timeout timeout.handler)), rfl, ⟨?_, rfl⟩, rfl⟩
      simp [Chain.registrations, Chain.blockName, BuilderCall.register,
        Registrations.append]

end StateBlock

theorem run_done (via : Via) (chain : Chain S E C A via.stage) :
    ∃ closed : Chain S E C A .fsm,
      MethodCall.invoke meaning ⟨via.stage, chain⟩ .done =
          some ⟨.fsm, closed⟩ ∧
        chain.Extends {} closed := by
  cases via with
  | when =>
      exact ⟨chain.call .whenDone, rfl,
        chain.registrations.append_empty.symm, rfl⟩
  | timeout =>
      exact ⟨chain.call .timeoutDone, rfl,
        chain.registrations.append_empty.symm, rfl⟩

namespace StateBlock

variable (block : StateBlock Ex)

/-- The chained calls of a block are well typed, whatever they start from. -/
theorem assign_chain (chain : Chain S E C A .fsm) :
    ∃ after,
      assign meaning chain
          (block.timeoutChain ++ block.onChain ++ [.done]) = some after ∧
        chain.Extends
          { rows := block.rows meaning, timeouts := block.timeouts meaning }
          after := by
  obtain ⟨opened, openRan, openExtended, named⟩ :=
    block.run_timeoutChain meaning chain
  obtain ⟨filled, fillRan, fillExtended⟩ :=
    run_onChain meaning block.via block.handlers opened
  obtain ⟨closed, closeRan, closeExtended⟩ := run_done meaning block.via filled
  refine ⟨closed, ?_, ?_⟩
  · have whole : (block.timeoutChain ++ block.onChain ++ [MethodCall.done]).foldlM
        (MethodCall.invoke meaning) ⟨.fsm, chain⟩ = some ⟨.fsm, closed⟩ := by
      rw [List.foldlM_append, List.foldlM_append, openRan]
      change ((block.handlers.map fun on =>
        MethodCall.on on.eventPath.dispatchName on.handler).foldlM
          (MethodCall.invoke meaning) ⟨block.via.stage, opened⟩).bind _ = _
      rw [fillRan]
      change (MethodCall.invoke meaning ⟨block.via.stage, filled⟩ .done).bind
        some = _
      rw [closeRan]
      rfl
    rw [assign, whole]
    rfl
  · have extended := (openExtended.trans fillExtended).trans closeExtended
    rw [named, Registrations.append_empty] at extended
    simpa [Registrations.append, rows] using extended

theorem run_checks (chain : Chain S E C A .fsm) :
    (Stmt.checkState block.statePath ::
        block.handlers.map fun on => Stmt.checkEvent on.eventPath).foldlM
          (Stmt.run meaning) chain = some chain := by
  rw [List.foldlM_cons]
  change (block.handlers.map _).foldlM (Stmt.run meaning) chain = some chain
  induction block.handlers with
  | nil => rfl
  | cons on rest induction =>
      rw [List.map_cons, List.foldlM_cons]
      exact induction

theorem run_stmts (chain : Chain S E C A .fsm) :
    ∃ after, block.stmts.foldlM (Stmt.run meaning) chain = some after ∧
      chain.Extends (block.registrations meaning) after := by
  obtain ⟨entered, entryRan, entryExtended⟩ := block.run_entry meaning chain
  obtain ⟨left, exitRan, exitExtended⟩ := block.run_exit meaning entered
  obtain ⟨after, chainRan, chainExtended⟩ := block.assign_chain meaning left
  refine ⟨after, ?_, ?_⟩
  · have rebuilt : Stmt.run meaning chain (.rebuild (block.entryExitStmts ++
        [block.timeoutChain ++ block.onChain ++ [.done]])) = some after := by
      rw [Stmt.run, entryExitStmts, List.foldlM_append, List.foldlM_append,
        entryRan]
      change ((block.exit.toList.map fun handler =>
        [MethodCall.onExit block.stateName handler]).foldlM
          (assign meaning) entered).bind _ = _
      rw [exitRan]
      change (assign meaning left _).bind some = _
      rw [chainRan]
      rfl
    rw [stmts, List.foldlM_append, block.run_checks meaning chain]
    change (Stmt.run meaning chain _).bind some = _
    rw [rebuilt]
    rfl
  · have extended := (entryExtended.trans exitExtended).trans chainExtended
    simpa [Registrations.append, registrations] using extended

end StateBlock

def blocksRegistrations (blocks : List (StateBlock Ex)) :
    Registrations S E C A where
  rows := blocks.flatMap (StateBlock.rows meaning)
  timeouts := blocks.flatMap (StateBlock.timeouts meaning)
  entries := blocks.flatMap (StateBlock.entries meaning)
  exits := blocks.flatMap (StateBlock.exits meaning)

theorem run_blocks (blocks : List (StateBlock Ex))
    (chain : Chain S E C A .fsm) :
    ∃ after,
      (blocks.flatMap StateBlock.stmts).foldlM (Stmt.run meaning) chain =
          some after ∧
        chain.Extends (blocksRegistrations meaning blocks) after := by
  induction blocks generalizing chain with
  | nil => exact ⟨chain, rfl, .refl chain⟩
  | cons block rest induction =>
      obtain ⟨between, blockRan, blockExtended⟩ := block.run_stmts meaning chain
      obtain ⟨after, restRan, restExtended⟩ := induction between
      refine ⟨after, ?_, blockExtended.trans restExtended⟩
      rw [List.flatMap_cons, List.foldlM_append, blockRan]
      exact restRan

/-- Every expansion type checks as a chain of builder calls, which registers
what the table says. -/
theorem FsmSpec.expandFsmSpec_chain (spec : FsmSpec Ty Ex) :
    ∃ chain, (expandFsmSpec spec).chain meaning = some chain ∧
      chain.registrations = spec.registrations meaning ∧
      chain.initialState = meaning.state spec.initialExpr := by
  obtain ⟨absorbing, unhandledRan, unhandledExtended⟩ :
      ∃ absorbing,
        (spec.unhandled.toList.map fun handler =>
            Stmt.rebuild [[.whenUnhandled handler]]).foldlM (Stmt.run meaning)
              (Chain.new (meaning.state spec.initialExpr)) =
            some absorbing ∧
          (Chain.new (meaning.state spec.initialExpr)).Extends
            { unhandled := spec.unhandled.map meaning.unhandled }
            absorbing := by
    cases spec.unhandled with
    | none => exact ⟨_, rfl, .refl _⟩
    | some handler =>
        exact ⟨(Chain.new (meaning.state spec.initialExpr)).call
          (.whenUnhandled (meaning.unhandled handler)), rfl, rfl, rfl⟩
  obtain ⟨chain, blocksRan, blocksExtended⟩ :=
    run_blocks meaning spec.states absorbing
  have extended := unhandledExtended.trans blocksExtended
  refine ⟨chain, ?_, ?_, extended.initialState⟩
  · rw [Expansion.chain, expandFsmSpec, List.foldlM_append, unhandledRan]
    exact blocksRan
  · rw [extended.registrations, Chain.registrations,
      Registrations.empty_append]
    simp [Registrations.append, blocksRegistrations, FsmSpec.registrations]

/-! ### What becomes of the chain -/

section Build

variable [StateVariant S]

theorem Checked.build_ok_iff (builder : FsmBuilder S E C A)
    (now : Instant) {machine : StateMachine S E C A} :
    Checked.build builder now = .ok machine ↔
      Checked.tryBuild builder now = .ok machine := by
  unfold Checked.build
  cases Checked.tryBuild builder now with
  | ok built => simp
  | error interruption =>
      cases interruption with
      | returned error => simp
      | panicked => simp

theorem FsmSpec.build_ok_iff (spec : FsmSpec Ty Ex) (now : Instant)
    {machine : StateMachine S E C A} :
    (expandFsmSpec spec).build meaning now = some (.ok machine) ↔
      ∃ chain, (expandFsmSpec spec).chain meaning = some chain ∧
        Checked.tryBuild chain.eval now = .ok machine := by
  simp only [Expansion.build, Option.map_eq_some_iff, Checked.build_ok_iff]

/-- The deadline of the initial state, by the last timeout written for it, is
not representable. -/
def FsmSpec.InitialOverflows (spec : FsmSpec Ty Ex) (now : Instant) : Prop :=
  ∃ timeout,
    latest spec.timeouts
        (StateVariant.variantName (meaning.state spec.initialExpr)) =
      some timeout ∧
    ¬ Instant.Representable (now + meaning.duration timeout.duration)

theorem FsmSpec.initialOverflows_iff {spec : FsmSpec Ty Ex} {now : Instant}
    {chain : Chain S E C A .fsm}
    (registered : chain.registrations = spec.registrations meaning)
    (initial : chain.initialState = meaning.state spec.initialExpr) :
    chain.InitialOverflows now ↔
      (spec.registrations meaning).firstRecorded = none ∧
        spec.InitialOverflows meaning now := by
  simp only [Chain.InitialOverflows, InitialOverflows, registered, initial,
    spec.latest_registered_timeouts, Option.map_eq_some_iff]
  refine and_congr_right fun _ => ?_
  constructor
  · intro overflows
    obtain ⟨_, ⟨timeout, found, rfl⟩, large⟩ := overflows
    exact ⟨timeout, found, large⟩
  · intro overflows
    obtain ⟨timeout, found, large⟩ := overflows
    exact ⟨_, ⟨timeout, found, rfl⟩, large⟩

theorem FsmSpec.exists_build_iff (spec : FsmSpec Ty Ex) (now : Instant) :
    (∃ machine : StateMachine S E C A,
        (expandFsmSpec spec).build meaning now = some (.ok machine)) ↔
      (spec.registrations meaning).firstRecorded = none ∧
        (spec.registrations meaning).Serves
          (StateVariant.variantName (meaning.state spec.initialExpr)) ∧
        ¬ spec.InitialOverflows meaning now := by
  obtain ⟨chain, expanded, registered, initial⟩ :=
    spec.expandFsmSpec_chain meaning
  simp only [spec.build_ok_iff, expanded, Option.some.injEq, exists_eq_left',
    chain.checked_built_iff, chain.accepted_iff,
    initialOverflows_iff meaning registered initial, ← registered, ← initial]
  constructor
  · intro found
    obtain ⟨machine, accepted, fits⟩ := found
    exact ⟨accepted.unrecorded, accepted.serves,
      fun overflows => fits ⟨accepted.unrecorded, overflows⟩⟩
  · intro allowed
    obtain ⟨unrecorded, serves, fits⟩ := allowed
    exact ⟨chain.eval.machine now, ⟨unrecorded, serves, rfl⟩,
      fun overflows => fits overflows.2⟩

theorem FsmSpec.chain_of_build {spec : FsmSpec Ty Ex} {now : Instant}
    {machine : StateMachine S E C A}
    (built : (expandFsmSpec spec).build meaning now = some (.ok machine)) :
    ∃ chain : Chain S E C A .fsm,
      Checked.tryBuild chain.eval now = .ok machine ∧
        chain.registrations = spec.registrations meaning ∧
        chain.initialState = meaning.state spec.initialExpr := by
  obtain ⟨chain, expanded, registered, initial⟩ :=
    spec.expandFsmSpec_chain meaning
  obtain ⟨other, otherExpanded, accepted⟩ :=
    (spec.build_ok_iff meaning now).mp built
  cases expanded.symm.trans otherExpanded
  exact ⟨chain, accepted, registered, initial⟩

theorem FsmSpec.hold_of_build {spec : FsmSpec Ty Ex} {now : Instant}
    {machine : StateMachine S E C A}
    (built : (expandFsmSpec spec).build meaning now = some (.ok machine)) :
    machine.toTables.Hold (spec.registrations meaning) := by
  obtain ⟨chain, accepted, registered, _⟩ := chain_of_build meaning built
  rw [← registered]
  exact chain.hold_of_built ((chain.checked_built_iff now).mp accepted).1

end Build

end ObzenflowFsm
