import ObzenflowFsm.Macro.Preservation
import ObzenflowFsm.Macro.Rendering

namespace ObzenflowFsm

open Parsing TimedMealy

variable {Ty Ex S E C A : Type}

/-! The macro from the tokens it is given to what its code does. -/

/-- `fsm!`, whose errors become errors of the compiler. -/
def fsm (syn : Syn Ty Ex) (tokens : List Token) :
    Except ParseError (Expansion Ty Ex) :=
  match FsmSpec.parse syn tokens with
  | .ok spec => .ok (expandFsmSpec spec)
  | .error error => .error error

/-! ### What is written, as registrations -/

section Written

variable (meaning : Meaning S E C A Ex)

/-- Rows that share their block with a timeout, wherever it stands, go through
`TimeoutBuilder::on`. -/
def Clause.viaOf (written : List (Clause Ex)) : Via :=
  if written.filterMap Clause.asTimeout = [] then .when else .timeout

/-- A table registers the clauses written in it, in the order they are. -/
def Table.registrations (written : Table Ty Ex) : Registrations S E C A where
  rows := written.blocks.flatMap fun block =>
    (block.2.filterMap Clause.asOn).map fun on =>
      ⟨Clause.viaOf block.2,
        (block.1.dispatchName, on.eventPath.dispatchName),
        meaning.transition on.handler⟩
  timeouts := written.blocks.flatMap fun block =>
    (block.2.filterMap Clause.asTimeout).map fun timeout =>
      (block.1.dispatchName, meaning.duration timeout.duration,
        meaning.timeout timeout.handler)
  entries := written.blocks.flatMap fun block =>
    (block.2.filterMap Clause.asEntry).map fun handler =>
      (block.1.dispatchName, meaning.hook handler)
  exits := written.blocks.flatMap fun block =>
    (block.2.filterMap Clause.asExit).map fun handler =>
      (block.1.dispatchName, meaning.hook handler)
  unhandled :=
    (written.items.filterMap Item.asUnhandled).head?.map meaning.unhandled

theorem flatMap_eq_of_forall₂ {First Second Value : Type}
    {related : First → Second → Prop} {firsts : List First}
    {seconds : List Second} {f : First → List Value} {g : Second → List Value}
    (relates : List.Forall₂ related firsts seconds)
    (same : ∀ first second, related first second → f first = g second) :
    firsts.flatMap f = seconds.flatMap g := by
  induction relates with
  | nil => rfl
  | cons head tail induction =>
      rw [List.flatMap_cons, List.flatMap_cons, same _ _ head, induction]

theorem StateBlock.Arranges.via {block : StateBlock Ex}
    {written : List (Clause Ex)} (arranges : block.Arranges written) :
    Clause.viaOf written = block.via := by
  unfold Clause.viaOf StateBlock.via
  rw [arranges.timeout]
  cases block.timeout with
  | none => rfl
  | some timeout => rfl

theorem FsmSpec.Arranges.registrations {spec : FsmSpec Ty Ex}
    {written : Table Ty Ex} (arranges : spec.Arranges written) :
    written.registrations meaning = spec.registrations meaning := by
  unfold Table.registrations FsmSpec.registrations
  rw [Registrations.mk.injEq]
  refine ⟨flatMap_eq_of_forall₂ arranges.blocks ?_,
    flatMap_eq_of_forall₂ arranges.blocks ?_,
    flatMap_eq_of_forall₂ arranges.blocks ?_,
    flatMap_eq_of_forall₂ arranges.blocks ?_, ?_⟩
  · rintro block parsed ⟨named, kept⟩
    rw [kept.rows, kept.via, StateBlock.rows, StateBlock.stateName, named]
  · rintro block parsed ⟨named, kept⟩
    rw [kept.timeout, StateBlock.timeouts, StateBlock.stateName, named]
  · rintro block parsed ⟨named, kept⟩
    rw [kept.entry, StateBlock.entries, StateBlock.stateName, named]
  · rintro block parsed ⟨named, kept⟩
    rw [kept.exit, StateBlock.exits, StateBlock.stateName, named]
  · rw [arranges.unhandled, Option.head?_toList]

end Written

/-! ### What the code does -/

section Evaluated

variable [StateVariant S] [EventVariant E]

/-- What the builder refuses the registrations with, if it does. -/
def Registrations.refusal (registrations : Registrations S E C A)
    (initialName : String) : Option FsmError :=
  match registrations.firstRecorded with
  | some (state, event) => some (.duplicateHandler state event)
  | none =>
      if registrations.Serves initialName then none
      else some (.builderError (idleInitialMessage initialName))

/-- The message the code panics with, if it does: what the builder refuses, or
that the deadline of the initial state overflows. -/
def Registrations.panicMessage (registrations : Registrations S E C A)
    (initialState : S) (now : Instant) : Option String :=
  match registrations.refusal (StateVariant.variantName initialState) with
  | some error => some ("FsmBuilder::build failed: " ++ error.display)
  | none =>
      if (registrations.reference.start initialState now).Fits Instant.limit
      then none
      else some Checked.overflowMessage

/-- The code panics with that message, or gives a machine that answers every
run as what is written does, the last of rivals deciding, with deadlines that
must be representable. -/
def Table.Evaluates (written : Table Ty Ex) (expansion : Expansion Ty Ex)
    (meaning : Meaning S E C A Ex) (now : Instant) : Prop :=
  match (written.registrations meaning).panicMessage
      (meaning.state written.header.initialExpr) now with
  | some message => expansion.build meaning now = some (.error message)
  | none =>
      ∃ machine : StateMachine S E C A,
        expansion.build meaning now = some (.ok machine) ∧
          ∀ calls : List (Call E C),
            Trajectory.outputs Checked.respond machine calls =
              Trajectory.outputs (written.registrations meaning).checkedAnswer
                ((written.registrations meaning).reference.start
                  (meaning.state written.header.initialExpr) now) calls

omit [EventVariant E] in
theorem Chain.tryBuild_of_refusal (chain : Chain S E C A .fsm)
    (now : Instant) :
    chain.eval.tryBuild now =
      match chain.registrations.refusal
          (StateVariant.variantName chain.initialState) with
      | some error => .error error
      | none => .ok (chain.eval.machine now) := by
  rw [chain.tryBuild_eq, Registrations.refusal]
  cases chain.registrations.firstRecorded with
  | some key => rfl
  | none =>
      by_cases serves : chain.registrations.Serves
          (StateVariant.variantName chain.initialState)
      · rw [if_pos serves, if_pos serves]
      · rw [if_neg serves, if_neg serves]

theorem Chain.checked_build_eq (chain : Chain S E C A .fsm)
    (now : Instant) :
    Checked.build chain.eval now =
      match chain.registrations.panicMessage chain.initialState now with
      | some message => .error message
      | none => .ok (chain.eval.machine now) := by
  have tried := chain.tryBuild_of_refusal now
  unfold Checked.build Registrations.panicMessage
  cases refused : chain.registrations.refusal
      (StateVariant.variantName chain.initialState) with
  | some error =>
      rw [refused] at tried
      rw [Checked.tryBuild_eq, tried]
  | none =>
      rw [refused] at tried
      have unrecorded := ((chain.accepted_iff now).mp tried).unrecorded
      by_cases fits : (chain.registrations.reference.start
          chain.initialState now).Fits Instant.limit
      · have returns : ¬ chain.InitialOverflows now :=
          fun overflows => (Chain.initialOverflows_iff.mp overflows).2 fits
        rw [chain.tryBuild_of_fits now returns, tried]
        simp only [Except.mapError, if_pos fits]
      · have overflows : chain.InitialOverflows now :=
          Chain.initialOverflows_iff.mpr ⟨unrecorded, fits⟩
        rw [(chain.tryBuild_panics_iff now).mpr overflows]
        simp only [if_neg fits]

theorem FsmSpec.Arranges.evaluates {spec : FsmSpec Ty Ex}
    {written : Table Ty Ex} (arranges : spec.Arranges written)
    (meaning : Meaning S E C A Ex) (now : Instant) :
    written.Evaluates (expandFsmSpec spec) meaning now := by
  obtain ⟨chain, expanded, registered, initial⟩ :=
    spec.expandFsmSpec_chain meaning
  have given : written.header.initialExpr = spec.initialExpr := by
    rw [arranges.header]
    rfl
  have build : (expandFsmSpec spec).build meaning now =
      some (Checked.build chain.eval now) := by
    rw [Expansion.build, expanded]
    rfl
  have outcome := chain.checked_build_eq now
  unfold Table.Evaluates
  rw [arranges.registrations meaning, given, ← registered, ← initial]
  cases panics : chain.registrations.panicMessage chain.initialState now with
  | some message =>
      rw [panics] at outcome
      change (expandFsmSpec spec).build meaning now = _
      rw [build, outcome]
  | none =>
      rw [panics] at outcome
      have accepted : Checked.tryBuild chain.eval now =
          .ok (chain.eval.machine now) := (Checked.build_ok_iff _ _).mp outcome
      have built := ((chain.checked_built_iff now).mp accepted).1
      refine ⟨chain.eval.machine now, by rw [build, outcome], fun calls => ?_⟩
      rw [(chain.hold_of_built built).checked_outputs_eq
          (Chain.fits_of_built accepted) calls,
        Chain.position_of_built built]

end Evaluated

/-- The macro from end to end: tokens that spell no admissible table do not
compile; any others become code that panics, or builds a machine, as the
written clauses tell. -/
theorem fsm_outcome (syn : Syn Ty Ex) (tokens : List Token) :
    (∃ error, fsm syn tokens = .error error ∧
        ∀ written, Table.Spells syn tokens written → ¬ written.Admissible) ∨
      ∃ written expansion, Table.Spells syn tokens written ∧
        written.Admissible ∧ fsm syn tokens = .ok expansion ∧
        ∀ (S E C A : Type) [StateVariant S] [EventVariant E]
          (meaning : Meaning S E C A Ex) (now : Instant),
          written.Evaluates expansion meaning now := by
  cases parsed : FsmSpec.parse syn tokens with
  | error error =>
      refine .inl ⟨error, by rw [fsm, parsed], ?_⟩
      intro written spelled admissible
      obtain ⟨spec, arranges⟩ := Table.admissible_iff.mp admissible
      have accepted := FsmSpec.parse_ok_iff_arranges.mpr
        ⟨written, spelled, arranges⟩
      rw [parsed] at accepted
      cases accepted
  | ok spec =>
      obtain ⟨written, spelled, arranges⟩ :=
        FsmSpec.parse_ok_iff_arranges.mp parsed
      exact .inr ⟨written, expandFsmSpec spec, spelled, arranges.admissible,
        by rw [fsm, parsed],
        fun _ _ _ _ _ _ meaning now => arranges.evaluates meaning now⟩

end ObzenflowFsm
