import Mathlib.Data.Set.Defs
import Mathlib.Logic.Function.Basic
import ObzenflowFsm.Macro.Clauses

namespace ObzenflowFsm

variable {Ty Ex Value S E C A : Type}

/-! What the names in a table's expressions stand for where the expansion puts
them. The code is emitted with the span of the call site, so that its locals are
in scope for the expressions spliced after them. -/

/-- A name of the scope that the macro is invoked in, or a local of the code. -/
inductive Binding (Value : Type) where
  | caller (value : Value)
  | introduced

abbrev Bindings (Value : Type) : Type := String → Option (Binding Value)

namespace Bindings

def ofCaller (caller : String → Option Value) : Bindings Value :=
  fun name => (caller name).map .caller

/-- What is in scope after `let name = ..;`. -/
def declare (bindings : Bindings Value) (name : String) : Bindings Value :=
  Function.update bindings name (some .introduced)

end Bindings

/-! ### The tokens that are emitted -/

/-- The block that is emitted, with the expressions spliced into it. What comes
after a statement is in its `rest`; `builder.build()` is left to the caller. -/
inductive Code (Ex : Type) where
  | read (name : String)
  | newBuilder (initial : Ex)
  | call (receiver : Code Ex) (method : MethodCall Ex)
  | check (parameter : String) (path : ExprPath) (rest : Code Ex)
  | letMut (name : String) (value rest : Code Ex)
  | assign (name : String) (value rest : Code Ex)

/-- The expressions spliced into the arguments. -/
def MethodCall.args : MethodCall Ex → List Ex
  | .whenUnhandled handler | .onEntry _ handler | .onExit _ handler
  | .on _ handler => [handler]
  | .timeout duration handler => [duration, handler]
  | .when _ | .done => []

namespace Code

def calls (receiver : Code Ex) (methods : List (MethodCall Ex)) : Code Ex :=
  methods.foldl .call receiver

/-- `name = name.methods;` -/
def reassign (name : String) (methods : List (MethodCall Ex))
    (rest : Code Ex) : Code Ex :=
  .assign name (calls (.read name) methods) rest

/-- Every expression that is evaluated, with what names stand for there. -/
def splices : Code Ex → Bindings Value → List (Ex × Bindings Value)
  | .read _, _ => []
  | .newBuilder initial, bindings => [(initial, bindings)]
  | .call receiver method, bindings =>
      receiver.splices bindings ++ method.args.map (·, bindings)
  | .check _ _ rest, bindings => rest.splices bindings
  | .letMut name value rest, bindings =>
      value.splices bindings ++ rest.splices (bindings.declare name)
  | .assign _ value rest, bindings =>
      value.splices bindings ++ rest.splices bindings

end Code

namespace StateBlock

variable (block : StateBlock Ex)

/-- `{ let mut b = builder; ..; b }` -/
def rebuild : Code Ex :=
  .letMut "b" (.read "builder")
    (block.entryExitStmts.foldr (Code.reassign "b")
      (Code.reassign "b" (block.timeoutChain ++ block.onChain ++ [.done])
        (.read "b")))

def emit (rest : Code Ex) : Code Ex :=
  .check "state" block.statePath
    (block.handlers.foldr (fun on rest => .check "event" on.eventPath rest)
      (.assign "builder" block.rebuild rest))

end StateBlock

def FsmSpec.emit (spec : FsmSpec Ty Ex) : Code Ex :=
  .letMut "builder" (.newBuilder spec.initialExpr)
    (spec.unhandled.toList.foldr
      (fun handler => Code.reassign "builder" [.whenUnhandled handler])
      (spec.states.foldr StateBlock.emit (.read "builder")))

/-! ### The expressions that were written -/

def StateBlock.exprs (block : StateBlock Ex) : List Ex :=
  block.entry.toList ++ block.exit.toList ++
    block.timeout.toList.flatMap (fun timeout =>
      [timeout.duration, timeout.handler]) ++
    block.handlers.map OnHandler.handler

def FsmSpec.blockExprs (spec : FsmSpec Ty Ex) : List Ex :=
  spec.states.flatMap StateBlock.exprs

/-- The expressions of a table, in the order they are evaluated. -/
def FsmSpec.exprs (spec : FsmSpec Ty Ex) : List Ex :=
  spec.initialExpr :: (spec.unhandled.toList ++ spec.blockExprs)

/-! ### Where they are evaluated -/

namespace Code

variable (bindings : Bindings Value)

theorem splices_calls (receiver : Code Ex) (methods : List (MethodCall Ex)) :
    (calls receiver methods).splices bindings =
      receiver.splices bindings ++
        (methods.flatMap MethodCall.args).map (·, bindings) := by
  unfold calls
  induction methods generalizing receiver with
  | nil => simp
  | cons method rest induction =>
      rw [List.foldl_cons, induction, splices]
      simp

theorem splices_reassign (name : String) (methods : List (MethodCall Ex))
    (rest : Code Ex) :
    (reassign name methods rest).splices bindings =
      (methods.flatMap MethodCall.args).map (·, bindings) ++
        rest.splices bindings := by
  rw [reassign, splices, splices_calls, splices, List.nil_append]

theorem splices_foldr_reassign (name : String)
    (assignments : List (List (MethodCall Ex))) (rest : Code Ex) :
    (assignments.foldr (reassign name) rest).splices bindings =
      (assignments.flatten.flatMap MethodCall.args).map (·, bindings) ++
        rest.splices bindings := by
  induction assignments with
  | nil => rfl
  | cons methods others induction =>
      rw [List.foldr_cons, splices_reassign, induction]
      simp

theorem splices_foldr_check (handlers : List (OnHandler Ex))
    (rest : Code Ex) :
    (handlers.foldr (fun on rest => .check "event" on.eventPath rest)
      rest).splices bindings = rest.splices bindings := by
  induction handlers with
  | nil => rfl
  | cons on others induction => exact induction

end Code

namespace StateBlock

variable (block : StateBlock Ex) (bindings : Bindings Value)

theorem args_calls :
    (block.entryExitStmts.flatten ++ (block.timeoutChain ++ block.onChain ++
      [MethodCall.done])).flatMap MethodCall.args = block.exprs := by
  have rows : block.onChain.flatMap MethodCall.args =
      block.handlers.map OnHandler.handler := by
    rw [onChain, List.flatMap_map, ← List.flatMap_pure_eq_map]
    rfl
  have hooks : block.entryExitStmts.flatten.flatMap MethodCall.args =
      block.entry.toList ++ block.exit.toList := by
    unfold entryExitStmts
    cases block.entry <;> cases block.exit <;> rfl
  have timeout : block.timeoutChain.flatMap MethodCall.args =
      block.timeout.toList.flatMap fun timeout =>
        [timeout.duration, timeout.handler] := by
    unfold timeoutChain
    cases block.timeout with
    | none => rfl
    | some timeout => rfl
  simp only [List.flatMap_append, rows, hooks, timeout, exprs,
    List.append_assoc]
  simp [MethodCall.args]

theorem splices_rebuild :
    block.rebuild.splices bindings =
      block.exprs.map (·, bindings.declare "b") := by
  rw [rebuild, Code.splices, Code.splices, List.nil_append,
    Code.splices_foldr_reassign, Code.splices_reassign, Code.splices,
    List.append_nil, ← List.map_append, ← List.flatMap_append,
    args_calls]

theorem splices_emit (rest : Code Ex) :
    (block.emit rest).splices bindings =
      block.exprs.map (·, bindings.declare "b") ++ rest.splices bindings := by
  rw [emit, Code.splices, Code.splices_foldr_check, Code.splices,
    splices_rebuild]

end StateBlock

theorem FsmSpec.splices_emit (spec : FsmSpec Ty Ex)
    (bindings : Bindings Value) :
    spec.emit.splices bindings =
      (spec.initialExpr, bindings) ::
        (spec.unhandled.toList.map (·, bindings.declare "builder") ++
          spec.blockExprs.map
            (·, (bindings.declare "builder").declare "b")) := by
  have blocks : ∀ (states : List (StateBlock Ex)) (inside : Bindings Value),
      (states.foldr StateBlock.emit (.read "builder")).splices inside =
        (states.flatMap StateBlock.exprs).map (·, inside.declare "b") := by
    intro states inside
    induction states with
    | nil => rfl
    | cons block others induction =>
        rw [List.foldr_cons, StateBlock.splices_emit, induction,
          List.flatMap_cons, List.map_append]
  rw [emit, Code.splices, Code.splices, List.singleton_append, blockExprs,
    ← blocks]
  cases spec.unhandled with
  | none => rfl
  | some handler => rfl

/-! ### Captured names -/

section Capture

variable (free : Ex → Set String) (caller : String → Option Value)

/-- Every expression of the table is evaluated, with what the names in it stand
for where the macro is invoked, and nowhere does a local of the code hide a
variable of the caller. -/
structure FsmSpec.CaptureAvoiding (spec : FsmSpec Ty Ex) : Prop where
  spliced : (spec.emit.splices (.ofCaller caller)).map Prod.fst = spec.exprs
  evaluated : ∀ expr bindings,
    (expr, bindings) ∈ spec.emit.splices (.ofCaller caller) →
      ∀ name ∈ free expr, bindings name = Bindings.ofCaller caller name
  unshadowed : ∀ expr bindings,
    (expr, bindings) ∈ spec.emit.splices (.ofCaller caller) →
      ∀ name, caller name ≠ none →
        bindings name = Bindings.ofCaller caller name

/-- The name is not in scope, nor free in any of the expressions, if there are
any. -/
def Unused (name : String) (exprs : List Ex) : Prop :=
  ∀ expr ∈ exprs, caller name = none ∧ name ∉ free expr

/-- What the expression sees of the caller's scope is as it was. -/
def Undisturbed (expr : Ex) (bindings : Bindings Value) : Prop :=
  (∀ name ∈ free expr, bindings name = Bindings.ofCaller caller name) ∧
    ∀ name, caller name ≠ none →
      bindings name = Bindings.ofCaller caller name

variable {free : Ex → Set String} {caller : String → Option Value}

theorem undisturbed_ofCaller (expr : Ex) :
    Undisturbed free caller expr (.ofCaller caller) :=
  ⟨fun _ _ => rfl, fun _ _ => rfl⟩

theorem Bindings.declare_eq_ofCaller_iff {bindings : Bindings Value}
    {introduced name : String} :
    bindings.declare introduced name = ofCaller caller name ↔
      name ≠ introduced ∧ bindings name = ofCaller caller name := by
  by_cases same : name = introduced
  · subst same
    cases held : caller name <;> simp [declare, ofCaller, held]
  · simp [declare, same]

/-- A local disturbs exactly what mentions its name, or could have. -/
theorem undisturbed_declare_iff {expr : Ex} {bindings : Bindings Value}
    {introduced : String} :
    Undisturbed free caller expr (bindings.declare introduced) ↔
      (caller introduced = none ∧ introduced ∉ free expr) ∧
        Undisturbed free caller expr bindings := by
  simp only [Undisturbed, Bindings.declare_eq_ofCaller_iff]
  constructor
  · intro undisturbed
    obtain ⟨evaluated, unshadowed⟩ := undisturbed
    refine ⟨⟨?_, ?_⟩, fun name member => (evaluated name member).2,
      fun name held => (unshadowed name held).2⟩
    · by_contra held
      exact (unshadowed introduced held).1 rfl
    · intro member
      exact (evaluated introduced member).1 rfl
  · intro allowed
    obtain ⟨⟨absent, unmentioned⟩, evaluated, unshadowed⟩ := allowed
    refine ⟨fun name member => ⟨?_, evaluated name member⟩,
      fun name held => ⟨?_, unshadowed name held⟩⟩
    · intro same
      exact unmentioned (same ▸ member)
    · intro same
      exact held (same ▸ absent)

theorem FsmSpec.captureAvoiding_iff_undisturbed {spec : FsmSpec Ty Ex} :
    spec.CaptureAvoiding free caller ↔
      ∀ place ∈ spec.emit.splices (.ofCaller caller),
        Undisturbed free caller place.1 place.2 := by
  constructor
  · intro avoiding place member
    exact ⟨avoiding.evaluated _ _ member, avoiding.unshadowed _ _ member⟩
  · intro undisturbed
    refine ⟨?_, fun _ _ member => (undisturbed _ member).1,
      fun _ _ member => (undisturbed _ member).2⟩
    simp [spec.splices_emit, exprs, Function.comp_def]

/-- The expansion is capture-avoiding exactly if nothing is called `builder`
where the macro is invoked, nor in an expression but the initial state's, and
nothing `b` in or around the expressions of a block. -/
theorem FsmSpec.captureAvoiding_iff (spec : FsmSpec Ty Ex) :
    spec.CaptureAvoiding free caller ↔
      Unused free caller "builder"
          (spec.unhandled.toList ++ spec.blockExprs) ∧
        Unused free caller "b" spec.blockExprs := by
  rw [captureAvoiding_iff_undisturbed, spec.splices_emit,
    List.forall_mem_cons, List.forall_mem_append]
  simp only [List.forall_mem_map, undisturbed_declare_iff,
    undisturbed_ofCaller, and_true, true_and, Unused,
    List.forall_mem_append]
  constructor
  · intro allowed
    obtain ⟨unhandled, blocks⟩ := allowed
    exact ⟨⟨unhandled, fun expr member => (blocks expr member).2⟩,
      fun expr member => (blocks expr member).1⟩
  · intro unused
    obtain ⟨⟨unhandled, builder⟩, block⟩ := unused
    exact ⟨unhandled, fun expr member =>
      ⟨block expr member, builder expr member⟩⟩

end Capture

/-! ### What the code builds -/

/-- The builders that the locals hold. -/
abbrev Locals (S E C A : Type) : Type := String → Option (Chain S E C A .fsm)

section Eval

variable (meaning : Bindings Value → Meaning S E C A Ex)

/-- What the code evaluates to when its expressions are evaluated in the scope
they stand in. A local is put back at the end of its block. -/
def Code.eval : Code Ex → Bindings Value → Locals S E C A →
    Option (Receiver S E C A × Locals S E C A)
  | .read name, _, locals =>
      (locals name).map fun chain => (⟨.fsm, chain⟩, locals)
  | .newBuilder initial, bindings, locals =>
      some (⟨.fsm, .new ((meaning bindings).state initial)⟩, locals)
  | .call receiver method, bindings, locals =>
      (receiver.eval bindings locals).bind fun held =>
        (method.invoke (meaning bindings) held.1).map fun called =>
          (called, held.2)
  | .check _ _ rest, bindings, locals => rest.eval bindings locals
  | .letMut name value rest, bindings, locals =>
      (value.eval bindings locals).bind fun given =>
        given.1.builder.bind fun chain =>
          (rest.eval (bindings.declare name)
            (Function.update given.2 name (some chain))).map fun built =>
              (built.1, Function.update built.2 name (given.2 name))
  | .assign name value rest, bindings, locals =>
      (value.eval bindings locals).bind fun given =>
        given.1.builder.bind fun chain =>
          rest.eval bindings (Function.update given.2 name (some chain))

variable {bindings : Bindings Value} {locals : Locals S E C A}
  {chain : Chain S E C A .fsm}

namespace Code

theorem eval_calls (receiver : Code Ex) (methods : List (MethodCall Ex)) :
    (calls receiver methods).eval meaning bindings locals =
      (receiver.eval meaning bindings locals).bind fun held =>
        (methods.foldlM (MethodCall.invoke (meaning bindings)) held.1).map
          fun called => (called, held.2) := by
  unfold calls
  induction methods generalizing receiver with
  | nil =>
      rw [List.foldl_nil]
      cases receiver.eval meaning bindings locals with
      | none => rfl
      | some held => rfl
  | cons method rest induction =>
      rw [List.foldl_cons, induction, eval]
      simp only [List.foldlM_cons, Option.bind_eq_bind, Option.bind_assoc,
        Option.map_bind, Option.bind_map, Function.comp_def]

theorem eval_reassign {name : String} (holds : locals name = some chain)
    (methods : List (MethodCall Ex)) (rest : Code Ex) :
    (reassign name methods rest).eval meaning bindings locals =
      (ObzenflowFsm.assign (meaning bindings) chain methods).bind fun after =>
        rest.eval meaning bindings
          (Function.update locals name (some after)) := by
  rw [reassign, eval, eval_calls, eval, holds, ObzenflowFsm.assign]
  simp only [Option.map_some, Option.bind_some, Option.bind_map,
    Option.bind_assoc, Function.comp_def]

theorem eval_foldr_reassign {name : String} (holds : locals name = some chain)
    (assignments : List (List (MethodCall Ex))) (rest : Code Ex) :
    (assignments.foldr (reassign name) rest).eval meaning bindings locals =
      (assignments.foldlM (ObzenflowFsm.assign (meaning bindings)) chain).bind
        fun after => rest.eval meaning bindings
          (Function.update locals name (some after)) := by
  induction assignments generalizing chain locals with
  | nil =>
      rw [List.foldr_nil, List.foldlM_nil]
      change _ = rest.eval meaning bindings
        (Function.update locals name (some chain))
      rw [← holds, Function.update_eq_self]
  | cons methods others induction =>
      rw [List.foldr_cons, eval_reassign meaning holds, List.foldlM_cons]
      simp only [Option.bind_eq_bind, Option.bind_assoc]
      refine congrArg _ (funext fun after => ?_)
      rw [induction (Function.update_self ..)]
      simp only [Function.update_idem]

theorem eval_foldr_check (handlers : List (OnHandler Ex)) (rest : Code Ex) :
    (handlers.foldr (fun on rest => .check "event" on.eventPath rest)
      rest).eval meaning bindings locals =
        rest.eval meaning bindings locals := by
  induction handlers with
  | nil => rfl
  | cons on others induction => exact induction

end Code

theorem foldlM_rebuild (plain : Meaning S E C A Ex)
    (assignments : List (List (MethodCall Ex))) :
    [Stmt.rebuild assignments].foldlM (Stmt.run plain) chain =
      assignments.foldlM (assign plain) chain := by
  rw [List.foldlM_cons]
  exact Option.bind_fun_some _

namespace StateBlock

variable (block : StateBlock Ex)

theorem eval_rebuild (holds : locals "builder" = some chain) :
    block.rebuild.eval meaning bindings locals =
      ((block.entryExitStmts ++ [block.timeoutChain ++ block.onChain ++
          [MethodCall.done]]).foldlM
        (assign (meaning (bindings.declare "b"))) chain).map fun after =>
          (⟨.fsm, after⟩, locals) := by
  rw [rebuild, Code.eval, Code.eval, holds, List.foldlM_append]
  simp only [Option.map_some, Option.bind_some, Receiver.builder]
  rw [Code.eval_foldr_reassign meaning (Function.update_self ..)]
  simp only [Option.bind_eq_bind, Option.map_bind, List.foldlM_cons,
    List.foldlM_nil]
  refine congrArg _ (funext fun hooked => ?_)
  simp only [Function.comp_def, Function.update_idem]
  rw [Code.eval_reassign meaning (Function.update_self ..)]
  simp only [Code.eval, Function.update_self, Function.update_idem,
    Option.map_some, Option.map_bind, Function.comp_def,
    Function.update_eq_self]
  rfl

theorem run_stmts_eq (plain : Meaning S E C A Ex) :
    block.stmts.foldlM (Stmt.run plain) chain =
      (block.entryExitStmts ++ [block.timeoutChain ++ block.onChain ++
        [MethodCall.done]]).foldlM (assign plain) chain := by
  refine List.foldlM_append.trans ?_
  rw [block.run_checks]
  exact foldlM_rebuild plain _

theorem eval_emit (holds : locals "builder" = some chain) (rest : Code Ex) :
    (block.emit rest).eval meaning bindings locals =
      (block.stmts.foldlM (Stmt.run (meaning (bindings.declare "b")))
        chain).bind fun after =>
          rest.eval meaning bindings
            (Function.update locals "builder" (some after)) := by
  rw [emit, Code.eval, Code.eval_foldr_check, Code.eval,
    block.eval_rebuild meaning holds, run_stmts_eq]
  simp only [Option.bind_map, Function.comp_def, Receiver.builder,
    Option.bind_some]

end StateBlock

theorem eval_foldr_emit (holds : locals "builder" = some chain)
    (states : List (StateBlock Ex)) :
    (states.foldr StateBlock.emit (.read "builder")).eval meaning bindings
        locals =
      ((states.flatMap StateBlock.stmts).foldlM
        (Stmt.run (meaning (bindings.declare "b"))) chain).map fun after =>
          (⟨.fsm, after⟩, Function.update locals "builder" (some after)) := by
  induction states generalizing chain locals with
  | nil =>
      have kept : Function.update locals "builder" (some chain) = locals := by
        rw [← holds, Function.update_eq_self]
      rw [List.foldr_nil, Code.eval, holds, List.flatMap_nil, List.foldlM_nil]
      change some (_, locals) = some (_, Function.update locals _ _)
      rw [kept]
  | cons block others induction =>
      rw [List.foldr_cons, block.eval_emit meaning holds, List.flatMap_cons,
        List.foldlM_append]
      simp only [Option.bind_eq_bind, Option.map_bind]
      refine congrArg _ (funext fun after => ?_)
      rw [induction (Function.update_self ..)]
      simp only [Function.update_idem, Function.comp_def]

theorem FsmSpec.eval_emit (spec : FsmSpec Ty Ex) :
    spec.emit.eval meaning bindings locals =
      (((spec.unhandled.toList.map fun handler =>
            Stmt.rebuild [[.whenUnhandled handler]]).foldlM
          (Stmt.run (meaning (bindings.declare "builder")))
          (.new ((meaning bindings).state spec.initialExpr))).bind
        fun absorbing => (spec.states.flatMap StateBlock.stmts).foldlM
          (Stmt.run (meaning ((bindings.declare "builder").declare "b")))
          absorbing).map fun chain => (⟨.fsm, chain⟩, locals) := by
  rw [emit, Code.eval, Code.eval]
  simp only [Option.bind_some, Receiver.builder]
  have run : ∀ (inside : Bindings Value) (absorbing : Chain S E C A .fsm),
      ((spec.states.foldr StateBlock.emit (.read "builder")).eval meaning inside
        (Function.update locals "builder" (some absorbing))).map (fun built =>
          (built.1, Function.update built.2 "builder" (locals "builder"))) =
      ((spec.states.flatMap StateBlock.stmts).foldlM
        (Stmt.run (meaning (inside.declare "b"))) absorbing).map
          fun chain => (⟨.fsm, chain⟩, locals) := by
    intro inside absorbing
    rw [eval_foldr_emit meaning (Function.update_self ..)]
    simp only [Option.map_map, Function.comp_def, Function.update_idem,
      Function.update_eq_self]
  cases spec.unhandled with
  | none => exact run _ _
  | some handler =>
      rw [Option.toList_some, List.foldr_cons, List.foldr_nil,
        Code.eval_reassign meaning (Function.update_self ..)]
      simp only [Function.update_idem, Option.map_bind, Function.comp_def, run]
      rw [List.map_singleton, foldlM_rebuild, List.foldlM_cons]
      simp

end Eval

/-! ### Evaluation in the caller's scope -/

/-- The expression means the same. -/
structure Meaning.Agrees (first second : Meaning S E C A Ex) (expr : Ex) :
    Prop where
  state : first.state expr = second.state expr
  duration : first.duration expr = second.duration expr
  transition : first.transition expr = second.transition expr
  timeout : first.timeout expr = second.timeout expr
  hook : first.hook expr = second.hook expr
  unhandled : first.unhandled expr = second.unhandled expr

section Agreement

variable {first second : Meaning S E C A Ex}

theorem MethodCall.invoke_congr {method : MethodCall Ex}
    (agree : ∀ expr ∈ method.args, first.Agrees second expr)
    (receiver : Receiver S E C A) :
    method.invoke first receiver = method.invoke second receiver := by
  cases method with
  | whenUnhandled handler =>
      simp only [invoke, (agree handler (by simp [args])).unhandled]
  | onEntry name handler | onExit name handler =>
      simp only [invoke, (agree handler (by simp [args])).hook]
  | timeout duration handler =>
      simp only [invoke, (agree duration (by simp [args])).duration,
        (agree handler (by simp [args])).timeout]
  | on name handler =>
      simp only [invoke, (agree handler (by simp [args])).transition]
  | when name | done => rfl

theorem foldlM_congr_of_mem {State Item : Type}
    {step other : State → Item → Option State} {items : List Item}
    (same : ∀ item ∈ items, ∀ state, step state item = other state item)
    (state : State) : items.foldlM step state = items.foldlM other state := by
  induction items generalizing state with
  | nil => rfl
  | cons item rest induction =>
      obtain ⟨head, tail⟩ := List.forall_mem_cons.mp same
      rw [List.foldlM_cons, List.foldlM_cons, head state]
      exact congrArg _ (funext fun next => induction tail next)

theorem foldlM_assign_congr {assignments : List (List (MethodCall Ex))}
    (agree : ∀ expr ∈ assignments.flatten.flatMap MethodCall.args,
      first.Agrees second expr) (chain : Chain S E C A .fsm) :
    assignments.foldlM (assign first) chain =
      assignments.foldlM (assign second) chain := by
  refine foldlM_congr_of_mem (fun methods member chain => ?_) chain
  unfold assign
  rw [foldlM_congr_of_mem (fun method methodMember receiver =>
    MethodCall.invoke_congr (fun expr held => agree expr
      (List.mem_flatMap.mpr ⟨method, List.mem_flatten.mpr
        ⟨methods, member, methodMember⟩, held⟩)) receiver)]

theorem foldlM_stmts_congr {states : List (StateBlock Ex)}
    (agree : ∀ expr ∈ states.flatMap StateBlock.exprs,
      first.Agrees second expr) (chain : Chain S E C A .fsm) :
    (states.flatMap StateBlock.stmts).foldlM (Stmt.run first) chain =
      (states.flatMap StateBlock.stmts).foldlM (Stmt.run second) chain := by
  induction states generalizing chain with
  | nil => rfl
  | cons block others induction =>
      rw [List.flatMap_cons, List.forall_mem_append] at agree
      rw [List.flatMap_cons, List.foldlM_append, List.foldlM_append,
        block.run_stmts_eq, block.run_stmts_eq, foldlM_assign_congr]
      · exact congrArg _ (funext (induction agree.2))
      · intro expr member
        refine agree.1 expr ?_
        rw [← block.args_calls]
        simpa using member

end Agreement

/-- Where nothing is captured, the code builds what the table means in the scope
of the caller. -/
theorem FsmSpec.CaptureAvoiding.eval_emit {spec : FsmSpec Ty Ex}
    {free : Ex → Set String} {caller : String → Option Value}
    (avoiding : spec.CaptureAvoiding free caller)
    {meaning : Bindings Value → Meaning S E C A Ex}
    (reads : ∀ expr first second,
      (∀ name ∈ free expr, first name = second name) →
        (meaning first).Agrees (meaning second) expr)
    (locals : Locals S E C A) :
    spec.emit.eval meaning (.ofCaller caller) locals =
      ((expandFsmSpec spec).chain (meaning (.ofCaller caller))).map
        fun chain => (⟨.fsm, chain⟩, locals) := by
  have agree : ∀ expr bindings,
      (expr, bindings) ∈ spec.emit.splices (.ofCaller caller) →
        (meaning bindings).Agrees (meaning (.ofCaller caller)) expr :=
    fun expr bindings member =>
      reads expr _ _ (avoiding.evaluated expr bindings member)
  rw [spec.splices_emit] at agree
  have unhandled (chain : Chain S E C A .fsm) :
      (spec.unhandled.toList.map fun handler =>
          Stmt.rebuild [[.whenUnhandled handler]]).foldlM
        (Stmt.run (meaning ((Bindings.ofCaller caller).declare "builder")))
        chain =
      (spec.unhandled.toList.map fun handler =>
          Stmt.rebuild [[.whenUnhandled handler]]).foldlM
        (Stmt.run (meaning (.ofCaller caller))) chain := by
    cases held : spec.unhandled with
    | none => rfl
    | some handler =>
        rw [Option.toList_some, List.map_singleton, foldlM_rebuild,
          foldlM_rebuild]
        refine foldlM_assign_congr (fun expr member => ?_) chain
        have same : expr = handler := by simpa [MethodCall.args] using member
        exact agree expr _ (by simp [held, same])
  rw [spec.eval_emit, Expansion.chain, expandFsmSpec, List.foldlM_append,
    unhandled]
  refine congrArg _ (congrArg _ (funext fun absorbing => ?_))
  refine foldlM_stmts_congr (fun expr member => agree expr _ ?_) absorbing
  exact List.mem_cons_of_mem _ (List.mem_append_right _
    (List.mem_map_of_mem member))

/-! ### A handler called like a local -/

namespace Door

/-- Where the door's entry hook is `let b = greet;`. -/
def hookScope (name : String) :
    Option (StateHandler DoorState DoorContext DoorAction) :=
  if name = "b" then some greet else none

/-- `b = b.on_entry("Open", b);` registers the builder as its own hook. -/
theorem hookScope_not_captureAvoiding :
    ¬ (spec (some (word "b")) none).CaptureAvoiding
      (fun expr => {expr.name}) hookScope := by
  intro avoiding
  have member : word "b" ∈ (spec (some (word "b")) none).blockExprs := by
    decide
  have spliced : (word "b", ((Bindings.ofCaller hookScope).declare
      "builder").declare "b") ∈
        (spec (some (word "b")) none).emit.splices (.ofCaller hookScope) := by
    rw [FsmSpec.splices_emit]
    exact List.mem_cons_of_mem _ (List.mem_append_right _
      (List.mem_map_of_mem member))
  have captured := avoiding.evaluated _ _ spliced "b" rfl
  exact (Bindings.declare_eq_ofCaller_iff.mp captured).1 rfl

end Door

end ObzenflowFsm
