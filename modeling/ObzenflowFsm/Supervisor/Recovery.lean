import ObzenflowFsm.Supervisor

namespace ObzenflowFsm

open Polling

variable {S E C A : Type}

def Entry.call : Entry E C A → Option (Call E C)
  | .answered _ call _ => some call
  | _ => none

def Entry.result : Entry E C A → Option (FsmResult (List A))
  | .answered _ _ result => some result
  | _ => none

def Call.request : Call E C → Request E
  | .handle event _ armed => .handle event armed
  | .checkTimeout _ polled armed => .checkTimeout polled armed

@[simp] theorem Call.call_request (call : Call E C) :
    call.request.call call.context = call := by
  cases call with
  | handle event context armed => rfl
  | checkTimeout context polled armed => rfl

/-- What a journal asks a replaying host to do: its calls, and no action. -/
def Call.replayed (call : Call E C) : Request E × Plan A :=
  (call.request, fun _ => [])

def orders (journal : List (Entry E C A)) : List (Request E × Plan A) :=
  (journal.filterMap Entry.call).map Call.replayed

section Runs

variable [StateVariant S] [EventVariant E]

/-- The machine has gone through the calls of the journal, with the results
that are recorded there. -/
structure Traces (machine reached : StateMachine S E C A)
    (journal : List (Entry E C A)) : Prop where
  results : (Trajectory.outputs StateMachine.step machine
      (journal.filterMap Entry.call)).map Report.result =
    journal.filterMap Entry.result
  machine : Trajectory.final StateMachine.step machine
    (journal.filterMap Entry.call) = reached

theorem Traces.start (machine : StateMachine S E C A) :
    Traces machine machine [] :=
  ⟨rfl, rfl⟩

theorem Traces.silent {machine reached : StateMachine S E C A}
    {journal : List (Entry E C A)} (traces : Traces machine reached journal)
    {entry : Entry E C A} (call : entry.call = none)
    (result : entry.result = none) :
    Traces machine reached (journal ++ [entry]) where
  results := by
    simpa [List.filterMap_append, call, result] using traces.results
  machine := by
    simpa [List.filterMap_append, call] using traces.machine

theorem Traces.answered {machine reached : StateMachine S E C A}
    {journal : List (Entry E C A)} (traces : Traces machine reached journal)
    (policy : Policy) (call : Call E C) :
    Traces machine (reached.report call).machine
      (journal ++ [.answered policy call (reached.report call).result]) where
  results := by
    rw [List.filterMap_append, List.filterMap_append,
      Trajectory.outputs_append, List.map_append, traces.results,
      traces.machine]
    rfl
  machine := by
    rw [List.filterMap_append, Trajectory.final_append, traces.machine]
    rfl

end Runs

namespace Supervisor

variable [StateVariant S] [EventVariant E]

/-- Between calls the machine is where the journal leads. -/
def Follows (machine : StateMachine S E C A)
    (supervisor : Supervisor S E C A) : Prop :=
  Traces machine supervisor.machine supervisor.journal

/-- While a call is in flight the machine is one that call is suspended in. -/
def Lags (machine : StateMachine S E C A)
    (supervisor : Supervisor S E C A) : Prop :=
  ∃ reached, Traces machine reached supervisor.journal ∧
    (supervisor.machine = reached ∨
      ∃ call, supervisor.machine ∈ (reached.report call).suspended)

theorem Follows.lags {machine : StateMachine S E C A}
    {supervisor : Supervisor S E C A} (follows : supervisor.Follows machine) :
    supervisor.Lags machine :=
  ⟨_, follows, .inl rfl⟩

def Advances {Value : Type} (machine : StateMachine S E C A)
    (body : Supervision S E C A Value) : Prop :=
  Async.Triple (Lags machine) (fun _ => Follows machine) (Follows machine)
    body fun _ => Follows machine

variable {Value Result : Type} {machine : StateMachine S E C A}

theorem Advances.bind {body : Supervision S E C A Value}
    {next : Value → Supervision S E C A Result}
    (head : Advances machine body)
    (tail : ∀ value, Advances machine (next value)) :
    Advances machine (body >>= next) :=
  Async.Triple.bind head tail

theorem advances_pure (value : Value) :
    Advances machine (pure value : Supervision S E C A Value) :=
  .pure value fun _ follows => follows

theorem advances_fail (error : FsmError) :
    Advances machine (Async.fail error : Supervision S E C A Value) :=
  .fail fun _ follows => follows

theorem advances_propagate (result : FsmResult Value) :
    Advances machine (propagate result : Supervision S E C A Value) := by
  cases result with
  | ok value => exact advances_pure value
  | error error => exact advances_fail error

theorem Advances.read {next : Supervisor S E C A → Supervision S E C A Value}
    (tail : ∀ before, Advances machine (next before)) :
    Advances machine (Async.read >>= next) := by
  refine Async.Triple.read fun before follows => (tail before).weaken ?_ ?_
  · rintro _ rfl
    exact follows
  · exact fun _ _ left => left

theorem advances_enter {entry : Entry E C A} (call : entry.call = none)
    (result : entry.result = none) :
    Advances machine (enter entry : Supervision S E C A Unit) :=
  .modify fun _ follows => Traces.silent follows call result

theorem advances_borrow (future : C → BoxFuture C Value) :
    Advances machine (borrow future : Supervision S E C A Value) := by
  refine .awaiting fun supervisor follows => ⟨?_, follows⟩
  intro context member
  exact Follows.lags follows

/-- A call runs on the machine the journal leads to. -/
theorem call_runs (request : Request E) (before : Supervisor S E C A)
    (follows : before.Follows machine) :
    Async.Triple (Lags machine) (fun _ => Follows machine)
      (fun supervisor => supervisor = before)
      (call request : Supervision S E C A (FsmResult (List A)))
      fun result left =>
        left.journal = before.journal ∧
          result =
            (before.machine.report (request.call before.context)).result ∧
          left.machine =
            (before.machine.report (request.call before.context)).machine := by
  refine .awaiting fun supervisor same => ?_
  subst same
  refine ⟨?_, rfl, rfl, rfl⟩
  intro world member
  exact ⟨supervisor.machine, follows, .inr ⟨_, List.mem_map_of_mem member⟩⟩

/-- Its entry is made before anything else can happen. -/
theorem advances_consult (policy : Policy)
    (request : List (Entry E C A) → Request E) :
    Advances machine
      (consult policy request : Supervision S E C A (List A)) := by
  refine Async.Triple.read fun supervisor follows => ?_
  refine (call_runs _ supervisor follows).bind fun result => ?_
  have entered : Async.Triple (Lags machine) (fun _ => Follows machine)
      (fun left => left.journal = supervisor.journal ∧
        result = (supervisor.machine.report ((request supervisor.journal).call
          supervisor.context)).result ∧
        left.machine = (supervisor.machine.report
          ((request supervisor.journal).call supervisor.context)).machine)
      (enter (.answered policy
        ((request supervisor.journal).call supervisor.context) result))
      fun _ => Follows machine := by
    refine .modify ?_
    rintro left ⟨journal, rfl, moved⟩
    change Traces machine left.machine (left.journal ++ _)
    rw [journal, moved]
    exact Traces.answered follows policy _
  exact entered.bind fun _ => advances_propagate result

theorem advances_receive (environment : Environment E C A) :
    Advances machine (receive environment : Supervision S E C A E) := by
  refine .read fun before => (advances_borrow _).bind fun event => ?_
  exact (advances_enter rfl rfl).bind fun _ => advances_pure event

theorem advances_mapFailure (environment : Environment E C A)
    (error : FsmError) :
    Advances machine (mapFailure environment error : Supervision S E C A E) := by
  refine .read fun before => (advances_borrow _).bind fun event => ?_
  exact (advances_enter rfl rfl).bind fun _ => advances_pure event

variable [FsmAction A C]

theorem advances_attempt (policy : Policy) (action : A) :
    Advances machine
      (attempt policy action : Supervision S E C A (FsmResult Unit)) := by
  refine (advances_borrow _).bind fun result => ?_
  exact (advances_enter rfl rfl).bind fun _ => advances_pure result

omit [FsmAction A C] in
theorem Advances.forEach {body : A → Supervision S E C A Unit}
    (each : ∀ action, Advances machine (body action)) (actions : List A) :
    Advances machine (Async.forEach body actions) :=
  Async.Triple.forEach (fun _ => Follows machine)
    (fun action _ => each action) actions

theorem advances_execute (action : A) :
    Advances machine (execute action : Supervision S E C A Unit) :=
  (advances_attempt .propagate action).bind advances_propagate

theorem advances_recover (environment : Environment E C A)
    (error : FsmError) :
    Advances machine (recover environment error : Supervision S E C A Unit) := by
  refine (advances_mapFailure environment error).bind fun event => ?_
  exact (advances_consult .propagate _).bind (.forEach advances_execute)

theorem advances_executeOrRecover (environment : Environment E C A)
    (action : A) :
    Advances machine
      (executeOrRecover environment action : Supervision S E C A Unit) := by
  refine (advances_attempt .recover action).bind fun result => ?_
  cases result with
  | ok value => exact advances_pure value
  | error error => exact advances_recover environment error

theorem advances_turn (environment : Environment E C A) :
    Advances machine (turn environment : Supervision S E C A Unit) := by
  refine (advances_consult .propagate _).bind fun timeoutActions => ?_
  refine (Advances.forEach advances_execute timeoutActions).bind fun _ => ?_
  refine (advances_receive environment).bind fun event => ?_
  refine (advances_consult .recover _).bind fun actions => ?_
  exact .forEach (advances_executeOrRecover environment) actions

theorem advances_supervise (environment : Environment E C A) (turns : Nat) :
    Advances machine (supervise environment turns : Supervision S E C A Unit) :=
  Async.Triple.rounds (advances_turn environment) turns

end Supervisor

/-! ### Rebuilding a host from its journal -/

section Replay

variable [StateVariant S] [EventVariant E]
  {registrations : Registrations S E C A}

/-- A replayed call gives the recorded result and leaves the recorded machine,
whatever context it is lent. -/
theorem Tables.Hold.replay_call {machine : StateMachine S E C A}
    (holds : machine.toTables.Hold registrations)
    (free : registrations.ContextFree) (call : Call E C) (context : C) :
    (Host.replay ⟨machine, context⟩ call.replayed).1.1 =
        (machine.report call).result ∧
      (Host.replay ⟨machine, context⟩ call.replayed).2.machine =
        (machine.report call).machine := by
  have indistinct :=
    holds.report_indistinct free call.request context call.context
  rw [call.call_request] at indistinct
  exact indistinct

theorem Tables.Hold.replay_calls {machine : StateMachine S E C A}
    (holds : machine.toTables.Hold registrations)
    (free : registrations.ContextFree) (calls : List (Call E C))
    (context : C) :
    (Trajectory.outputs Host.replay ⟨machine, context⟩
          (calls.map Call.replayed)).map Prod.fst =
        (Trajectory.outputs StateMachine.step machine calls).map
          Report.result ∧
      (Trajectory.final Host.replay ⟨machine, context⟩
          (calls.map Call.replayed)).machine =
        Trajectory.final StateMachine.step machine calls := by
  induction calls generalizing machine context with
  | nil => exact ⟨rfl, rfl⟩
  | cons call rest induction =>
      obtain ⟨result, moved⟩ := holds.replay_call free call context
      rw [List.map_cons, Trajectory.outputs_cons, Trajectory.outputs_cons,
        Trajectory.final_cons, Trajectory.final_cons]
      generalize Host.replay ⟨machine, context⟩ call.replayed = answered
        at result moved ⊢
      obtain ⟨answer, held, left⟩ := answered
      cases moved
      obtain ⟨results, final⟩ := induction (holds.report call) left
      exact ⟨congrArg₂ List.cons result results, final⟩

/-- Replaying a journal against a machine and some context, without executing
any action, gives the recorded results and brings the machine here. -/
structure Recovers (machine reached : StateMachine S E C A) (context : C)
    (journal : List (Entry E C A)) : Prop where
  results : (Trajectory.outputs Host.replay ⟨machine, context⟩
      (orders journal)).map Prod.fst = journal.filterMap Entry.result
  machine : (Trajectory.final Host.replay ⟨machine, context⟩
    (orders journal)).machine = reached

theorem Traces.recovers {machine reached : StateMachine S E C A}
    {journal : List (Entry E C A)} (traces : Traces machine reached journal)
    (holds : machine.toTables.Hold registrations)
    (free : registrations.ContextFree) (context : C) :
    Recovers machine reached context journal := by
  obtain ⟨results, final⟩ :=
    holds.replay_calls free (journal.filterMap Entry.call) context
  exact ⟨results.trans traces.results, final.trans traces.machine⟩

/-- A host that crashed anywhere in the loop is rebuilt from its journal: the
calls recorded, replayed without actions on any context, bring a new machine to
where the old one stood, but for the call it crashed in. -/
theorem Chain.supervise_recovers [FsmAction A C] (chain : Chain S E C A .fsm)
    (now : Instant) (free : chain.registrations.ContextFree)
    {machine : StateMachine S E C A} (reaches : chain.Reaches now machine)
    (environment : Environment E C A) (turns : Nat) (context other : C) :
    (Supervisor.supervise environment turns
        (Supervisor.start machine context)).Meets
      (fun left => ∃ reached, Recovers machine reached other left.journal ∧
        (left.machine = reached ∨
          ∃ call, left.machine ∈ (reached.report call).suspended))
      fun _ left => Recovers machine left.machine other left.journal := by
  have start : (Supervisor.start machine context).Follows machine :=
    Traces.start machine
  refine (Supervisor.advances_supervise environment turns _ start).weaken
    ?_ ?_
  · rintro left ⟨reached, traces, stands⟩
    exact ⟨reached, traces.recovers reaches.hold free other, stands⟩
  · intro result left reached
    have follows : left.Follows machine := by
      cases result with
      | ok value => exact reached
      | error error => exact reached
    exact Traces.recovers follows reaches.hold free other

end Replay

/-- The porter is replaced in the middle of a visit, with another log. -/
theorem Door.visit_recovered :
    (Supervisor.supervise porter 2
        (Supervisor.start (machine greet) {})).Meets
      (fun left => ∃ reached,
        Recovers (machine greet) reached ⟨["visited"]⟩ left.journal ∧
          (left.machine = reached ∨
            ∃ call : Call DoorEvent DoorContext,
              left.machine ∈ (reached.report call).suspended))
      fun _ left =>
        Recovers (machine greet) left.machine ⟨["visited"]⟩ left.journal :=
  (chain greet).supervise_recovers 0 greeted_contextFree (reaches greet)
    porter 2 {} ⟨["visited"]⟩

end ObzenflowFsm
