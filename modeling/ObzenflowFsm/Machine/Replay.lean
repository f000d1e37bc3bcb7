import ObzenflowFsm.Machine.Refinement
import ObzenflowFsm.Theory.Oblivious

namespace ObzenflowFsm

open Polling Registry TimedMealy

variable {S E C A : Type}

/-- A handler's outcome is the same in every context, though it may change it. -/
def ContextFree {Value : Type} (handler : C → BoxFuture C Value) : Prop :=
  ∀ context other, (handler context).value = (handler other).value

/-- No handler or hook that is registered lets the context into its outcome. -/
structure Registrations.ContextFree (registrations : Registrations S E C A) :
    Prop where
  rows : ∀ row ∈ registrations.rows, ∀ state event,
    ObzenflowFsm.ContextFree (row.handler state event)
  timeouts : ∀ timeout ∈ registrations.timeouts, ∀ state,
    ObzenflowFsm.ContextFree (timeout.2.2 state)
  entries : ∀ hook ∈ registrations.entries, ∀ state,
    ObzenflowFsm.ContextFree (hook.2 state)
  exits : ∀ hook ∈ registrations.exits, ∀ state,
    ObzenflowFsm.ContextFree (hook.2 state)
  unhandled : ∀ handler ∈ registrations.unhandled, ∀ state event,
    ObzenflowFsm.ContextFree (handler state event)

theorem ContextFree.settle {Value : Type}
    {handler : C → BoxFuture C (FsmResult Value)} (free : ContextFree handler) :
    (ObzenflowFsm.settle handler).Oblivious :=
  free

theorem ContextFree.settleTransition
    {handler : C → BoxFuture C (FsmResult (Transition S A))}
    (free : ContextFree handler) :
    (ObzenflowFsm.settleTransition handler).Oblivious := by
  intro context other
  simp only [ObzenflowFsm.settleTransition, free context other]

theorem Registrations.ContextFree.row
    {registrations : Registrations S E C A} (free : registrations.ContextFree)
    {key : String × String} {handler : TransitionHandler S E C A}
    (found : latest (registrations.rows.map Row.entry) key = some handler)
    (state : S) (event : E) :
    ObzenflowFsm.ContextFree (handler state event) := by
  obtain ⟨row, member, entry⟩ := List.mem_map.mp (mem_of_latest found)
  cases entry
  exact free.rows row member state event

section Reference

variable [StateVariant S] [EventVariant E]
  {registrations : Registrations S E C A}

theorem settleHook_oblivious {hooks : List (String × StateHandler S C A)}
    (free : ∀ hook ∈ hooks, ∀ state, ContextFree (hook.2 state)) (state : S) :
    (settleHook hooks state).Oblivious := by
  unfold settleHook
  cases found : latest hooks (StateVariant.variantName state) with
  | none => exact fun _ _ => rfl
  | some handler =>
      exact (free _ (mem_of_latest found) state).settle

theorem Registrations.ContextFree.react (free : registrations.ContextFree)
    (state : S) (event : E) : (registrations.react state event).Oblivious := by
  unfold Registrations.react
  simp only
  split
  · rename_i handler found
    exact (free.row found state event).settleTransition
  · split
    · rename_i handler found
      exact (free.row found state event).settleTransition
    · split
      · rename_i handler found
        exact (free.unhandled handler found state event).settle
      · trivial

theorem Registrations.ContextFree.reference
    (free : registrations.ContextFree) : registrations.reference.Oblivious where
  react := free.react
  expire := by
    intro state run expires
    obtain ⟨timeout, found, rfl⟩ := Option.map_eq_some_iff.mp expires
    exact (free.timeouts _ (mem_of_latest found) state).settleTransition
  leave := settleHook_oblivious free.exits
  enter := settleHook_oblivious free.entries

end Reference

/-! ### Hosts that run the actions, and hosts that do not -/

/-- A call, but for the context it is lent. -/
inductive Request (E : Type) where
  | handle (event : E) (armed : Instant)
  | checkTimeout (polled armed : Instant)

def Request.call (request : Request E) (context : C) : Call E C :=
  match request with
  | .handle event armed => .handle event context armed
  | .checkTimeout polled armed => .checkTimeout context polled armed

/-- Which actions a host runs of those a call returns, in batches that each end
at their first failure. -/
abbrev Plan (A : Type) : Type := List A → List (List A)

def Plan.perform [FsmAction A C] (plan : Plan A) (actions : List A)
    (context : C) : C :=
  (plan actions).foldl
    (fun context batch => (executeActions batch context).state) context

structure Host (S E C A : Type) where
  machine : StateMachine S E C A
  context : C

namespace Host

variable [StateVariant S] [EventVariant E]

/-- Make a call and run the planned actions on the context it leaves. -/
def live [FsmAction A C] (host : Host S E C A)
    (order : Request E × Plan A) :
    (FsmResult (List A) × Position S) × Host S E C A :=
  let report := host.machine.report (order.1.call host.context)
  ((report.result, report.machine.position),
    { machine := report.machine
      context := order.2.perform report.returned report.context })

/-- Make the same call and run no action. -/
def replay (host : Host S E C A) (order : Request E × Plan A) :
    (FsmResult (List A) × Position S) × Host S E C A :=
  let report := host.machine.report (order.1.call host.context)
  ((report.result, report.machine.position),
    { machine := report.machine, context := report.context })

end Host

theorem StateMachine.eq_of_position
    {machine other : StateMachine S E C A}
    (tables : machine.toTables = other.toTables)
    (position : machine.position = other.position) : machine = other := by
  obtain ⟨held, state, deadline⟩ := machine
  obtain ⟨otherHeld, otherState, otherDeadline⟩ := other
  cases tables
  cases position
  rfl

section Run

variable [StateVariant S] [EventVariant E]
  {registrations : Registrations S E C A}

/-- The context a call is lent shows neither in its result nor in the machine
it leaves. -/
theorem Tables.Hold.report_indistinct {machine : StateMachine S E C A}
    (holds : machine.toTables.Hold registrations)
    (free : registrations.ContextFree) (request : Request E)
    (context other : C) :
    (machine.report (request.call context)).result =
        (machine.report (request.call other)).result ∧
      (machine.report (request.call context)).machine =
        (machine.report (request.call other)).machine := by
  have indistinct : Machine.Indistinct
      (machine.report (request.call context)).response
      (machine.report (request.call other)).response := by
    rw [holds.response_eq, holds.response_eq]
    cases request with
    | handle event armed =>
        exact free.reference.onEvent machine.position event context other armed
    | checkTimeout polled armed =>
        exact free.reference.onPoll machine.position context other polled armed
  refine ⟨indistinct.result, ?_⟩
  apply StateMachine.eq_of_position ?_ indistinct.position
  rw [StateMachine.report_toTables, StateMachine.report_toTables]

/-- Replaying the calls of a live run gives the same results, states and
deadlines, whatever the actions did to the context of the live run. -/
theorem Chain.replay_eq_live [FsmAction A C] (chain : Chain S E C A .fsm)
    (now : Instant) (free : chain.registrations.ContextFree)
    {machine : StateMachine S E C A} (reaches : chain.Reaches now machine)
    (context other : C) (orders : List (Request E × Plan A)) :
    Trajectory.outputs Host.live ⟨machine, context⟩ orders =
      Trajectory.outputs Host.replay ⟨machine, other⟩ orders := by
  refine (Trajectory.outputs_eq_of_simulation
    (fun (live replayed : Host S E C A) =>
      live.machine = replayed.machine ∧
        live.machine.toTables.Hold chain.registrations)
    ?_ ?_ orders).1
  rotate_left
  · exact ⟨rfl, reaches.hold⟩
  intro live replayed order related
  obtain ⟨held, lent⟩ := live
  obtain ⟨_, otherLent⟩ := replayed
  obtain ⟨same, holds⟩ := related
  cases same
  obtain ⟨results, machines⟩ :=
    holds.report_indistinct free order.1 lent otherLent
  refine ⟨Prod.ext results (congrArg StateMachine.position machines),
    machines, ?_⟩
  change (held.report _).machine.toTables.Hold _
  rw [StateMachine.report_toTables]
  exact holds

end Run

namespace Door

/-- The bell is out of order. -/
instance : FsmAction DoorAction DoorContext where
  execute
    | .ring, context => .ready (.error (.handlerError "no bell")) context
    | .log message, context =>
        .ready (.ok ()) { context with log := context.log ++ [message] }

def eachAction : Plan DoorAction :=
  List.map fun action => [action]

def allActions : Plan DoorAction := fun actions => [actions]

def visitOrders : List (Request DoorEvent × Plan DoorAction) :=
  [(.handle .opening 5, eachAction), (.handle .opening 6, allActions),
    (.checkTimeout (openFor + 5) (openFor + 7), allActions)]

theorem greeted_contextFree : (chain greet).registrations.ContextFree where
  rows := by
    intro row member state event context other
    rcases List.mem_cons.mp member with rfl | member
    · rfl
    · cases List.mem_singleton.mp member
      rfl
  timeouts := by
    intro timeout member state context other
    cases List.mem_singleton.mp member
    rfl
  entries := by
    intro hook member state context other
    cases List.mem_singleton.mp member
    rfl
  exits := by
    intro hook member
    cases member
  unhandled := by
    intro handler member
    cases member

theorem visit_replayed :
    Trajectory.outputs Host.live ⟨machine greet, {}⟩ visitOrders =
      Trajectory.outputs Host.replay ⟨machine greet, ⟨["visited"]⟩⟩
        visitOrders :=
  (chain greet).replay_eq_live 0 greeted_contextFree (reaches greet) _ _ _

end Door

end ObzenflowFsm
