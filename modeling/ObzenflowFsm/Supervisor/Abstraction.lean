import ObzenflowFsm.Supervisor
import ObzenflowFsm.Machine.Abstraction
import ObzenflowFsm.Machine.Refinement

namespace ObzenflowFsm

open Polling Registry

variable {S E C A T F D B Value Answer Result Reply : Type}

namespace Abstraction

variable (view : Abstraction S E C A T F D B)

/-! Hosts of machines of which one is an abstraction of the other. -/

inductive Requests : Request E → Request F → Prop
  | handle {occurred : E} {other : F} (occurs : view.event occurred other)
      (armed : Instant) :
      Requests (.handle occurred armed) (.handle other (armed + view.delay))
  | checkTimeout (polled armed : Instant) :
      Requests (.checkTimeout polled armed)
        (.checkTimeout (polled + view.delay) (armed + view.delay))

inductive Entries : Entry E C A → Entry F D B → Prop
  | answered (policy : Policy) {call : Call E C} {twin : Call F D}
      {result : FsmResult (List A)} {reply : FsmResult (List B)}
      (calls : view.Calls call twin)
      (agree : Async.Agree (List.Forall₂ view.action) result reply) :
      Entries (.answered policy call result) (.answered policy twin reply)
  | received {occurred : E} {other : F} (occurs : view.event occurred other) :
      Entries (.received occurred) (.received other)
  | executed (policy : Policy) {done : A} {other : B}
      (acts : view.action done other) (error : Option FsmError) :
      Entries (.executed policy done error) (.executed policy other error)
  | mapped (error : FsmError) {occurred : E} {other : F}
      (occurs : view.event occurred other) :
      Entries (.mapped error occurred) (.mapped error other)

abbrev Journals : List (Entry E C A) → List (Entry F D B) → Prop :=
  List.Forall₂ view.Entries

/-- After journals that correspond, the hosts do what corresponds. -/
structure Environments (environment : Environment E C A)
    (other : Environment F D B) : Prop where
  polled : ∀ journal twin, view.Journals journal twin →
    environment.polled journal + view.delay = other.polled twin
  armed : ∀ journal twin, view.Journals journal twin →
    environment.armed journal + view.delay = other.armed twin
  receive : ∀ journal twin, view.Journals journal twin →
    ∀ given lent, view.context given lent →
      (environment.receive journal given).Lockstep view.event view.context
        (other.receive twin lent)
  mapFailure : ∀ journal twin, view.Journals journal twin →
    ∀ error given lent, view.context given lent →
      (environment.mapFailure journal error given).Lockstep view.event
        view.context (other.mapFailure twin error lent)

def Executes [FsmAction A C] [FsmAction B D] : Prop :=
  ∀ action other, view.action action other →
    view.Answers Eq (FsmAction.execute action) (FsmAction.execute other)

structure Supervisors (supervisor : Supervisor S E C A)
    (other : Supervisor T F D B) : Prop where
  machine : view.Machines supervisor.machine other.machine
  context : view.context supervisor.context other.context
  journal : view.Journals supervisor.journal other.journal

/-! ### What the loop is made of -/

def Supervisions (answers : Value → Answer → Prop)
    (body : Supervision S E C A Value) (other : Supervision T F D B Answer) :
    Prop :=
  Async.Lockstep view.Supervisors answers body other

variable {view}

theorem Supervisions.bind {answers : Value → Answer → Prop}
    {replies : Result → Reply → Prop} {body : Supervision S E C A Value}
    {other : Supervision T F D B Answer}
    {next : Value → Supervision S E C A Result}
    {after : Answer → Supervision T F D B Reply}
    (head : view.Supervisions answers body other)
    (tail : ∀ value answer, answers value answer →
      view.Supervisions replies (next value) (after answer)) :
    view.Supervisions replies (body >>= next) (other >>= after) :=
  Async.Lockstep.bind head tail

theorem supervisions_enter {entry : Entry E C A} {other : Entry F D B}
    (entries : view.Entries entry other) :
    view.Supervisions Eq (Supervisor.enter entry) (Supervisor.enter other) := by
  refine Async.Lockstep.modify fun before twin supervisors => ?_
  exact ⟨supervisors.machine, supervisors.context,
    List.rel_append supervisors.journal (.cons entries .nil)⟩

theorem supervisions_propagate {answers : Value → Answer → Prop}
    {result : FsmResult Value} {reply : FsmResult Answer}
    (agree : Async.Agree answers result reply) :
    view.Supervisions answers (Supervisor.propagate result)
      (Supervisor.propagate reply) := by
  cases agree with
  | ok answered => exact .pure answered
  | error => exact .fail _

theorem supervisions_borrow {answers : Value → Answer → Prop}
    {future : C → BoxFuture C Value} {other : D → BoxFuture D Answer}
    (runs : ∀ given lent, view.context given lent →
      (future given).Lockstep answers view.context (other lent)) :
    view.Supervisions answers (Supervisor.borrow future)
      (Supervisor.borrow other) := by
  refine .awaiting (fun _ _ => view.context) ?_ ?_
  · exact fun _ _ supervisors => runs _ _ supervisors.context
  · exact fun _ _ _ _ supervisors left =>
      ⟨supervisors.machine, left, supervisors.journal⟩

theorem Requests.calls {request : Request E} {twin : Request F}
    (requests : view.Requests request twin) {given : C} {lent : D}
    (lends : view.context given lent) :
    view.Calls (request.call given) (twin.call lent) := by
  cases requests with
  | handle occurs armed => exact .handle occurs lends armed
  | checkTimeout polled armed => exact .checkTimeout lends polled armed

section Calls

variable [StateVariant S] [EventVariant E] [StateVariant T] [EventVariant F]
  (named : view.Named)

include named in
theorem supervisions_call {request : Request E} {twin : Request F}
    (requests : view.Requests request twin) :
    view.Supervisions (Async.Agree (List.Forall₂ view.action))
      (Supervisor.call request) (Supervisor.call twin) := by
  refine .awaiting (fun _ _ => view.Worlds) ?_ ?_
  · exact fun _ _ supervisors => supervisors.machine.perform named
      (requests.calls supervisors.context)
  · exact fun _ _ _ _ supervisors left =>
      ⟨left.machine, left.context, supervisors.journal⟩

include named in
theorem supervisions_consult (policy : Policy)
    {request : List (Entry E C A) → Request E}
    {later : List (Entry F D B) → Request F}
    (asks : ∀ journal twin, view.Journals journal twin →
      view.Requests (request journal) (later twin)) :
    view.Supervisions (List.Forall₂ view.action)
      (Supervisor.consult policy request)
      (Supervisor.consult policy later) := by
  refine Supervisions.bind .read fun before twin supervisors => ?_
  have requests := asks _ _ supervisors.journal
  have calls := requests.calls supervisors.context
  refine (supervisions_call named requests).bind fun result reply agree => ?_
  refine (supervisions_enter (.answered policy calls agree)).bind
    fun _ _ _ => ?_
  exact supervisions_propagate agree

end Calls

section Served

variable {environment : Environment E C A} {later : Environment F D B}
  (environments : view.Environments environment later)

include environments in
theorem supervisions_receive :
    view.Supervisions view.event
      (Supervisor.receive environment : Supervision S E C A E)
      (Supervisor.receive later : Supervision T F D B F) := by
  refine Supervisions.bind .read fun before twin supervisors => ?_
  have receives := environments.receive _ _ supervisors.journal
  refine (supervisions_borrow receives).bind fun _ _ occurs => ?_
  refine (supervisions_enter (.received occurs)).bind fun _ _ _ => ?_
  exact .pure occurs

include environments in
theorem supervisions_mapFailure (error : FsmError) :
    view.Supervisions view.event
      (Supervisor.mapFailure environment error : Supervision S E C A E)
      (Supervisor.mapFailure later error : Supervision T F D B F) := by
  refine Supervisions.bind .read fun before twin supervisors => ?_
  have maps := environments.mapFailure _ _ supervisors.journal error
  refine (supervisions_borrow maps).bind fun _ _ occurs => ?_
  refine (supervisions_enter (.mapped error occurs)).bind fun _ _ _ => ?_
  exact .pure occurs

section Asked

variable [StateVariant S] [EventVariant E] [StateVariant T] [EventVariant F]
  (named : view.Named)

include environments named in
theorem supervisions_handle (policy : Policy) {event : E} {other : F}
    (occurs : view.event event other) :
    view.Supervisions (List.Forall₂ view.action)
      (Supervisor.handle environment policy event)
      (Supervisor.handle later policy other) := by
  refine supervisions_consult named policy fun journal twin journals => ?_
  rw [← environments.armed journal twin journals]
  exact .handle occurs _

include environments named in
theorem supervisions_checkTimeout :
    view.Supervisions (List.Forall₂ view.action)
      (Supervisor.checkTimeout environment)
      (Supervisor.checkTimeout later) := by
  refine supervisions_consult named .propagate fun journal twin journals => ?_
  rw [← environments.armed journal twin journals,
    ← environments.polled journal twin journals]
  exact .checkTimeout _ _

end Asked

variable [FsmAction A C] [FsmAction B D] (executes : view.Executes)

include executes in
theorem supervisions_attempt (policy : Policy) {action : A} {other : B}
    (acts : view.action action other) :
    view.Supervisions (Async.Agree Eq)
      (Supervisor.attempt policy action : Supervision S E C A _)
      (Supervisor.attempt policy other : Supervision T F D B _) := by
  refine (supervisions_borrow (executes action other acts)).bind ?_
  intro result reply agree
  obtain rfl := agree.eq
  exact (supervisions_enter (.executed policy acts _)).bind fun _ _ _ =>
    .pure agree

include executes in
theorem supervisions_execute {action : A} {other : B}
    (acts : view.action action other) :
    view.Supervisions Eq
      (Supervisor.execute action : Supervision S E C A Unit)
      (Supervisor.execute other : Supervision T F D B Unit) :=
  (supervisions_attempt executes .propagate acts).bind fun _ _ agree =>
    supervisions_propagate agree

variable [StateVariant S] [EventVariant E] [StateVariant T] [EventVariant F]
  (named : view.Named)

include environments executes named in
theorem supervisions_recover (error : FsmError) :
    view.Supervisions Eq
      (Supervisor.recover environment error : Supervision S E C A Unit)
      (Supervisor.recover later error : Supervision T F D B Unit) := by
  refine (supervisions_mapFailure environments error).bind
    fun failureEvent other occurs => ?_
  refine (supervisions_handle environments named .propagate occurs).bind
    fun actions others matched => ?_
  exact .forEach (fun _ _ acts => supervisions_execute executes acts) matched

include environments executes named in
theorem supervisions_executeOrRecover {action : A} {other : B}
    (acts : view.action action other) :
    view.Supervisions Eq
      (Supervisor.executeOrRecover environment action :
        Supervision S E C A Unit)
      (Supervisor.executeOrRecover later other : Supervision T F D B Unit) := by
  refine (supervisions_attempt executes .recover acts).bind ?_
  intro result reply agree
  cases agree with
  | ok answered => exact .pure rfl
  | error => exact supervisions_recover environments executes named _

include environments executes named in
theorem supervisions_turn :
    view.Supervisions Eq
      (Supervisor.turn environment : Supervision S E C A Unit)
      (Supervisor.turn later : Supervision T F D B Unit) := by
  refine (supervisions_checkTimeout environments named).bind
    fun timeoutActions others expired => ?_
  refine Supervisions.bind
    (.forEach (fun _ _ acts => supervisions_execute executes acts) expired)
    fun _ _ _ => ?_
  refine (supervisions_receive environments).bind fun event other occurs => ?_
  refine (supervisions_handle environments named .recover occurs).bind
    fun actions twins matched => ?_
  exact .forEach
    (fun _ _ acts =>
      supervisions_executeOrRecover environments executes named acts)
    matched

include environments executes named in
theorem supervisions_supervise (turns : Nat) :
    view.Supervisions Eq
      (Supervisor.supervise environment turns : Supervision S E C A Unit)
      (Supervisor.supervise later turns : Supervision T F D B Unit) :=
  .rounds (supervisions_turn environments executes named) turns

end Served

/-! ### Registrations that correspond -/

/-- What was registered last under each key corresponds, whatever the order
and whatever it replaced. -/
structure Registered (view : Abstraction S E C A T F D B)
    (registrations : Registrations S E C A)
    (others : Registrations T F D B) : Prop where
  rows : ∀ key, Option.Rel view.Handles
    (latest (registrations.rows.map Row.entry) key)
    (latest (others.rows.map Row.entry) key)
  timeouts : ∀ name, Option.Rel view.Expires
    (latest registrations.timeouts name) (latest others.timeouts name)
  entries : ∀ name, Option.Rel view.Hooks
    (latest registrations.entries name) (latest others.entries name)
  exits : ∀ name, Option.Rel view.Hooks
    (latest registrations.exits name) (latest others.exits name)
  unhandled : Option.Rel view.Absorbs registrations.unhandled others.unhandled

namespace Registered

variable {registrations : Registrations S E C A}
  {others : Registrations T F D B}

theorem lookups (registered : view.Registered registrations others)
    {tables : Tables S E C A} {otherTables : Tables T F D B}
    (holds : tables.Hold registrations) (otherHolds : otherTables.Hold others) :
    view.Lookups tables otherTables where
  transitions := fun key => by
    rw [holds.transitions, otherHolds.transitions]
    exact registered.rows key
  entries := fun name => by
    rw [holds.entries, otherHolds.entries]
    exact registered.entries name
  exits := fun name => by
    rw [holds.exits, otherHolds.exits]
    exact registered.exits name
  timeouts := fun name => by
    rw [holds.timeouts, otherHolds.timeouts]
    exact registered.timeouts name
  unhandled := by
    rw [holds.unhandled, otherHolds.unhandled]
    exact registered.unhandled

theorem serves (registered : view.Registered registrations others)
    {stateName : String} (serves : registrations.Serves stateName) :
    others.Serves stateName := by
  rcases serves with named | named
  · obtain ⟨row, member, rfl⟩ := List.mem_map.mp named
    have keyed : row.key ∈ (registrations.rows.map Row.entry).map Prod.fst :=
      List.mem_map_of_mem (List.mem_map_of_mem member)
    rw [mem_keys_iff_of_rel (registered.rows row.key)] at keyed
    obtain ⟨entry, entryMember, same⟩ := List.mem_map.mp keyed
    obtain ⟨twin, twinMember, rfl⟩ := List.mem_map.mp entryMember
    exact .inl (List.mem_map.mpr ⟨twin, twinMember, congrArg Prod.fst same⟩)
  · exact .inr ((mem_keys_iff_of_rel (registered.timeouts stateName)).mp named)

theorem delay_eq [StateVariant S] [StateVariant T] [EventVariant E]
    [EventVariant F] (registered : view.Registered registrations others)
    (named : view.Named) {here : S} {there : T}
    (stands : view.state here there) :
    registrations.reference.delay here = others.reference.delay there := by
  have found := registered.timeouts (StateVariant.variantName here)
  change (latest registrations.timeouts _).map Prod.fst =
    (latest others.timeouts _).map Prod.fst
  rw [← named.state here there stands]
  generalize latest registrations.timeouts _ = first at found ⊢
  generalize latest others.timeouts _ = second at found ⊢
  cases found with
  | none => rfl
  | some expires => exact congrArg some expires.duration

end Registered

section Built

variable [StateVariant S] [EventVariant E] [StateVariant T] [EventVariant F]
  (named : view.Named)

include named in
theorem machines_of_built {chain : Chain S E C A .fsm}
    {other : Chain T F D B .fsm}
    (registered : view.Registered chain.registrations other.registrations)
    (initial : view.state chain.initialState other.initialState)
    {now : Instant} {machine : StateMachine S E C A}
    {twin : StateMachine T F D B}
    (built : chain.eval.tryBuild now = .ok machine)
    (twinBuilt : other.eval.tryBuild (now + view.delay) = .ok twin) :
    view.Machines machine twin := by
  have position : machine.position = _ := Chain.position_of_built built
  have twinPosition : twin.position = _ := Chain.position_of_built twinBuilt
  have deadline := congrArg TimedMealy.Position.deadline position
  have twinDeadline := congrArg TimedMealy.Position.deadline twinPosition
  have state := congrArg TimedMealy.Position.state position
  have twinState := congrArg TimedMealy.Position.state twinPosition
  refine ⟨registered.lookups (chain.hold_of_built built)
    (other.hold_of_built twinBuilt), ?_, ?_⟩
  · change machine.currentState = chain.initialState at state
    change twin.currentState = other.initialState at twinState
    rw [state, twinState]
    exact initial
  · change machine.stateTimeout = _ at deadline
    change twin.stateTimeout = _ at twinDeadline
    rw [deadline, twinDeadline]
    simp only [TimedMealy.Machine.start, registered.delay_eq named initial,
      Option.map_map]
    congr 1
    funext timeout
    exact Nat.add_right_comm now timeout view.delay

end Built

end Abstraction

/-- A machine whose handlers are, key by key, abstractions of another's is
refused for a repeated key, or goes through its host's loop in lockstep with
the other: what a host can tell of a machine is what its last registrations do,
up to the correspondence, and the time that passes. -/
theorem Chain.supervise_abstracts [StateVariant S] [EventVariant E]
    [FsmAction A C] [StateVariant T] [EventVariant F] [FsmAction B D]
    (view : Abstraction S E C A T F D B) (named : view.Named)
    (executes : view.Executes) (chain : Chain S E C A .fsm)
    (other : Chain T F D B .fsm)
    (registered : view.Registered chain.registrations other.registrations)
    (initial : view.state chain.initialState other.initialState)
    (now : Instant) {machine : StateMachine S E C A}
    (built : chain.eval.tryBuild now = .ok machine) :
    (∃ state event, other.eval.tryBuild (now + view.delay) =
        .error (.duplicateHandler state event)) ∨
      ∃ twin, other.eval.tryBuild (now + view.delay) = .ok twin ∧
        ∀ (environment : Environment E C A) (later : Environment F D B),
          view.Environments environment later →
            ∀ given lent, view.context given lent → ∀ turns : Nat,
              (Supervisor.supervise environment turns
                  (.start machine given)).Lockstep Eq view.Supervisors
                (Supervisor.supervise later turns (.start twin lent)) := by
  have serves := registered.serves ((chain.accepted_iff now).mp built).serves
  rw [named.state _ _ initial] at serves
  have verdict := other.tryBuild_eq (now + view.delay)
  cases recorded : other.registrations.firstRecorded with
  | some key =>
      rw [recorded] at verdict
      exact .inl ⟨key.1, key.2, verdict⟩
  | none =>
      rw [recorded] at verdict
      have twinBuilt := verdict.trans (if_pos serves)
      refine .inr ⟨_, twinBuilt, ?_⟩
      intro environment later environments given lent lends turns
      have machines :=
        Abstraction.machines_of_built named registered initial built twinBuilt
      have supervisions : view.Supervisions Eq _ _ :=
        Abstraction.supervisions_supervise environments executes named turns
      exact (supervisions _ _ ⟨machines, lends, .nil⟩).weaken
        fun _ _ agree => agree.eq

namespace Door

/-! A door that counts what the other would log, set up in another order, with
a hook that is registered over. -/

inductive TallyAction where
  | ring
  | count

instance : FsmAction TallyAction Nat where
  execute
    | .ring, context => .ready (.error (.handlerError "no bell")) context
    | .count, context => .ready (.ok ()) (context + 1)

def tallied : DoorAction → TallyAction
  | .ring => .ring
  | .log _ => .count

/-- The counting door's clock is five nanoseconds ahead. -/
def tally :
    Abstraction DoorState DoorEvent DoorContext DoorAction DoorState DoorEvent
      Nat TallyAction where
  state := Eq
  event := Eq
  context := fun given lent => given.log.length = lent
  action := fun action other => tallied action = other
  delay := 5

def tallyTo (nextState : DoorState) (actions : List TallyAction)
    (context : Nat) :
    BoxFuture Nat (FsmResult (Transition DoorState TallyAction)) :=
  .ready (.ok ⟨nextState, actions⟩) context

def tallyHook (actions : List TallyAction) :
    StateHandler DoorState Nat TallyAction :=
  fun _ context => .ready (.ok actions) context

def tallyChain : Chain DoorState DoorEvent Nat TallyAction .fsm :=
  Chain.new .closed
    |>.call (.onEntry "Open" (tallyHook []))
    |>.call (.when "Open")
    |>.call (.timeout openFor fun _ => tallyTo .closed [.count])
    |>.call (.timeoutOn "Close" fun _ _ => tallyTo .closed [.count])
    |>.call .timeoutDone
    |>.call (.when "Closed")
    |>.call (.whenOn "Open" fun _ _ => tallyTo .opened [.ring, .count])
    |>.call .whenDone
    |>.call (.onEntry "Open" (tallyHook [.ring]))

theorem tally_named : tally.Named where
  state := fun _ _ stands => congrArg StateVariant.variantName stands
  event := fun _ _ occurs => congrArg EventVariant.variantName occurs

theorem tally_executes : tally.Executes := by
  rintro action _ rfl given lent lends
  cases action with
  | ring => exact .ready .error lends
  | log message =>
      refine .ready (.ok rfl) ?_
      change (given.log ++ [message]).length = lent + 1
      rw [List.length_append, List.length_singleton]
      exact congrArg (· + 1) lends

theorem tally_answers (nextState : DoorState) (actions : List DoorAction) :
    tally.Answers tally.Leads
      (fun context => .ready (.ok ⟨nextState, actions⟩) context)
      (tallyTo nextState (actions.map tallied)) := by
  intro given lent lends
  have counted : List.Forall₂ tally.action actions (actions.map tallied) :=
    List.forall₂_map_right_iff.mpr (List.forall₂_same.mpr fun _ _ => rfl)
  exact .ready (.ok ⟨rfl, counted⟩) lends

theorem tally_registered :
    tally.Registered (chain greet).registrations tallyChain.registrations where
  rows := fun key => by
    have swapped : (tallyChain.registrations.rows.map Row.entry).Perm _ :=
      .swap _ _ _
    rw [latest_eq_of_perm swapped (by decide) key]
    refine rel_latest_cons (rel_latest_cons .none ?_ _) ?_ _
    · exact fun _ _ _ _ _ _ => tally_answers .closed [.log "Door closed"]
    · exact fun _ _ _ _ _ _ =>
        tally_answers .opened [.ring, .log "Door opened"]
  timeouts := fun name => by
    refine rel_latest_cons .none ⟨rfl, ?_⟩ _
    exact fun _ _ _ => tally_answers .closed [.log "Auto-closed"]
  entries := fun name => by
    have hooks : tally.Hooks greet (tallyHook [.ring]) :=
      fun _ _ _ _ _ lends => .ready (.ok (.cons rfl .nil)) lends
    have overwritten : latest tallyChain.registrations.entries name =
        latest [("Open", tallyHook [.ring])] name := by
      change latest ([("Open", _)] ++ [("Open", _)]) name = _
      rw [latest_concat]
      by_cases named : "Open" = name
      · simp [latest, named]
      · simp [latest, named]
    rw [overwritten]
    exact rel_latest_cons .none hooks _
  exits := fun _ => .none
  unhandled := .none

/-- The porter of the counting door. -/
def tallyPorter : Environment DoorEvent Nat TallyAction where
  polled := fun journal => journal.length + 5
  armed := fun journal => journal.length + 5
  receive := fun _ context => .pending context (.ready .opening context)
  mapFailure := fun _ _ context => .ready .opening context

theorem tally_environments : tally.Environments porter tallyPorter where
  polled := fun _ _ journals => congrArg (· + 5) journals.length_eq
  armed := fun _ _ journals => congrArg (· + 5) journals.length_eq
  receive := fun _ _ _ _ _ lends => .pending lends (.ready rfl lends)
  mapFailure := fun _ _ _ _ _ _ lends => .ready rfl lends

theorem tallied_supervised :
    ∃ twin, tallyChain.eval.tryBuild (0 + 5) = .ok twin ∧
      (Supervisor.supervise porter 3
          (.start (machine greet) {})).Lockstep Eq tally.Supervisors
        (Supervisor.supervise tallyPorter 3 (.start twin 0)) := by
  rcases (chain greet).supervise_abstracts tally tally_named tally_executes
    tallyChain tally_registered rfl 0 (built greet)
    with ⟨state, event, refused⟩ | ⟨twin, accepted, lockstep⟩
  · cases refused
  · exact ⟨twin, accepted,
      lockstep porter tallyPorter tally_environments {} 0 rfl 3⟩

end Door

end ObzenflowFsm
