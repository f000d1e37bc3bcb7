import ObzenflowFsm.Machine
import ObzenflowFsm.Theory.Lockstep

namespace ObzenflowFsm

open Polling

variable {S E C A T F D B Value Answer Result Reply : Type}

/-! Two machines of which one is an abstraction of the other, because their
handlers are, one by one. -/

/-- Which states, events, contexts and actions correspond, and how far apart
the clocks are. -/
structure Abstraction (S E C A T F D B : Type) where
  state : S → T → Prop
  event : E → F → Prop
  context : C → D → Prop
  action : A → B → Prop
  delay : Duration

namespace Abstraction

variable (view : Abstraction S E C A T F D B)

/-- What corresponds is of one variant. -/
structure Named [StateVariant S] [EventVariant E] [StateVariant T]
    [EventVariant F] : Prop where
  state : ∀ here there, view.state here there →
    StateVariant.variantName here = StateVariant.variantName there
  event : ∀ event other, view.event event other →
    EventVariant.variantName event = EventVariant.variantName other

structure Leads (first : Transition S A) (second : Transition T B) : Prop where
  nextState : view.state first.nextState second.nextState
  actions : List.Forall₂ view.action first.actions second.actions

/-- From contexts that correspond, the two run in lockstep. -/
def Answers (answers : Value → Answer → Prop)
    (first : C → BoxFuture C (FsmResult Value))
    (second : D → BoxFuture D (FsmResult Answer)) : Prop :=
  ∀ given lent, view.context given lent →
    (first given).Lockstep (Async.Agree answers) view.context (second lent)

def Handles (first : TransitionHandler S E C A)
    (second : TransitionHandler T F D B) : Prop :=
  ∀ here there, view.state here there → ∀ event other, view.event event other →
    view.Answers view.Leads (first here event) (second there other)

structure Expires (first : Duration × TimeoutHandler S C A)
    (second : Duration × TimeoutHandler T D B) : Prop where
  duration : first.1 = second.1
  handler : ∀ here there, view.state here there →
    view.Answers view.Leads (first.2 here) (second.2 there)

def Hooks (first : StateHandler S C A) (second : StateHandler T D B) : Prop :=
  ∀ here there, view.state here there →
    view.Answers (List.Forall₂ view.action) (first here) (second there)

def Absorbs (first : UnhandledHandler S E C)
    (second : UnhandledHandler T F D) : Prop :=
  ∀ here there, view.state here there → ∀ event other, view.event event other →
    view.Answers Eq (first here event) (second there other)

/-- Lookups find handlers that correspond, in whatever order the maps keep
their keys. -/
structure Lookups (tables : Tables S E C A) (others : Tables T F D B) :
    Prop where
  transitions : ∀ key, Option.Rel view.Handles
    (tables.transitions.lookup key) (others.transitions.lookup key)
  entries : ∀ name, Option.Rel view.Hooks
    (tables.entryHandlers.lookup name) (others.entryHandlers.lookup name)
  exits : ∀ name, Option.Rel view.Hooks
    (tables.exitHandlers.lookup name) (others.exitHandlers.lookup name)
  timeouts : ∀ name, Option.Rel view.Expires
    (tables.timeoutHandlers.lookup name) (others.timeoutHandlers.lookup name)
  unhandled : Option.Rel view.Absorbs tables.unhandledHandler
    others.unhandledHandler

structure Machines (machine : StateMachine S E C A)
    (other : StateMachine T F D B) : Prop where
  lookups : view.Lookups machine.toTables other.toTables
  state : view.state machine.currentState other.currentState
  deadline : machine.stateTimeout.map (· + view.delay) = other.stateTimeout

structure Worlds (world : World S E C A) (other : World T F D B) : Prop where
  machine : view.Machines world.machine other.machine
  context : view.context world.context other.context

inductive Calls : Call E C → Call F D → Prop
  | handle {occurred : E} {other : F} {given : C} {lent : D}
      (occurs : view.event occurred other) (lends : view.context given lent)
      (armed : Instant) :
      Calls (.handle occurred given armed)
        (.handle other lent (armed + view.delay))
  | checkTimeout {given : C} {lent : D} (lends : view.context given lent)
      (polled armed : Instant) :
      Calls (.checkTimeout given polled armed)
        (.checkTimeout lent (polled + view.delay) (armed + view.delay))

/-! ### What an engine is made of -/

def Engines (answers : Value → Answer → Prop) (body : Engine S E C A Value)
    (other : Engine T F D B Answer) : Prop :=
  Async.Lockstep view.Worlds answers body other

variable {view}

theorem Engines.bind {answers : Value → Answer → Prop}
    {replies : Result → Reply → Prop} {body : Engine S E C A Value}
    {other : Engine T F D B Answer} {next : Value → Engine S E C A Result}
    {after : Answer → Engine T F D B Reply}
    (head : view.Engines answers body other)
    (tail : ∀ value answer, answers value answer →
      view.Engines replies (next value) (after answer)) :
    view.Engines replies (body >>= next) (other >>= after) :=
  Async.Lockstep.bind head tail

theorem engines_self : view.Engines view.Machines self self :=
  Async.Lockstep.read.bind fun _ _ worlds => .pure worlds.machine

theorem engines_now (reading : Instant) :
    view.Engines (fun value answer => value + view.delay = answer)
      (now reading) (now (reading + view.delay)) := by
  refine Async.Lockstep.bind (.modify ?_) fun _ _ _ => .pure rfl
  exact fun _ _ worlds => ⟨worlds.machine, worlds.context⟩

theorem engines_assignState {here : S} {there : T}
    (stands : view.state here there) :
    view.Engines Eq (assignState here) (assignState there) := by
  refine Async.Lockstep.modify fun world other worlds => ?_
  exact ⟨⟨worlds.machine.lookups, stands, worlds.machine.deadline⟩,
    worlds.context⟩

theorem engines_assignTimeout (deadline : Option Instant) :
    view.Engines Eq (assignTimeout deadline)
      (assignTimeout (deadline.map (· + view.delay))) := by
  refine Async.Lockstep.modify fun world other worlds => ?_
  exact ⟨⟨worlds.machine.lookups, worlds.machine.state, rfl⟩, worlds.context⟩

theorem engines_invoke (first : Invocation S E C A)
    (second : Invocation T F D B) {answers : first.Output → second.Output → Prop}
    (runs : view.Answers answers first.future second.future) :
    view.Engines answers (invoke first) (invoke second) := by
  intro world other worlds
  have holds (given : C) (lent : D) (corresponds : view.context given lent) :
      view.Worlds (world.holding given) (other.holding lent) :=
    ⟨worlds.machine, corresponds⟩
  refine ((runs _ _ worlds.context).within holds).bind ?_
  exact fun _ _ _ _ agree left => .ready agree ⟨left.machine, left.context⟩

/-! ### Calls -/

theorem engines_awaitHook (side : Side) {handlers : StateHandlerMap S C A}
    {others : StateHandlerMap T D B} {stateName : String}
    (found : Option.Rel view.Hooks (handlers.lookup stateName)
      (others.lookup stateName))
    {here : S} {there : T} (stands : view.state here there) :
    view.Engines (List.Forall₂ view.action)
      (StateMachine.awaitHook side handlers stateName here)
      (StateMachine.awaitHook side others stateName there) := by
  unfold StateMachine.awaitHook
  generalize handlers.lookup stateName = first at found ⊢
  generalize others.lookup stateName = second at found ⊢
  cases found with
  | none => exact .pure .nil
  | some hooks =>
      exact engines_invoke (.hook side stateName _ here)
        (.hook side stateName _ there) (hooks here there stands)

theorem engines_scheduleTimeout {handlers : TimeoutHandlerMap S C A}
    {others : TimeoutHandlerMap T D B} {stateName : String}
    (found : Option.Rel view.Expires (handlers.lookup stateName)
      (others.lookup stateName)) (armed : Instant) :
    view.Engines Eq (StateMachine.scheduleTimeout handlers stateName armed)
      (StateMachine.scheduleTimeout others stateName (armed + view.delay)) := by
  unfold StateMachine.scheduleTimeout
  generalize handlers.lookup stateName = first at found ⊢
  generalize others.lookup stateName = second at found ⊢
  cases found with
  | none => exact engines_assignTimeout none
  | some expires =>
      rename_i timeout other
      refine (engines_now armed).bind ?_
      rintro reading _ rfl
      have delayed : reading + view.delay + other.1 =
          reading + timeout.1 + view.delay := by
        rw [expires.duration]
        exact Nat.add_right_comm reading view.delay other.1
      rw [delayed]
      exact engines_assignTimeout (some (reading + timeout.1))

variable [StateVariant S] [EventVariant E] [StateVariant T] [EventVariant F]
  (named : view.Named)

include named in
theorem engines_applyTransition (armed : Instant) {first : Transition S A}
    {second : Transition T B} (leads : view.Leads first second) :
    view.Engines (List.Forall₂ view.action)
      (StateMachine.applyTransition armed first)
      (StateMachine.applyTransition (armed + view.delay) second) := by
  unfold StateMachine.applyTransition
  refine engines_self.bind fun machine other machines => ?_
  have leaves := named.state _ _ machines.state
  have arrives := named.state _ _ leads.nextState
  rw [← leaves, ← arrives]
  refine (engines_awaitHook .exit (machines.lookups.exits _)
    machines.state).bind fun exits otherExits exited => ?_
  refine (engines_assignState leads.nextState).bind fun _ _ _ => ?_
  refine engines_self.bind fun entered otherEntered stands => ?_
  refine (engines_awaitHook .entry (stands.lookups.entries _)
    stands.state).bind fun entries otherEntries enters => ?_
  refine (engines_scheduleTimeout (stands.lookups.timeouts _)
    armed).bind fun _ _ _ => ?_
  exact .pure (List.rel_append (List.rel_append exited enters) leads.actions)

include named in
theorem engines_fire (armed : Instant) (first : Trigger S E C A)
    (second : Trigger T F D B)
    (runs : view.Answers view.Leads first.future second.future) :
    view.Engines (List.Forall₂ view.action)
      ((invoke (.trigger first) : Engine S E C A (Transition S A)) >>=
        fun transition => StateMachine.applyTransition armed transition)
      ((invoke (.trigger second) : Engine T F D B (Transition T B)) >>=
        fun transition =>
          StateMachine.applyTransition (armed + view.delay) transition) :=
  (engines_invoke (.trigger first) (.trigger second) runs).bind
    fun _ _ leads => engines_applyTransition named armed leads

include named in
theorem engines_checkTimeout (polled armed : Instant) :
    view.Engines (List.Forall₂ view.action)
      (StateMachine.checkTimeout polled armed)
      (StateMachine.checkTimeout (polled + view.delay)
        (armed + view.delay)) := by
  unfold StateMachine.checkTimeout
  refine engines_self.bind fun machine other machines => ?_
  obtain ⟨tables, here, deadline⟩ := machine
  obtain ⟨others, there, _⟩ := other
  obtain ⟨lookups, stands, rfl⟩ := machines
  cases deadline with
  | none => exact .pure .nil
  | some deadline =>
      refine (engines_now polled).bind ?_
      rintro reading _ rfl
      have reaches : deadline + view.delay ≤ reading + view.delay ↔
          deadline ≤ reading := Nat.add_le_add_iff_right
      have variant := named.state here there stands
      have found : Option.Rel view.Expires
          (tables.timeoutHandlers.lookup (StateVariant.variantName here))
          (others.timeoutHandlers.lookup (StateVariant.variantName here)) :=
        lookups.timeouts _
      simp only [reaches]
      rw [← variant]
      generalize tables.timeoutHandlers.lookup _ = first at found ⊢
      generalize others.timeoutHandlers.lookup _ = second at found ⊢
      by_cases reached : deadline ≤ reading
      · simp only [if_pos reached]
        cases found with
        | none => exact .pure .nil
        | some expires =>
            exact engines_fire named armed (.timeout _ _ here)
              (.timeout _ _ there) (expires.handler here there stands)
      · simp only [if_neg reached]
        exact .pure .nil

include named in
theorem engines_handle (armed : Instant) {event : E} {other : F}
    (occurs : view.event event other) :
    view.Engines (List.Forall₂ view.action)
      (StateMachine.handle armed event)
      (StateMachine.handle (armed + view.delay) other) := by
  unfold StateMachine.handle
  refine engines_self.bind fun machine twin machines => ?_
  obtain ⟨tables, here, deadline⟩ := machine
  obtain ⟨others, there, _⟩ := twin
  obtain ⟨lookups, stands, rfl⟩ := machines
  have variant := named.state here there stands
  have eventVariant := named.event event other occurs
  have row (key : String × String) : Option.Rel view.Handles
      (tables.transitions.lookup key) (others.transitions.lookup key) :=
    lookups.transitions key
  have absorbs : Option.Rel view.Absorbs tables.unhandledHandler
      others.unhandledHandler := lookups.unhandled
  simp only
  rw [← variant, ← eventVariant]
  have exact :=
    row (StateVariant.variantName here, EventVariant.variantName event)
  have wildcard := row ("_", EventVariant.variantName event)
  generalize tables.transitions.lookup (StateVariant.variantName here, _) =
    first at exact ⊢
  generalize others.transitions.lookup (StateVariant.variantName here, _) =
    second at exact ⊢
  generalize tables.transitions.lookup ("_", _) = anyFirst at wildcard ⊢
  generalize others.transitions.lookup ("_", _) = anySecond at wildcard ⊢
  generalize tables.unhandledHandler = unhandled at absorbs ⊢
  generalize others.unhandledHandler = otherUnhandled at absorbs ⊢
  cases exact with
  | some handles =>
      exact engines_fire named armed (.transition _ _ here event)
        (.transition _ _ there other)
        (handles here there stands event other occurs)
  | none =>
      cases wildcard with
      | some handles =>
          exact engines_fire named armed (.transition _ _ here event)
            (.transition _ _ there other)
            (handles here there stands event other occurs)
      | none =>
          cases absorbs with
          | some runs =>
              refine (engines_invoke (.unhandled _ here event)
                (.unhandled _ there other)
                (runs here there stands event other occurs)).bind ?_
              exact fun _ _ _ => .pure .nil
          | none => exact .fail _

include named in
/-- Calls that correspond run in lockstep. -/
theorem Machines.perform {machine : StateMachine S E C A}
    {other : StateMachine T F D B} (machines : view.Machines machine other)
    {call : Call E C} {twin : Call F D} (calls : view.Calls call twin) :
    (machine.perform call).Lockstep (Async.Agree (List.Forall₂ view.action))
      view.Worlds (other.perform twin) := by
  cases calls with
  | handle occurs lends armed =>
      exact engines_handle named armed occurs _ _ ⟨machines, lends⟩
  | checkTimeout lends polled armed =>
      exact engines_checkTimeout named polled armed _ _ ⟨machines, lends⟩

end Abstraction

end ObzenflowFsm
