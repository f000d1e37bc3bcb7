import ObzenflowFsm.Supervisor
import ObzenflowFsm.Machine.Contracts

namespace ObzenflowFsm

open Polling Registry

variable {S E C A : Type}

/-- The host's own code keeps a promise about states and contexts: permitted
actions in any state, and whatever receives or makes up events. -/
structure Environment.Honours [FsmAction A C] (environment : Environment E C A)
    (standing : S → C → Prop) (permitted : A → Prop) : Prop where
  actions : ∀ action state context, permitted action →
    standing state context →
      (FsmAction.execute action context).Meets (standing state)
        fun _ left => standing state left
  receive : ∀ journal state context, standing state context →
    (environment.receive journal context).Meets (standing state)
      fun _ left => standing state left
  mapFailure : ∀ journal error state context, standing state context →
    (environment.mapFailure journal error context).Meets (standing state)
      fun _ left => standing state left

namespace Supervisor

def Stands (standing : S → C → Prop) (supervisor : Supervisor S E C A) :
    Prop :=
  standing supervisor.machine.currentState supervisor.context

/-- The promise stands, on a machine that holds what was registered. -/
structure Sound (registrations : Registrations S E C A)
    (standing : S → C → Prop) (supervisor : Supervisor S E C A) : Prop where
  holds : supervisor.machine.toTables.Hold registrations
  stands : supervisor.Stands standing

variable {Value Result : Type} {registrations : Registrations S E C A}
  {standing : S → C → Prop} {permitted : A → Prop}
  {contracts : HookContracts S C A} {environment : Environment E C A}

def Upholds (registrations : Registrations S E C A)
    (standing : S → C → Prop) (body : Supervision S E C A Value)
    (post : Value → Prop) : Prop :=
  Async.Triple (Stands standing) (fun _ => Sound registrations standing)
    (Sound registrations standing) body
    fun value left => Sound registrations standing left ∧ post value

theorem upholds_pure {post : Value → Prop} {value : Value}
    (holds : post value) :
    Upholds registrations standing (pure value) post :=
  .pure value fun _ sound => ⟨sound, holds⟩

theorem Upholds.bind {body : Supervision S E C A Value}
    {next : Value → Supervision S E C A Result} {middle : Value → Prop}
    {post : Result → Prop} (head : Upholds registrations standing body middle)
    (tail : ∀ value, middle value →
      Upholds registrations standing (next value) post) :
    Upholds registrations standing (body >>= next) post := by
  refine Async.Triple.bind head fun value left reached => ?_
  exact tail value reached.2 left reached.1

theorem Upholds.read {next : Supervisor S E C A → Supervision S E C A Value}
    {post : Value → Prop}
    (tail : ∀ before, Upholds registrations standing (next before) post) :
    Upholds registrations standing (Async.read >>= next) post := by
  refine Async.Triple.read fun before sound => (tail before).weaken ?_ ?_
  · rintro _ rfl
    exact sound
  · exact fun _ _ left => left

theorem upholds_enter (entry : Entry E C A) :
    Upholds registrations standing (enter entry) fun _ => True :=
  .modify fun _ sound => ⟨⟨sound.holds, sound.stands⟩, trivial⟩

theorem upholds_propagate {post : Value → Prop} {result : FsmResult Value}
    (holds : ∀ value, result = .ok value → post value) :
    Upholds registrations standing (propagate result) post := by
  cases result with
  | ok value => exact upholds_pure (holds value rfl)
  | error error => exact .fail fun _ sound => sound

theorem upholds_borrow {future : C → BoxFuture C Value}
    (meets : ∀ state context, standing state context →
      (future context).Meets (standing state)
        fun _ left => standing state left) :
    Upholds registrations standing (borrow future) fun _ => True := by
  refine .awaiting fun supervisor sound => ?_
  refine (meets _ _ sound.stands).weaken (fun _ stands => stands) ?_
  exact fun _ left stands => ⟨⟨sound.holds, stands⟩, trivial⟩

section Calls

variable [StateVariant S] [EventVariant E]

theorem perform_toTables (machine : StateMachine S E C A) (call : Call E C) :
    (machine.perform call).Meets
      (fun world => world.machine.toTables = machine.toTables)
      fun _ world => world.machine.toTables = machine.toTables where
  suspended := fun _ member =>
    StateMachine.suspended_toTables (List.mem_map_of_mem member)
  completed := machine.report_toTables call

theorem upholds_call
    (honours : registrations.Honours standing permitted contracts)
    (request : Request E) :
    Upholds registrations standing (call request) fun result =>
      ∀ actions, result = .ok actions →
        ∀ action ∈ actions, permitted action := by
  refine .awaiting fun supervisor sound => ?_
  have upheld := sound.holds.upholds honours
    (request.call supervisor.context) (by cases request <;> exact sound.stands)
  refine (upheld.and (perform_toTables _ _)).weaken
    (fun world held => held.1) ?_
  rintro result world ⟨⟨stands, permits⟩, tables⟩
  refine ⟨⟨?_, stands⟩, permits⟩
  change world.machine.toTables.Hold registrations
  rw [tables]
  exact sound.holds

theorem upholds_consult
    (honours : registrations.Honours standing permitted contracts)
    (policy : Policy) (request : List (Entry E C A) → Request E) :
    Upholds registrations standing (consult policy request) fun actions =>
      ∀ action ∈ actions, permitted action := by
  refine .read fun before => (upholds_call honours _).bind ?_
  intro result permits
  exact (upholds_enter _).bind fun _ _ => upholds_propagate permits

end Calls

variable [FsmAction A C]

theorem upholds_receive (honours : environment.Honours standing permitted) :
    Upholds registrations standing (receive environment) fun _ => True := by
  refine .read fun before => ?_
  refine (upholds_borrow (honours.receive before.journal)).bind ?_
  intro event _
  exact (upholds_enter _).bind fun _ _ => upholds_pure trivial

theorem upholds_mapFailure (honours : environment.Honours standing permitted)
    (error : FsmError) :
    Upholds registrations standing (mapFailure environment error)
      fun _ => True := by
  refine .read fun before => ?_
  refine (upholds_borrow (honours.mapFailure before.journal error)).bind ?_
  intro event _
  exact (upholds_enter _).bind fun _ _ => upholds_pure trivial

theorem upholds_attempt (honours : environment.Honours standing permitted)
    (policy : Policy) {action : A} (permits : permitted action) :
    Upholds (E := E) registrations standing (attempt policy action)
      fun _ => True := by
  refine (upholds_borrow fun state context =>
    honours.actions action state context permits).bind ?_
  intro result _
  exact (upholds_enter _).bind fun _ _ => upholds_pure trivial

theorem upholds_execute (honours : environment.Honours standing permitted)
    {action : A} (permits : permitted action) :
    Upholds (E := E) registrations standing (execute action)
      fun _ => True :=
  (upholds_attempt honours .propagate permits).bind fun _ _ =>
    upholds_propagate fun _ _ => trivial

omit [FsmAction A C] in
theorem upholds_forEach {body : A → Supervision S E C A Unit}
    (each : ∀ action, permitted action →
      Upholds registrations standing (body action) fun _ => True)
    {actions : List A} (permits : ∀ action ∈ actions, permitted action) :
    Upholds registrations standing (Async.forEach body actions)
      fun _ => True := by
  induction actions with
  | nil => exact upholds_pure trivial
  | cons action rest induction =>
      obtain ⟨first, others⟩ := List.forall_mem_cons.mp permits
      exact (each action first).bind fun _ _ => induction others

variable [StateVariant S] [EventVariant E]

theorem upholds_recover
    (handlers : registrations.Honours standing permitted contracts)
    (host : environment.Honours standing permitted) (error : FsmError) :
    Upholds registrations standing (recover environment error)
      fun _ => True := by
  refine (upholds_mapFailure host error).bind fun event _ => ?_
  refine (upholds_consult handlers .propagate _).bind fun actions permits => ?_
  exact upholds_forEach (fun _ => upholds_execute host) permits

theorem upholds_executeOrRecover
    (handlers : registrations.Honours standing permitted contracts)
    (host : environment.Honours standing permitted) {action : A}
    (permits : permitted action) :
    Upholds registrations standing (executeOrRecover environment action)
      fun _ => True := by
  refine (upholds_attempt host .recover permits).bind fun result _ => ?_
  cases result with
  | ok value => exact upholds_pure trivial
  | error error => exact upholds_recover handlers host error

theorem upholds_turn
    (handlers : registrations.Honours standing permitted contracts)
    (host : environment.Honours standing permitted) :
    Upholds registrations standing (turn environment) fun _ => True := by
  refine (upholds_consult handlers .propagate _).bind fun _ permits => ?_
  refine (upholds_forEach (fun _ => upholds_execute host) permits).bind ?_
  intro _ _
  refine (upholds_receive host).bind fun event _ => ?_
  refine (upholds_consult handlers .recover _).bind fun _ permits => ?_
  exact upholds_forEach (fun _ => upholds_executeOrRecover handlers host)
    permits

end Supervisor

/-- A promise that handlers, hooks and the host's own code each keep holds
wherever the loop is dropped and however it ends. -/
theorem Chain.supervise_upholds [StateVariant S] [EventVariant E]
    [FsmAction A C] (chain : Chain S E C A .fsm) (now : Instant)
    {machine : StateMachine S E C A} (reaches : chain.Reaches now machine)
    {standing : S → C → Prop} {permitted : A → Prop}
    {contracts : HookContracts S C A} {environment : Environment E C A}
    (handlers : chain.registrations.Honours standing permitted contracts)
    (host : environment.Honours standing permitted) (turns : Nat)
    {context : C} (stands : standing machine.currentState context) :
    (Supervisor.supervise environment turns
        (Supervisor.start machine context)).Meets
      (fun left => left.Stands standing)
      fun _ left => left.Stands standing := by
  have looped := Async.Triple.rounds
    ((Supervisor.upholds_turn handlers host).weaken (fun _ sound => sound)
      fun _ _ left => left.1) turns (Supervisor.start machine context)
    ⟨reaches.hold, stands⟩
  refine looped.weaken (fun _ held => held) ?_
  intro result left reached
  cases result with
  | ok value => exact reached.stands
  | error error => exact reached.stands

namespace Door

/-- The door's handlers promise the actions they return to be wordy. -/
def wording : HookContracts DoorState DoorContext DoorAction where
  leaving := fun state transition context =>
    Worded state context ∧ ∀ action ∈ transition.actions, Wordy action
  entering := fun state pending context =>
    Worded state context ∧ ∀ action ∈ pending, Wordy action

theorem greeted_honours :
    (chain greet).registrations.Honours Worded Wordy wording where
  transitions := by
    intro state event handler context found stands
    have member : ∃ key, (key, handler) ∈
        (chain greet).registrations.rows.map Row.entry := by
      rcases Option.or_eq_some_iff.mp found with exact | ⟨_, wildcard⟩
      · exact ⟨_, mem_of_latest exact⟩
      · exact ⟨_, mem_of_latest wildcard⟩
    obtain ⟨key, member⟩ := member
    rcases List.mem_cons.mp member with equal | member
    · cases equal
      exact Future.meets_ready_iff.mpr ⟨stands, by simp [Wordy]⟩
    · cases List.mem_singleton.mp member
      exact Future.meets_ready_iff.mpr ⟨stands, by simp [Wordy]⟩
  timeouts := by
    intro state duration handler context found stands
    have registered := List.mem_singleton.mp (mem_of_latest found)
    obtain rfl : handler = autoClose :=
      congrArg (fun timeout => timeout.2.2) registered
    exact Future.meets_ready_iff.mpr ⟨stands, by simp [Wordy]⟩
  unhandled := by
    intro state event handler context absent found
    cases found
  exits := by
    intro state transition context leaving
    exact Future.meets_ready_iff.mpr ⟨leaving.1, by simpa using leaving.2⟩
  entries := by
    intro state pending context entering
    unfold Registrations.hook
    split
    · rename_i handler found
      have registered := List.mem_singleton.mp (mem_of_latest found)
      obtain rfl : handler = greet := congrArg Prod.snd registered
      refine Future.meets_ready_iff.mpr ⟨entering.1, ?_⟩
      rintro _ ⟨⟩ action member
      rcases List.mem_append.mp member with member | member
      · exact entering.2 action member
      · cases List.mem_singleton.mp member
        trivial
    · refine Future.meets_ready_iff.mpr ⟨entering.1, ?_⟩
      rintro _ ⟨⟩ action member
      exact entering.2 action (by simpa using member)

theorem porter_honours : porter.Honours Worded Wordy where
  actions := by
    intro action state context permits stands
    cases action with
    | ring => exact Future.meets_ready_iff.mpr stands
    | log message =>
        refine Future.meets_ready_iff.mpr ?_
        intro member
        rcases List.mem_append.mp member with member | member
        · exact stands member
        · exact permits (List.mem_singleton.mp member).symm
  receive := by
    intro journal state context stands
    refine ⟨?_, stands⟩
    intro held member
    cases List.mem_singleton.mp member
    exact stands
  mapFailure := fun _ _ _ _ stands => Future.meets_ready_iff.mpr stands

theorem visit_worded :
    (Supervisor.supervise porter 2
        (Supervisor.start (machine greet) {})).Meets
      (fun left => left.Stands Worded) fun _ left => left.Stands Worded :=
  (chain greet).supervise_upholds 0 (reaches greet) greeted_honours
    porter_honours 2 List.not_mem_nil

end Door

end ObzenflowFsm
