import ObzenflowFsm.Supervisor

namespace ObzenflowFsm

open Polling

variable {S E C A : Type}

namespace Supervisor

def Owes (duties : List (Duty E A)) (supervisor : Supervisor S E C A) :
    Prop :=
  (hostAgenda E C A).Owes supervisor.journal duties

/-- No failure comes next. -/
def Calm : List (Duty E A) → Prop
  | .escalate _ :: _ => False
  | _ => True

def Owing (supervisor : Supervisor S E C A) : Prop :=
  ∃ duties, supervisor.Owes duties ∧ Calm duties

/-- The loop stops with an error that it owes to its caller. -/
def Escalates (error : FsmError) (supervisor : Supervisor S E C A) : Prop :=
  ∃ duties, supervisor.Owes (.escalate error :: duties)

/-- A part of the loop, by the duties it starts with and those it leaves. -/
def Discharges {Value : Type} (before : List (Duty E A))
    (body : Supervision S E C A Value)
    (after : Value → List (Duty E A)) : Prop :=
  Async.Triple Owing Escalates (Owes before) body fun value =>
    Owes (after value)

theorem owes_start (machine : StateMachine S E C A) (context : C) :
    (start machine context).Owes [] :=
  Agenda.Owes.start

variable {Value Result : Type} {duties : List (Duty E A)}

theorem Discharges.bind {before : List (Duty E A)}
    {body : Supervision S E C A Value}
    {next : Value → Supervision S E C A Result}
    {middle : Value → List (Duty E A)} {after : Result → List (Duty E A)}
    (head : Discharges before body middle)
    (tail : ∀ value, Discharges (middle value) (next value) after) :
    Discharges before (body >>= next) after :=
  Async.Triple.bind head tail

theorem discharges_pure {before : List (Duty E A)}
    {after : Value → List (Duty E A)} (value : Value)
    (settled : before = after value) :
    Discharges (S := S) (C := C) before (pure value) after :=
  .pure value fun _ owes => settled ▸ owes

theorem discharges_fail (error : FsmError) {after : Value → List (Duty E A)} :
    Discharges (S := S) (C := C) (.escalate error :: duties)
      (Async.fail error) after :=
  .fail fun _ owes => ⟨duties, owes⟩

theorem Discharges.read {next : Supervisor S E C A → Supervision S E C A Value}
    {after : Value → List (Duty E A)}
    (tail : ∀ before, Discharges duties (next before) after) :
    Discharges duties (Async.read >>= next) after := by
  refine Async.Triple.read fun before owes => (tail before).weaken ?_ ?_
  · rintro _ rfl
    exact owes
  · exact fun _ _ left => left

/-- A loop over actions discharges one duty for each. -/
theorem Discharges.forEach {body : A → Supervision S E C A Unit}
    (duty : A → Duty E A)
    (each : ∀ action rest,
      Discharges (duty action :: rest) (body action) fun _ => rest)
    (actions : List A) :
    Discharges (actions.map duty ++ duties) (Async.forEach body actions)
      fun _ => duties :=
  Async.Triple.forEach (fun rest => Owes (rest.map duty ++ duties))
    (fun action rest => each action (rest.map duty ++ duties)) actions

theorem discharges_enter {entry : Entry E C A} {before : List (Duty E A)}
    {after : List (Duty E A)}
    (step : (hostAgenda E C A).Step entry before after) :
    Discharges (S := S) before (enter entry) fun _ => after :=
  .modify fun _ owes => Agenda.Owes.concat owes step

theorem discharges_borrow (calm : Calm duties)
    (future : C → BoxFuture C Value) :
    Discharges (S := S) duties (borrow future) fun _ => duties := by
  refine .awaiting fun supervisor owes => ⟨?_, owes⟩
  intro context member
  exact ⟨duties, owes, calm⟩

section Calls

variable [StateVariant S] [EventVariant E]

theorem discharges_call (calm : Calm duties) (request : Request E) :
    Discharges (S := S) (C := C) duties (call request) fun _ => duties := by
  refine .awaiting fun supervisor owes => ⟨?_, owes⟩
  intro world member
  exact ⟨duties, owes, calm⟩

theorem discharges_checkTimeout (environment : Environment E C A) :
    Discharges (S := S) [] (checkTimeout environment) fun actions =>
      actions.map (.perform .propagate) ++ [.receive] := by
  refine .read fun before => ?_
  refine (discharges_call (by trivial) _).bind fun result => ?_
  refine (discharges_enter (.opened rfl)).bind fun _ => ?_
  cases result with
  | ok actions => exact discharges_pure actions rfl
  | error error => exact discharges_fail error

theorem discharges_handle (environment : Environment E C A) (policy : Policy)
    (event : E) :
    Discharges (S := S) (.deliver policy event :: duties)
      (handle environment policy event) fun actions =>
        actions.map (.perform policy) ++ duties := by
  refine .read fun before => ?_
  refine (discharges_call (by trivial) _).bind fun result => ?_
  refine (discharges_enter (.settled rfl)).bind fun _ => ?_
  cases result with
  | ok actions => exact discharges_pure actions rfl
  | error error => exact discharges_fail error

end Calls

theorem discharges_receive (environment : Environment E C A) :
    Discharges (S := S) (.receive :: duties) (receive environment)
      fun event => .deliver .recover event :: duties := by
  refine .read fun before => ?_
  refine (discharges_borrow (by trivial) _).bind fun event => ?_
  exact (discharges_enter (.settled rfl)).bind fun _ => discharges_pure event rfl

theorem discharges_mapFailure (environment : Environment E C A)
    (error : FsmError) :
    Discharges (S := S) (.mapFailure error :: duties)
      (mapFailure environment error)
      fun event => .deliver .propagate event :: duties := by
  refine .read fun before => ?_
  refine (discharges_borrow (by trivial) _).bind fun event => ?_
  exact (discharges_enter (.settled rfl)).bind fun _ => discharges_pure event rfl

variable [FsmAction A C]

theorem discharges_attempt (policy : Policy) (action : A) :
    Discharges (S := S) (C := C) (.perform policy action :: duties)
      (attempt policy action) fun result =>
        (Entry.executed (E := E) (C := C) policy action
          (errorOf result)).incurs ++ duties := by
  refine (discharges_borrow (by trivial) _).bind fun result => ?_
  exact (discharges_enter (.settled rfl)).bind fun _ => discharges_pure result rfl

theorem discharges_execute (action : A) :
    Discharges (S := S) (E := E) (C := C)
      (.perform .propagate action :: duties) (execute action)
      fun _ => duties := by
  refine (discharges_attempt .propagate action).bind fun result => ?_
  cases result with
  | ok value => exact discharges_pure value rfl
  | error error => exact discharges_fail error

theorem discharges_executeAll (actions : List A) :
    Discharges (S := S) (E := E) (C := C)
      (actions.map (.perform .propagate) ++ duties)
      (Async.forEach execute actions) fun _ => duties :=
  .forEach (Duty.perform .propagate)
    (fun action _ => discharges_execute action) actions

variable [StateVariant S] [EventVariant E]

theorem discharges_recover (environment : Environment E C A)
    (error : FsmError) :
    Discharges (S := S) (.mapFailure error :: duties)
      (recover environment error) fun _ => duties := by
  refine (discharges_mapFailure environment error).bind fun event => ?_
  refine (discharges_handle environment .propagate event).bind ?_
  exact discharges_executeAll

theorem discharges_executeOrRecover (environment : Environment E C A)
    (action : A) :
    Discharges (S := S) (.perform .recover action :: duties)
      (executeOrRecover environment action) fun _ => duties := by
  refine (discharges_attempt .recover action).bind fun result => ?_
  cases result with
  | ok value => exact discharges_pure value rfl
  | error error => exact discharges_recover environment error

theorem discharges_turn (environment : Environment E C A) :
    Discharges (S := S) [] (turn environment) fun _ => [] := by
  refine (discharges_checkTimeout environment).bind fun timeoutActions => ?_
  refine (discharges_executeAll timeoutActions).bind fun _ => ?_
  refine (discharges_receive environment).bind fun event => ?_
  refine (discharges_handle environment .recover event).bind fun actions => ?_
  exact .forEach (Duty.perform .recover)
    (fun action _ => discharges_executeOrRecover (S := S) environment action)
    actions

theorem discharges_supervise (environment : Environment E C A)
    (turns : Nat) :
    Discharges (S := S) [] (supervise environment turns) fun _ => [] :=
  Async.Triple.rounds (discharges_turn environment) turns

end Supervisor

/-! ### Every returned action is executed once, every event is handled once -/

def Entry.returned : Entry E C A → List A
  | .answered _ _ (.ok actions) => actions
  | _ => []

def Entry.performed : Entry E C A → Option A
  | .executed _ action _ => some action
  | _ => none

/-- The event an entry brings in, from outside or from a failure. -/
def Entry.arrived : Entry E C A → Option E
  | .received event => some event
  | .mapped _ event => some event
  | _ => none

def Entry.handled : Entry E C A → Option E
  | .answered _ (.handle event _ _) _ => some event
  | _ => none

def Duty.action : Duty E A → Option A
  | .perform _ action => some action
  | _ => none

def Duty.event : Duty E A → Option E
  | .deliver _ event => some event
  | _ => none

/-- What the calls returned has been executed, each action as often as it was
returned, but for what is still owed; likewise for the events to be handled. -/
structure Accounts (journal : List (Entry E C A))
    (duties : List (Duty E A)) : Prop where
  actions : (journal.flatMap Entry.returned).Perm
    (journal.filterMap Entry.performed ++ duties.filterMap Duty.action)
  events : (journal.filterMap Entry.arrived).Perm
    (journal.filterMap Entry.handled ++ duties.filterMap Duty.event)

theorem Entry.action_incurs (entry : Entry E C A) :
    entry.incurs.filterMap Duty.action = entry.returned := by
  have perform (policy : Policy) (actions : List A) :
      (actions.map (Duty.perform (E := E) policy)).filterMap Duty.action =
        actions := by
    rw [List.filterMap_map]
    exact List.filterMap_some
  cases entry with
  | answered policy call result =>
      cases result with
      | error error => cases call <;> rfl
      | ok actions =>
          cases call with
          | handle event context armed => exact perform policy actions
          | checkTimeout context polled armed =>
              simp only [incurs, List.filterMap_append, perform]
              exact List.append_nil actions
  | received event => rfl
  | executed policy action error =>
      cases error with
      | none => rfl
      | some error => cases policy <;> rfl
  | mapped error event => rfl

theorem Entry.event_incurs (entry : Entry E C A) :
    entry.incurs.filterMap Duty.event = entry.arrived.toList := by
  have perform (policy : Policy) (actions : List A) :
      (actions.map (Duty.perform (E := E) policy)).filterMap Duty.event =
        [] := by
    rw [List.filterMap_map]
    exact List.filterMap_eq_nil_iff.mpr fun _ _ => rfl
  cases entry with
  | answered policy call result =>
      cases result with
      | error error => cases call <;> rfl
      | ok actions =>
          cases call with
          | handle event context armed => exact perform policy actions
          | checkTimeout context polled armed =>
              simp only [incurs, List.filterMap_append, perform]
              rfl
  | received event => rfl
  | executed policy action error =>
      cases error with
      | none => rfl
      | some error => cases policy <;> rfl
  | mapped error event => rfl

theorem Entry.action_settles (entry : Entry E C A) :
    entry.settles.toList.filterMap Duty.action = entry.performed.toList := by
  cases entry with
  | answered policy call result => cases call <;> rfl
  | received event => rfl
  | executed policy action error => rfl
  | mapped error event => rfl

theorem Entry.event_settles (entry : Entry E C A) :
    entry.settles.toList.filterMap Duty.event = entry.handled.toList := by
  cases entry with
  | answered policy call result => cases call <;> rfl
  | received event => rfl
  | executed policy action error => rfl
  | mapped error event => rfl

theorem accounts_of_owes {journal : List (Entry E C A)}
    {duties : List (Duty E A)}
    (owes : (hostAgenda E C A).Owes journal duties) :
    Accounts journal duties where
  actions := by
    have perm := owes.perm_filterMap Duty.action
    simp only [List.filterMap_flatMap, hostAgenda, Entry.action_incurs,
      Entry.action_settles] at perm
    rwa [← List.filterMap_eq_flatMap_toList] at perm
  events := by
    have perm := owes.perm_filterMap Duty.event
    simp only [List.filterMap_flatMap, hostAgenda, Entry.event_incurs,
      Entry.event_settles] at perm
    rwa [← List.filterMap_eq_flatMap_toList,
      ← List.filterMap_eq_flatMap_toList] at perm

/-! ### No failure goes unanswered -/

/-- The error with which an entry ends the loop. -/
def Entry.fatal : Entry E C A → Option FsmError
  | .answered _ _ (.error error) => some error
  | .executed .propagate _ error => error
  | _ => none

/-- A call that fails, and an action that fails where `?` follows it, is the
last thing the loop does; a failed action of an event's is answered by an event
made of its very error, and every event that arrives is handled at once. -/
structure Attended (journal : List (Entry E C A)) : Prop where
  fatal : ∀ before entry after error, journal = before ++ entry :: after →
    entry.fatal = some error → after = []
  failed : ∀ before action error next after,
    journal =
        before ++ .executed .recover action (some error) :: next :: after →
      ∃ event, next = .mapped error event
  arrived : ∀ before entry event next after,
    journal = before ++ entry :: next :: after →
      entry.arrived = some event → next.handled = some event

theorem Entry.incurs_of_fatal {entry : Entry E C A} {error : FsmError}
    (fatal : entry.fatal = some error) :
    entry.incurs = [.escalate error] := by
  cases entry with
  | answered policy call result =>
      cases result with
      | error failure =>
          cases fatal
          cases call <;> rfl
      | ok actions => cases fatal
  | received event => cases fatal
  | executed policy action failure =>
      cases policy with
      | propagate =>
          cases fatal
          rfl
      | recover => cases fatal
  | mapped failure event => cases fatal

theorem Entry.fatal_of_mem_incurs {entry : Entry E C A} {error : FsmError}
    (incurs : .escalate error ∈ entry.incurs) :
    entry.fatal = some error := by
  cases entry with
  | answered policy call result =>
      cases result with
      | error failure =>
          cases call <;> cases List.mem_singleton.mp incurs <;> rfl
      | ok actions => cases call <;> simp [Entry.incurs] at incurs
  | received event => cases List.mem_singleton.mp incurs
  | executed policy action failure =>
      cases failure with
      | none => cases incurs
      | some failure =>
          cases policy with
          | propagate =>
              cases List.mem_singleton.mp incurs
              rfl
          | recover => cases List.mem_singleton.mp incurs
  | mapped failure event => cases List.mem_singleton.mp incurs

theorem Entry.settles_ne_escalate (entry : Entry E C A) (error : FsmError) :
    entry.settles ≠ some (.escalate error) := by
  intro settles
  cases entry with
  | answered policy call result => cases call <;> cases settles
  | received event => cases settles
  | executed policy action failure => cases settles
  | mapped failure event => cases settles

theorem attended_of_owes {journal : List (Entry E C A)}
    {duties : List (Duty E A)}
    (owes : (hostAgenda E C A).Owes journal duties) : Attended journal where
  fatal := by
    rintro before entry after error rfl fatal
    exact owes.last (Entry.incurs_of_fatal fatal) fun next =>
      next.settles_ne_escalate error
  failed := by
    rintro before action error next after rfl
    have settles := owes.next rfl
    cases next with
    | answered policy call result => cases call <;> cases settles
    | received event => cases settles
    | executed policy other failure => cases settles
    | mapped failure event =>
        cases settles
        exact ⟨event, rfl⟩
  arrived := by
    rintro before entry event next after rfl arrived
    have delivered : ∃ policy, next.settles = some (.deliver policy event) := by
      cases entry with
      | answered policy call result => cases arrived
      | executed policy action failure => cases arrived
      | received incoming =>
          cases arrived
          exact ⟨.recover, owes.next rfl⟩
      | mapped failure incoming =>
          cases arrived
          exact ⟨.propagate, owes.next rfl⟩
    obtain ⟨policy, settles⟩ := delivered
    cases next with
    | answered policy call result =>
        cases call with
        | handle other context armed =>
            cases settles
            rfl
        | checkTimeout context polled armed => cases settles
    | received event => cases settles
    | executed policy other failure => cases settles
    | mapped failure other => cases settles

theorem unfailed_of_calm {journal : List (Entry E C A)}
    {duties : List (Duty E A)}
    (owes : (hostAgenda E C A).Owes journal duties)
    (calm : Supervisor.Calm duties) (entry : Entry E C A)
    (member : entry ∈ journal) : entry.fatal = none := by
  cases fatal : entry.fatal with
  | none => rfl
  | some error =>
      obtain ⟨before, after, rfl⟩ := List.mem_iff_append.mp member
      obtain rfl :=
        (attended_of_owes owes).fatal before entry after error rfl fatal
      obtain ⟨rest, rfl⟩ := owes.of_concat
      change Supervisor.Calm (entry.incurs ++ rest) at calm
      rw [Entry.incurs_of_fatal fatal] at calm
      exact calm.elim

theorem fatal_of_escalates {journal : List (Entry E C A)}
    {duties : List (Duty E A)} {error : FsmError}
    (owes : (hostAgenda E C A).Owes journal (.escalate error :: duties)) :
    ∃ before entry, journal = before ++ [entry] ∧
      entry.fatal = some error := by
  obtain ⟨before, entry, after, rfl, incurs⟩ :=
    owes.incurred List.mem_cons_self
  have fatal := Entry.fatal_of_mem_incurs incurs
  have ended := (attended_of_owes owes).fatal before entry after error rfl fatal
  exact ⟨before, entry, by rw [ended], fatal⟩

/-! ### The loop, wherever it stands -/

namespace Supervisor

variable [StateVariant S] [EventVariant E] [FsmAction A C]

/-- Wherever the loop is dropped, and however it ends, its journal tells what
is owed, and accounts for every action returned and every event that arrived;
a turn leaves nothing owed. -/
theorem supervise_accounts (environment : Environment E C A) (turns : Nat)
    (machine : StateMachine S E C A) (context : C) :
    (supervise environment turns (start machine context)).Meets
      (fun left => ∃! duties, left.Owes duties ∧ Accounts left.journal duties)
      fun result left => ∃! duties, left.Owes duties ∧
        Accounts left.journal duties ∧ (result = .ok () → duties = []) := by
  refine (discharges_supervise environment turns _
    (owes_start _ _)).weaken ?_ ?_
  · rintro left ⟨duties, owes, _⟩
    refine ⟨duties, ⟨owes, accounts_of_owes owes⟩, fun other held => ?_⟩
    exact Agenda.Runs.unique held.1 owes
  · intro result left reached
    cases result with
    | ok value =>
        refine ⟨[], ⟨reached, accounts_of_owes reached, fun _ => rfl⟩,
          fun other held => ?_⟩
        exact Agenda.Runs.unique held.1 reached
    | error error =>
        obtain ⟨duties, owes⟩ := reached
        refine ⟨_, ⟨owes, accounts_of_owes owes, fun ended => by cases ended⟩,
          fun other held => ?_⟩
        exact Agenda.Runs.unique held.1 owes

/-- The loop ends with an error exactly when the last thing it did failed with
that error, and up to there every failure was answered; it is never suspended
with one that is not. -/
theorem supervise_attends (environment : Environment E C A) (turns : Nat)
    (machine : StateMachine S E C A) (context : C) :
    (supervise environment turns (start machine context)).Meets
      (fun left => Attended left.journal ∧
        ∀ entry ∈ left.journal, entry.fatal = none)
      fun result left => Attended left.journal ∧
        ∀ error, result = .error error ↔ ∃ before entry,
          left.journal = before ++ [entry] ∧ entry.fatal = some error := by
  refine (discharges_supervise environment turns _ (owes_start _ _)).weaken ?_ ?_
  · rintro left ⟨duties, owes, calm⟩
    exact ⟨attended_of_owes owes, unfailed_of_calm owes calm⟩
  · intro result left reached
    cases result with
    | ok value =>
        refine ⟨attended_of_owes reached, fun error => ⟨?_, ?_⟩⟩
        · intro failed
          cases failed
        · rintro ⟨before, entry, journal, fatal⟩
          have member : entry ∈ left.journal := by simp [journal]
          have unfailed := unfailed_of_calm reached trivial entry member
          rw [fatal] at unfailed
          cases unfailed
    | error failure =>
        obtain ⟨duties, owes⟩ := reached
        obtain ⟨before, entry, journal, fatal⟩ := fatal_of_escalates owes
        refine ⟨attended_of_owes owes, fun error => ⟨?_, ?_⟩⟩
        · intro failed
          cases failed
          exact ⟨before, entry, journal, fatal⟩
        · rintro ⟨first, last, same, other⟩
          rw [journal] at same
          cases (List.append_inj' same rfl).2
          rw [Option.some.inj (fatal.symm.trans other)]

end Supervisor

end ObzenflowFsm
