import Mathlib.Algebra.Group.Int.Defs
import Mathlib.Algebra.Group.TypeTags.Basic
import ObzenflowFsm.Machine.Replay
import ObzenflowFsm.Machine.Deduplication
import ObzenflowFsm.Theory.Interleaving

namespace ObzenflowFsm

open Polling Registry TimedMealy Interleaving

variable {S E C A Upstream Delta : Type}

section Feeding

variable [StateVariant S] [EventVariant E] [FsmAction A C]

/-- What handling an event and running the planned actions does to the state
and the context, by what was registered. -/
def Registrations.feed (registrations : Registrations S E C A)
    (plan : Plan A) (standing : S × C) (event : E) :
    FsmResult (List A) × (S × C) :=
  let response :=
    registrations.reference.onEvent ⟨standing.1, none⟩ event standing.2 0
  let returned :=
    match response.result with
    | .ok actions => actions
    | .error _ => []
  (response.result,
    (response.position.state, plan.perform returned response.context))

def Host.standing (host : Host S E C A) : S × C :=
  (host.machine.currentState, host.context)

/-- Handle an event at a clock reading and run the planned actions. -/
def Host.deliver (plan : Plan A) (host : Host S E C A)
    (delivery : E × Instant) : FsmResult (List A) × Host S E C A :=
  let served := host.live (.handle delivery.1 delivery.2, plan)
  (served.1.1, served.2)

variable {registrations : Registrations S E C A}

variable [DecidableEq Upstream]

end Feeding

namespace Ledger

/-- An amount is paid by adding it to the context. -/
local instance : FsmAction Nat Nat where
  execute := fun amount context => .ready (.ok ()) (context + amount)

theorem onEvent_repeated {ledger : Ledger} {event : Credit}
    (processed : event.id ∈ ledger.processed) (duplicates : Nat) :
    chain.registrations.reference.onEvent ⟨ledger, none⟩ event duplicates 0 =
      ⟨.ok [], duplicates + 1, ⟨ledger, none⟩⟩ := by
  have answered : credit ledger event duplicates =
      .ready (.ok (stay ledger)) (duplicates + 1) := if_pos processed
  change chain.registrations.reference.move 0 ⟨ledger, none⟩
    (settleTransition (credit ledger event) duplicates) = _
  rw [settleTransition, answered]
  rfl

theorem onEvent_fresh {ledger : Ledger} {event : Credit}
    (fresh : event.id ∉ ledger.processed) (duplicates : Nat) :
    chain.registrations.reference.onEvent ⟨ledger, none⟩ event duplicates 0 =
      ⟨.ok [event.amount], duplicates,
        ⟨⟨event.id :: ledger.processed, ledger.balance + event.amount⟩,
          none⟩⟩ := by
  have answered : credit ledger event duplicates = .ready (.ok
      ⟨⟨event.id :: ledger.processed, ledger.balance + event.amount⟩,
        [event.amount]⟩) duplicates := if_neg fresh
  change chain.registrations.reference.move 0 ⟨ledger, none⟩
    (settleTransition (credit ledger event) duplicates) = _
  rw [settleTransition, answered]
  rfl

def pay : Plan Nat := fun actions => [actions]

theorem process_eq (ledger : Ledger) (event : Credit) :
    chain.registrations.process 0 ledger event =
      if event.id ∈ ledger.processed then ([], ledger)
      else ([event.amount],
        ⟨event.id :: ledger.processed, ledger.balance + event.amount⟩) := by
  have found : chain.registrations.handlerFor ledger event = some credit := rfl
  simp only [Registrations.process, found]
  by_cases processed : event.id ∈ ledger.processed
  · simp only [credit, if_pos processed]
    rfl
  · simp only [credit, if_neg processed]
    rfl

theorem process_answer (ledger : Ledger) (event : Credit) :
    (chain.registrations.process 0 ledger event).1 =
      if event.id ∈ ledger.processed then [] else [event.amount] := by
  rw [process_eq]
  split
  · rfl
  · rfl

theorem mem_process_iff (ledger : Ledger) (event : Credit) (id : Nat) :
    id ∈ (chain.registrations.process 0 ledger event).2.processed ↔
      id = event.id ∨ id ∈ ledger.processed := by
  rw [process_eq]
  split
  · rename_i processed
    refine ⟨.inr, fun either => either.elim (fun same => ?_) fun held => held⟩
    rw [same]
    exact processed
  · exact List.mem_cons

theorem process_balance (ledger : Ledger) (event : Credit) :
    (chain.registrations.process 0 ledger event).2.balance =
      ledger.balance +
        if event.id ∈ ledger.processed then 0 else event.amount := by
  rw [process_eq]
  split
  · rfl
  · rfl

/-- Ledgers of the same credits and the same balance. -/
structure Alike (first second : Ledger) : Prop where
  processed : ∀ id, id ∈ first.processed ↔ id ∈ second.processed
  balance : first.balance = second.balance

def alike : Observation (chain.registrations.process 0) where
  same := Alike
  symm := fun same =>
    ⟨fun id => (same.processed id).symm, same.balance.symm⟩
  trans := fun same other =>
    ⟨fun id => (same.processed id).trans (other.processed id),
      same.balance.trans other.balance⟩
  respects := by
    intro first second event same
    refine ⟨?_, fun id => ?_, ?_⟩
    · simp only [process_answer, same.processed]
    · simp only [mem_process_iff, same.processed]
    · simp only [process_balance, same.processed, same.balance]

theorem alike_commutes {event other : Credit} (apart : event.id ≠ other.id) :
    Commutes alike event other where
  later := by
    intro ledger valid
    simp only [process_answer, mem_process_iff, apart.symm, false_or]
  earlier := by
    intro ledger valid
    simp only [process_answer, mem_process_iff, apart, false_or]
  meet := by
    intro ledger valid
    refine ⟨fun id => ?_, ?_⟩
    · simp only [mem_process_iff]
      exact or_left_comm
    · simp only [process_balance, mem_process_iff, apart, apart.symm, false_or]
      omega

/-- What the context adds to processing is the count of duplicates and the
amounts paid. -/
theorem feed_eq (standing : Ledger × Nat) (event : Credit) :
    chain.registrations.feed pay standing event =
      (.ok (chain.registrations.process 0 standing.1 event).1,
        (chain.registrations.process 0 standing.1 event).2,
        standing.2 +
          if event.id ∈ standing.1.processed then 1 else event.amount) := by
  rw [process_eq]
  by_cases processed : event.id ∈ standing.1.processed
  · simp only [Registrations.feed, onEvent_repeated processed,
      if_pos processed]
    rfl
  · simp only [Registrations.feed, onEvent_fresh processed,
      if_neg processed]
    rfl

def observed : Observation (chain.registrations.feed pay) where
  same := fun first second =>
    Alike first.1 second.1 ∧ first.2 = second.2
  symm := fun same => ⟨alike.symm same.1, same.2.symm⟩
  trans := fun same other =>
    ⟨alike.trans same.1 other.1, same.2.trans other.2⟩
  respects := by
    intro first second event same
    obtain ⟨answered, stands⟩ := alike.respects event same.1
    simp only [feed_eq]
    refine ⟨congrArg Except.ok answered, stands, ?_⟩
    simp only [same.1.processed, same.2]

/-- Credits with even and with odd ids come from different upstreams. -/
def upstream (event : Credit) : Nat := event.id % 2

theorem reversed : Merges upstream [first, second] [second, first] := by
  intro name
  by_cases even : name = 0
  · subst even
    rfl
  · have elsewhere : ¬ decide (upstream second = name) = true := by
      simpa [upstream, second, eq_comm] using even
    simp only [ofSource, List.filter_cons, List.filter_nil, elsewhere,
      Bool.false_eq_true, if_false]

theorem ne_of_upstream_ne {event other : Credit}
    (apart : upstream event ≠ upstream other) : event.id ≠ other.id :=
  fun same => apart (congrArg (· % 2) same)

end Ledger

/-! ### An account that is debited one by one or in batches -/

/-- The operations are kept in the order they came. -/
structure Account where
  balance : Int
  operations : List Int := []

structure Subtract where
  value : Int

instance : StateVariant Account := ⟨fun _ => "Counting"⟩

instance : EventVariant Subtract := ⟨fun _ => "Subtract"⟩

namespace Account

instance : FsmAction Empty Unit where
  execute := nofun

def subtract : TransitionHandler Account Subtract Unit Empty :=
  fun account event context =>
    .ready (.ok
      { nextState :=
          { balance := account.balance - event.value
            operations := account.operations ++ [event.value] }
        actions := [] }) context

def chain : Chain Account Subtract Unit Empty .fsm :=
  Chain.new { balance := 100 }
    |>.call (.when "Counting")
    |>.call (.whenOn "Subtract" subtract)
    |>.call .whenDone

def machine : StateMachine Account Subtract Unit Empty := chain.eval.machine 0

/-- Accounts of the same balance, whatever operations led there. -/
def observed :
    Observation (chain.registrations.feed (C := Unit) (A := Empty)
      fun _ => []) where
  same := fun first second => first.1.balance = second.1.balance
  symm := Eq.symm
  trans := Eq.trans
  respects := fun event same => ⟨rfl, congrArg (· - event.value) same⟩

def debit (change : Multiplicative Int) (standing : Account × Unit) :
    Account × Unit :=
  ({ standing.1 with
      balance := standing.1.balance - Multiplicative.toAdd change },
    standing.2)

theorem accumulates : Interleaving.Accumulates observed
    (fun event => Multiplicative.ofAdd event.value) debit where
  step := fun _ _ _ => rfl
  update_one := fun standing _ => Int.sub_zero standing.1.balance
  update_mul := fun first second standing _ =>
    (Int.sub_sub standing.1.balance (Multiplicative.toAdd first)
      (Multiplicative.toAdd second)).symm
  respects := fun change _ _ same =>
    congrArg (· - Multiplicative.toAdd change) same

end Account

end ObzenflowFsm
