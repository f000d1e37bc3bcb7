import ObzenflowFsm.Machine.Run

namespace ObzenflowFsm

open Polling TimedMealy

variable {S E C A : Type}

namespace StateMachine

variable [StateVariant S] [EventVariant E]

def ErrorAtomic (machine : StateMachine S E C A) (call : Call E C) : Prop :=
  ∀ error, (machine.report call).result = .error error →
    (machine.report call).machine.position = machine.position

/-- The call enters another state, whose entry hook then fails. -/
def AbandonsEntry (machine : StateMachine S E C A) (call : Call E C) : Prop :=
  ∃ transition context error,
    machine.entering call = some (transition, context) ∧
      (machine.hookFuture .entry transition.nextState context).value =
        .error error ∧
      transition.nextState ≠ machine.currentState

/-- On any machine a call is atomic on errors except when the entry hook of
another state fails after `current_state` was assigned. -/
theorem errorAtomic_iff (machine : StateMachine S E C A) (call : Call E C) :
    machine.ErrorAtomic call ↔ ¬ machine.AbandonsEntry call := by
  unfold ErrorAtomic AbandonsEntry
  cases machine.ending call with
  | stayed absent unchanged suspended => simp [absent, unchanged]
  | entryFailed reached failed result moved suspended =>
      rename_i transition left error
      rw [moved, result]
      constructor
      · intro atomic abandoned
        obtain ⟨other, context, _, sameReached, _, differs⟩ := abandoned
        obtain ⟨rfl, rfl⟩ := Prod.mk.inj
          (Option.some.inj (reached.symm.trans sameReached))
        exact differs (congrArg Position.state (atomic error rfl))
      · intro kept failure _
        by_cases same : transition.nextState = machine.currentState
        · rw [position_moved, same]
          rfl
        · exact absurd ⟨transition, left, error, reached, failed, same⟩ kept
  | completed reached entered succeeded settled suspended suspends =>
      constructor
      · intro _ abandoned
        obtain ⟨other, context, error, sameReached, failed, _⟩ := abandoned
        obtain ⟨rfl, rfl⟩ := Prod.mk.inj
          (Option.some.inj (reached.symm.trans sameReached))
        rw [entered] at failed
        cases failed
      · intro _ error failed
        exact absurd failed (succeeded error)

end StateMachine

namespace Door

theorem jammed_not_errorAtomic :
    ¬ ∀ reached, (chain jam).Reaches 0 reached →
      ∀ call, reached.ErrorAtomic call := by
  intro atomic
  have unmoved := atomic (machine jam) (reaches jam)
    (.handle .opening {} 0) (.handlerError "jammed") rfl
  cases congrArg Position.state unmoved

end Door

end ObzenflowFsm
