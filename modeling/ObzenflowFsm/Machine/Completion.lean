import ObzenflowFsm.Machine.Timer

namespace ObzenflowFsm

open Polling

variable {S E C A : Type}

def firedTrigger (trace : List (Effect S E C A)) : Option (Trigger S E C A) :=
  trace.findSome? fun effect =>
    match effect with
    | .invoked (.trigger fired) _ _ _ => some fired
    | _ => none

/-- The handler whose transition a call completed, if it completed one. -/
def Report.completed (report : Report S E C A) : Option (Trigger S E C A) :=
  match report.result with
  | .ok _ => firedTrigger report.trace
  | .error _ => none

theorem firedTrigger_append (first second : List (Effect S E C A)) :
    firedTrigger (first ++ second) =
      (firedTrigger first).or (firedTrigger second) :=
  List.findSome?_append

namespace StateMachine

theorem firedTrigger_preamble (machine : StateMachine S E C A)
    (call : Call E C) : firedTrigger (machine.preamble call) = none := by
  unfold preamble
  split
  · rfl
  · split
    · rfl
    · rfl

theorem firedTrigger_of_preamble (machine : StateMachine S E C A)
    (call : Call E C) (rest : List (Effect S E C A)) :
    firedTrigger (machine.preamble call ++ rest) = firedTrigger rest := by
  rw [firedTrigger_append, firedTrigger_preamble, Option.none_or]

variable [StateVariant S] [EventVariant E]

/-- A call completes a transition, and leaves the state it leads to with its
own deadline or none; or it keeps the deadline that was set. -/
inductive Completion (machine : StateMachine S E C A) (call : Call E C)
    (outcome : Report S E C A) : Prop
  | completed (selected : machine.select call = .fire trigger)
      (held : outcome.completed = some trigger)
      (succeeded : outcome.result = .ok actions)
      (settled : outcome.machine = machine.settled state call.armed)
      (readings : clockReadings outcome.trace =
        clockReadings (machine.preamble call) ++
          machine.armReadings state call.armed) :
      Completion machine call outcome
  | uncompleted (absent : outcome.completed = none)
      (kept : outcome.machine.stateTimeout = machine.stateTimeout)
      (unfinished : ∀ trigger, machine.select call = .fire trigger →
        ∃ error, outcome.result = .error error) :
      Completion machine call outcome

theorem completion (machine : StateMachine S E C A) (call : Call E C) :
    machine.Completion call (machine.report call) := by
  have course := machine.course call
  generalize machine.report call = outcome at course ⊢
  cases course with
  | idle selected =>
      refine .uncompleted (machine.firedTrigger_preamble call) rfl ?_
      intro trigger fired
      rw [selected] at fired
      cases fired
  | refused selected =>
      refine .uncompleted rfl rfl ?_
      intro trigger fired
      exact ⟨_, rfl⟩
  | absorbed selected answered =>
      rename_i handler state event result final suspensions
      refine .uncompleted ?_ rfl ?_
      · cases result with
        | ok value => exact machine.firedTrigger_of_preamble call _
        | error error => rfl
      · intro trigger fired
        rw [selected] at fired
        cases fired
  | declined selected failed =>
      exact .uncompleted rfl rfl fun _ _ => ⟨_, rfl⟩
  | exitFailed selected answered failed =>
      exact .uncompleted rfl rfl fun _ _ => ⟨_, rfl⟩
  | entryFailed selected answered exited failed =>
      exact .uncompleted rfl rfl fun _ _ => ⟨_, rfl⟩
  | completed selected answered exited entered =>
      refine .completed selected ?_ rfl rfl ?_
      · simp only [Report.completed, List.append_assoc]
        exact machine.firedTrigger_of_preamble call _
      · simp only [clockReadings_append, clockReadings_hookTrace,
          clockReadings_rearmTrace]
        change clockReadings _ ++ [] ++ [] ++ [] ++ [] ++ _ = _
        simp only [List.append_nil]

end StateMachine

end ObzenflowFsm
