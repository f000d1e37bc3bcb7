import ObzenflowFsm.Data.Spacing
import ObzenflowFsm.Machine.Completion

namespace ObzenflowFsm

open Spacing

variable {S E C A : Type}

namespace StateMachine

variable [StateVariant S]

/-- The deadline, if one is set, is at least the gap after the reading. -/
def Rests (machine : StateMachine S E C A) (gap : Duration)
    (since : Instant) : Prop :=
  ∀ deadline, machine.stateTimeout = some deadline → since + gap ≤ deadline

def TimeoutsLast (machine : StateMachine S E C A) (gap : Duration) : Prop :=
  ∀ stateName timeout,
    machine.timeoutHandlers.lookup stateName = some timeout → gap ≤ timeout.1

theorem rests_settled {machine : StateMachine S E C A} {gap : Duration}
    {since armed : Instant} {state : S} (lasts : machine.TimeoutsLast gap)
    (after : ∀ reading ∈ machine.armReadings state armed, since ≤ reading) :
    (machine.settled state armed).Rests gap since := by
  intro deadline held
  obtain ⟨timeout, found, rfl⟩ := Option.map_eq_some_iff.mp held
  have long := lasts _ timeout found
  have later : since ≤ armed := by
    apply after
    simp [armReadings, found]
  exact Nat.add_le_add later long

variable [EventVariant E]

/-- The reading at which a call finds a deadline reached, if its timeout
handler and the transition it answers with succeed. -/
def expiry (machine : StateMachine S E C A) :
    Call E C → Option Instant
  | .handle _ _ _ => none
  | .checkTimeout context polled armed =>
      match (machine.report (.checkTimeout context polled armed)).completed with
      | some (.timeout _ _ _) => some polled
      | _ => none

/-- The readings at which the timeout transitions of a run complete. -/
def expiries (machine : StateMachine S E C A) (calls : List (Call E C)) :
    List Instant :=
  (Trajectory.visits step machine calls).filterMap fun visit =>
    visit.1.expiry visit.2

/-- The clock readings that a run takes. -/
def clock (machine : StateMachine S E C A) (calls : List (Call E C)) :
    List Instant :=
  (Trajectory.outputs step machine calls).flatMap fun report =>
    clockReadings report.trace

/-- A timeout transition is completed at or after the deadline, and leaves a
deadline counted from the same reading or a later one. -/
theorem expiry_spec {machine : StateMachine S E C A} {call : Call E C}
    {reading : Instant} (expired : machine.expiry call = some reading) :
    ∃ deadline state, machine.stateTimeout = some deadline ∧
      deadline ≤ reading ∧
      (machine.report call).machine = machine.settled state call.armed ∧
      clockReadings (machine.report call).trace =
        reading :: machine.armReadings state call.armed := by
  cases call with
  | handle event context armed => cases expired
  | checkTimeout context polled armed =>
      cases machine.completion (.checkTimeout context polled armed) with
      | uncompleted absent kept unfinished =>
          simp [expiry, absent] at expired
      | completed selected held succeeded settled readings =>
          rename_i trigger actions state
          obtain ⟨deadline, duration, handler, rfl, armedAt, _, reached⟩ :=
            selectTimeout_fire selected
          simp only [expiry, held, Option.some.injEq] at expired
          subst expired
          refine ⟨deadline, state, armedAt, reached, settled, ?_⟩
          rw [readings]
          simp only [preamble, armedAt]
          rfl

theorem rests_report {machine : StateMachine S E C A} {gap : Duration}
    {since : Instant} {call : Call E C} (lasts : machine.TimeoutsLast gap)
    (rests : machine.Rests gap since)
    (after : ∀ reading ∈ clockReadings (machine.report call).trace,
      since ≤ reading) :
    (machine.report call).machine.Rests gap since := by
  cases machine.completion call with
  | uncompleted absent kept unfinished =>
      intro deadline held
      exact rests deadline (kept ▸ held)
  | completed selected held succeeded settled readings =>
      rw [settled]
      apply rests_settled lasts
      intro reading member
      apply after
      rw [readings]
      exact List.mem_append_right _ member

theorem rests_of_expiry {machine : StateMachine S E C A} {gap : Duration}
    {reading : Instant} {call : Call E C} (lasts : machine.TimeoutsLast gap)
    (expired : machine.expiry call = some reading)
    (forward :
      (clockReadings (machine.report call).trace).Pairwise (· ≤ ·)) :
    (machine.report call).machine.Rests gap reading := by
  obtain ⟨deadline, state, _, _, settled, readings⟩ := expiry_spec expired
  rw [readings] at forward
  rw [settled]
  exact rests_settled lasts (List.pairwise_cons.mp forward).1

theorem timeoutsLast_report {machine : StateMachine S E C A} {gap : Duration}
    (lasts : machine.TimeoutsLast gap) (call : Call E C) :
    (machine.report call).machine.TimeoutsLast gap := by
  have tables := machine.report_toTables call
  intro stateName timeout found
  exact lasts stateName timeout
    (congrArg Tables.timeoutHandlers tables ▸ found)

/-! ### Whole runs -/

variable {machine : StateMachine S E C A} {gap : Duration}

theorem expiries_after {since : Instant} (lasts : machine.TimeoutsLast gap)
    (rests : machine.Rests gap since) (calls : List (Call E C))
    (after : ∀ reading ∈ machine.clock calls, since ≤ reading) :
    ∀ reading ∈ machine.expiries calls, since + gap ≤ reading := by
  induction calls generalizing machine with
  | nil =>
      intro reading member
      cases member
  | cons call rest induction =>
      have first : ∀ reading ∈ clockReadings (machine.report call).trace,
          since ≤ reading := fun reading member =>
        after reading (List.mem_append_left _ member)
      have later := induction (timeoutsLast_report lasts call)
        (rests_report lasts rests first)
        fun reading member => after reading (List.mem_append_right _ member)
      intro reading member
      obtain ⟨visit, visited, expired⟩ := List.mem_filterMap.mp member
      rcases List.mem_cons.mp visited with rfl | visited
      · obtain ⟨deadline, _, held, reached, _⟩ := expiry_spec expired
        exact Nat.le_trans (rests deadline held) reached
      · exact later reading (List.mem_filterMap.mpr ⟨visit, visited, expired⟩)

theorem spaced_expiries (lasts : machine.TimeoutsLast gap)
    (calls : List (Call E C))
    (forward : (machine.clock calls).Pairwise (· ≤ ·)) :
    Spaced gap (machine.expiries calls) := by
  induction calls generalizing machine with
  | nil => exact .nil
  | cons call rest induction =>
      obtain ⟨forwardCall, forwardRest, across⟩ :=
        List.pairwise_append.mp forward
      have spaced := induction (timeoutsLast_report lasts call) forwardRest
      cases expired : machine.expiry call with
      | none =>
          have skipped : machine.expiries (call :: rest) =
              (machine.report call).machine.expiries rest :=
            List.filterMap_cons_none expired
          rw [skipped]
          exact spaced
      | some reading =>
          have first : reading ∈ clockReadings (machine.report call).trace := by
            obtain ⟨_, _, _, _, _, readings⟩ := expiry_spec expired
            rw [readings]
            exact List.mem_cons_self
          have taken : machine.expiries (call :: rest) =
              reading :: (machine.report call).machine.expiries rest :=
            List.filterMap_cons_some expired
          rw [taken]
          refine List.pairwise_cons.mpr ⟨?_, spaced⟩
          exact expiries_after (timeoutsLast_report lasts call)
            (rests_of_expiry lasts expired forwardCall) rest (across _ first)

end StateMachine

section Reached

theorem Tables.Hold.timeoutsLast {machine : StateMachine S E C A}
    {registrations : Registrations S E C A}
    (holds : machine.toTables.Hold registrations) {gap : Duration}
    (long : ∀ timeout ∈ registrations.timeouts, gap ≤ timeout.2.1) :
    machine.TimeoutsLast gap := by
  intro stateName timeout found
  rw [holds.timeouts] at found
  exact long _ (Registry.mem_of_latest found)

variable [StateVariant S] [EventVariant E]

/-- Timeout transitions complete at least as far apart as the shortest timeout
lasts, however often the machine is polled and whatever else it is given. -/
theorem Chain.no_timeout_storm (chain : Chain S E C A .fsm) (now : Instant)
    {machine : StateMachine S E C A} (reaches : chain.Reaches now machine)
    {gap : Duration} (positive : 0 < gap)
    (long : ∀ timeout ∈ chain.registrations.timeouts, gap ≤ timeout.2.1)
    (calls : List (Call E C))
    (forward : (machine.clock calls).Pairwise (· ≤ ·)) :
    Spaced gap (machine.expiries calls) ∧
      ∀ start length,
        (Spacing.within start length (machine.expiries calls)).length ≤
          length / gap + 1 := by
  have spaced := StateMachine.spaced_expiries
    (reaches.hold.timeoutsLast long) calls forward
  exact ⟨spaced, spaced.length_within_le positive⟩

end Reached

namespace Door

/-- The door is left open until its timeout closes it, two times. -/
def forgotten : List (Call DoorEvent DoorContext) :=
  [.handle .opening {} 5, .checkTimeout {} 9 9,
    .checkTimeout {} (openFor + 5) (openFor + 6),
    .handle .opening {} (openFor + 8),
    .checkTimeout {} (2 * openFor + 9) (2 * openFor + 9)]

example : (machine greet).expiries forgotten =
    [openFor + 5, 2 * openFor + 9] := rfl

theorem forgotten_spaced :
    Spaced openFor ((machine greet).expiries forgotten) ∧
      ∀ start length,
        (Spacing.within start length
          ((machine greet).expiries forgotten)).length ≤
            length / openFor + 1 := by
  refine (chain greet).no_timeout_storm 0 (reaches greet) (by decide) ?_
    forgotten (by decide)
  intro timeout member
  cases List.mem_singleton.mp member
  exact Nat.le_refl openFor

end Door

end ObzenflowFsm
