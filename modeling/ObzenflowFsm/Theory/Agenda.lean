import Mathlib.Data.List.Perm.Basic

/-! Journals whose entries settle duties and incur new ones. The duties are
kept on a stack: what was incurred last is settled first. -/

structure Agenda (Entry Duty : Type) where
  /-- The duty an entry settles; none opens an agenda that is empty. -/
  settles : Entry → Option Duty
  incurs : Entry → List Duty

namespace Agenda

variable {Entry Duty Kind : Type} {agenda : Agenda Entry Duty}

inductive Step (agenda : Agenda Entry Duty) (entry : Entry) :
    List Duty → List Duty → Prop
  | opened (opens : agenda.settles entry = none) :
      Step agenda entry [] (agenda.incurs entry)
  | settled {duty : Duty} {duties : List Duty}
      (settles : agenda.settles entry = some duty) :
      Step agenda entry (duty :: duties) (agenda.incurs entry ++ duties)

inductive Runs (agenda : Agenda Entry Duty) :
    List Duty → List Entry → List Duty → Prop
  | nil {duties : List Duty} : Runs agenda duties [] duties
  | cons {before middle after : List Duty} {entry : Entry}
      {rest : List Entry} (step : agenda.Step entry before middle)
      (runs : Runs agenda middle rest after) :
      Runs agenda before (entry :: rest) after

/-- The duties a journal leaves. -/
def Owes (agenda : Agenda Entry Duty) (journal : List Entry)
    (duties : List Duty) : Prop :=
  agenda.Runs [] journal duties

theorem Step.unique {entry : Entry} {before first second : List Duty}
    (step : agenda.Step entry before first)
    (other : agenda.Step entry before second) : first = second := by
  cases step with
  | opened opens => cases other with | opened _ => rfl
  | settled settles => cases other with | settled _ => rfl

theorem Runs.unique {journal : List Entry} {before first second : List Duty}
    (runs : agenda.Runs before journal first)
    (other : agenda.Runs before journal second) : first = second := by
  induction runs with
  | nil => cases other with | nil => rfl
  | cons step runs induction =>
      cases other with
      | cons otherStep otherRuns =>
          cases step.unique otherStep
          exact induction otherRuns

theorem runs_append_iff {first second : List Entry}
    {before after : List Duty} :
    agenda.Runs before (first ++ second) after ↔
      ∃ middle, agenda.Runs before first middle ∧
        agenda.Runs middle second after := by
  constructor
  · intro runs
    induction first generalizing before with
    | nil => exact ⟨before, .nil, runs⟩
    | cons entry rest induction =>
        cases runs with
        | cons step runs =>
            obtain ⟨middle, head, tail⟩ := induction runs
            exact ⟨middle, .cons step head, tail⟩
  · rintro ⟨middle, head, tail⟩
    induction head with
    | nil => exact tail
    | cons step runs induction => exact .cons step (induction tail)

theorem Owes.start : agenda.Owes [] [] := .nil

theorem Owes.concat {journal : List Entry} {before after : List Duty}
    {entry : Entry} (owes : agenda.Owes journal before)
    (step : agenda.Step entry before after) :
    agenda.Owes (journal ++ [entry]) after :=
  runs_append_iff.mpr ⟨before, owes, .cons step .nil⟩

/-! ### Every duty is settled once or still owed -/

theorem Step.perm {entry : Entry} {before after : List Duty}
    (step : agenda.Step entry before after) :
    (before ++ agenda.incurs entry).Perm
      ((agenda.settles entry).toList ++ after) := by
  cases step with
  | opened opens =>
      rw [opens]
      exact .refl _
  | settled settles =>
      rw [settles]
      exact .cons _ List.perm_append_comm

theorem Runs.perm {journal : List Entry} {before after : List Duty}
    (runs : agenda.Runs before journal after) :
    (before ++ journal.flatMap agenda.incurs).Perm
      ((journal.flatMap fun entry => (agenda.settles entry).toList) ++
        after) := by
  induction runs with
  | nil => simp
  | @cons before middle after entry rest step runs induction =>
      rw [List.flatMap_cons, List.flatMap_cons, ← List.append_assoc,
        List.append_assoc _ _ after]
      refine (step.perm.append_right _).trans ?_
      rw [List.append_assoc]
      exact induction.append_left _

/-- What a kind of duty amounts to: as many incurred as settled and owed. -/
theorem Owes.perm_filterMap {journal : List Entry} {duties : List Duty}
    (owes : agenda.Owes journal duties) (kind : Duty → Option Kind) :
    ((journal.flatMap agenda.incurs).filterMap kind).Perm
      ((journal.flatMap fun entry =>
          (agenda.settles entry).toList).filterMap kind ++
        duties.filterMap kind) := by
  rw [← List.filterMap_append]
  exact List.Perm.filterMap kind (Runs.perm owes)

/-! ### The duty incurred last is settled next -/

theorem Owes.next {before after : List Entry} {entry next : Entry}
    {duty : Duty} {more duties : List Duty}
    (owes : agenda.Owes (before ++ entry :: next :: after) duties)
    (incurs : agenda.incurs entry = duty :: more) :
    agenda.settles next = some duty := by
  obtain ⟨held, _, tail⟩ := runs_append_iff.mp owes
  cases tail with
  | cons step runs =>
      cases runs with
      | cons nextStep _ =>
          cases step with
          | opened opens =>
              rw [incurs] at nextStep
              cases nextStep with
              | settled settles => exact settles
          | settled settles =>
              rw [incurs] at nextStep
              cases nextStep with
              | settled settles => exact settles

theorem Step.mem {entry : Entry} {before after : List Duty} {duty : Duty}
    (step : agenda.Step entry before after) (member : duty ∈ after) :
    duty ∈ before ∨ duty ∈ agenda.incurs entry := by
  cases step with
  | opened opens => exact .inr member
  | settled settles =>
      rcases List.mem_append.mp member with member | member
      · exact .inr member
      · exact .inl (List.mem_cons_of_mem _ member)

theorem Runs.incurred {journal : List Entry} {before after : List Duty}
    {duty : Duty} (runs : agenda.Runs before journal after)
    (member : duty ∈ after) :
    duty ∈ before ∨ ∃ first entry rest,
      journal = first ++ entry :: rest ∧ duty ∈ agenda.incurs entry := by
  induction runs with
  | nil => exact .inl member
  | cons step runs induction =>
      rename_i before middle after entry rest
      rcases induction member with held | ⟨first, later, last, rfl, incurs⟩
      · rcases step.mem held with held | incurs
        · exact .inl held
        · exact .inr ⟨[], entry, rest, rfl, incurs⟩
      · exact .inr ⟨entry :: first, later, last, rfl, incurs⟩

theorem Owes.incurred {journal : List Entry} {duties : List Duty}
    {duty : Duty} (owes : agenda.Owes journal duties)
    (member : duty ∈ duties) :
    ∃ first entry rest,
      journal = first ++ entry :: rest ∧ duty ∈ agenda.incurs entry :=
  (Runs.incurred owes member).resolve_left List.not_mem_nil

theorem Owes.of_concat {journal : List Entry} {entry : Entry}
    {duties : List Duty} (owes : agenda.Owes (journal ++ [entry]) duties) :
    ∃ rest, duties = agenda.incurs entry ++ rest := by
  obtain ⟨before, _, tail⟩ := runs_append_iff.mp owes
  cases tail with
  | cons step runs =>
      cases runs
      cases step with
      | opened opens => exact ⟨[], (List.append_nil _).symm⟩
      | settled settles => exact ⟨_, rfl⟩

/-- A duty that nothing settles ends the journal. -/
theorem Owes.last {before after : List Entry} {entry : Entry} {duty : Duty}
    {more duties : List Duty}
    (owes : agenda.Owes (before ++ entry :: after) duties)
    (incurs : agenda.incurs entry = duty :: more)
    (unsettled : ∀ next, agenda.settles next ≠ some duty) : after = [] := by
  cases after with
  | nil => rfl
  | cons next after => exact absurd (owes.next incurs) (unsettled next)

end Agenda
