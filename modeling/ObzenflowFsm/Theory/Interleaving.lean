import Mathlib.Algebra.BigOperators.Group.List.Basic
import ObzenflowFsm.Data.Trajectory

namespace Interleaving

open Trajectory

/-! Inputs of several sources, merged into one stream in some order, or combined
into fewer inputs. What a run comes to is observed up to a relation, by which
bookkeeping that depends on the order can be left out. -/

variable {State Input Output Source Delta : Type}
  {step : State → Input → Output × State}

/-- A partial equivalence that steps respect. The states it relates to
themselves are those that a run may be in. -/
structure Observation (step : State → Input → Output × State) where
  same : State → State → Prop
  symm : ∀ {first second}, same first second → same second first
  trans : ∀ {first second third}, same first second → same second third →
    same first third
  respects : ∀ {first second} input, same first second →
    (step first input).1 = (step second input).1 ∧
      same (step first input).2 (step second input).2

variable {observed : Observation step}

theorem Observation.left (observed : Observation step)
    {first second : State} (same : observed.same first second) :
    observed.same first first :=
  observed.trans same (observed.symm same)

/-- Either input is answered as if the other had not come before it, and both
orders come to the same. -/
structure Commutes (observed : Observation step) (first second : Input) :
    Prop where
  later : ∀ state, observed.same state state →
    (step (step state first).2 second).1 = (step state second).1
  earlier : ∀ state, observed.same state state →
    (step (step state second).2 first).1 = (step state first).1
  meet : ∀ state, observed.same state state →
    observed.same (step (step state first).2 second).2
      (step (step state second).2 first).2

theorem Commutes.symm {first second : Input}
    (commutes : Commutes observed first second) :
    Commutes observed second first where
  later := commutes.earlier
  earlier := commutes.later
  meet := fun state valid => observed.symm (commutes.meet state valid)

/-- The inputs of a run with what they are answered. -/
def answers (step : State → Input → Output × State) :
    State → List Input → List (Input × Output)
  | _, [] => []
  | state, input :: rest =>
      (input, (step state input).1) :: answers step (step state input).2 rest

theorem answers_map_snd (state : State) (inputs : List Input) :
    (answers step state inputs).map Prod.snd = outputs step state inputs := by
  induction inputs generalizing state with
  | nil => rfl
  | cons input rest induction =>
      rw [answers, List.map_cons, induction, outputs_cons]

variable [DecidableEq Source]

def ofSource (source : Input → Source) (name : Source)
    (inputs : List Input) : List Input :=
  inputs.filter fun input => source input = name

/-- Two merges of the same streams: each source's inputs stay in order. -/
def Merges (source : Input → Source) (first second : List Input) : Prop :=
  ∀ name, ofSource source name first = ofSource source name second

/-- Two runs come to the same, and every source is answered alike. -/
structure Agree (observed : Observation step) (source : Input → Source)
    (first : State) (inputs : List Input) (second : State)
    (others : List Input) : Prop where
  final : observed.same (final step first inputs) (final step second others)
  answers : ∀ name,
    (answers step first inputs).filter (fun answer => source answer.1 = name) =
      (answers step second others).filter
        fun answer => source answer.1 = name

variable {source : Input → Source} {first second third : State}
  {inputs others more : List Input}

theorem Agree.symm (agree : Agree observed source first inputs second others) :
    Agree observed source second others first inputs :=
  ⟨observed.symm agree.final, fun name => (agree.answers name).symm⟩

theorem Agree.trans (agree : Agree observed source first inputs second others)
    (next : Agree observed source second others third more) :
    Agree observed source first inputs third more :=
  ⟨observed.trans agree.final next.final,
    fun name => (agree.answers name).trans (next.answers name)⟩

theorem Agree.cons {input : Input} (same : observed.same first second)
    (agree : Agree observed source (step first input).2 inputs
      (step second input).2 others) :
    Agree observed source first (input :: inputs) second
      (input :: others) := by
  refine ⟨agree.final, fun name => ?_⟩
  rw [Interleaving.answers, Interleaving.answers,
    (observed.respects input same).1, List.filter_cons, List.filter_cons,
    agree.answers name]

theorem Agree.refl (same : observed.same first second)
    (inputs : List Input) :
    Agree observed source first inputs second inputs := by
  induction inputs generalizing first second with
  | nil => exact ⟨same, fun _ => rfl⟩
  | cons input rest induction =>
      exact .cons same (induction (observed.respects input same).2)

theorem Agree.swap {state : State} {input other : Input}
    (valid : observed.same state state) (apart : source input ≠ source other)
    (commutes : Commutes observed input other) (rest : List Input) :
    Agree observed source state (input :: other :: rest) state
      (other :: input :: rest) := by
  have met : Agree observed source _ rest _ rest :=
    .refl (commutes.meet state valid) rest
  refine ⟨met.final, fun name => ?_⟩
  simp only [Interleaving.answers, commutes.later state valid,
    commutes.earlier state valid, List.filter_cons, met.answers name]
  by_cases named : source input = name
  · have other : source other ≠ name := fun same => apart (named.trans same.symm)
    simp [named, other]
  · simp [named]

/-- An input may overtake those of other sources that it commutes with. -/
theorem Agree.front {state : State} {input : Input} {before after : List Input}
    (valid : observed.same state state)
    (free : ∀ other ∈ before,
      source other ≠ source input ∧ Commutes observed other input) :
    Agree observed source state (before ++ input :: after) state
      (input :: (before ++ after)) := by
  induction before generalizing state with
  | nil => exact .refl valid _
  | cons other before induction =>
      obtain ⟨⟨apart, commutes⟩, others⟩ := List.forall_mem_cons.mp free
      have moved := induction (observed.respects other valid).2 others
      exact (Agree.cons valid moved).trans (.swap valid apart commutes _)

theorem Merges.mem {input : Input} (merges : Merges source inputs others)
    (member : input ∈ others) : input ∈ inputs := by
  have present : input ∈ ofSource source (source input) others :=
    List.mem_filter.mpr ⟨member, by simp⟩
  rw [← merges (source input)] at present
  exact (List.mem_filter.mp present).1

theorem Merges.eq_nil (merges : Merges source [] others) : others = [] := by
  apply List.eq_nil_iff_forall_not_mem.mpr
  intro input member
  cases merges.mem member

/-- The first input of a merge stands, in any other, behind inputs of other
sources only; what is left are merges again. -/
theorem Merges.split {input : Input} {rest : List Input}
    (merges : Merges source (input :: rest) others) :
    ∃ before after, others = before ++ input :: after ∧
      (∀ other ∈ before, source other ≠ source input) ∧
      Merges source rest (before ++ after) := by
  have mine := merges (source input)
  rw [ofSource, List.filter_cons_of_pos (by simp)] at mine
  obtain ⟨before, after, rfl, absent, -, mine⟩ :=
    List.filter_eq_cons_iff.mp mine.symm
  have apart : ∀ other ∈ before, source other ≠ source input := by
    intro other member same
    exact absent other member (by simpa using same)
  refine ⟨before, after, rfl, apart, fun name => ?_⟩
  by_cases named : source input = name
  · subst named
    rw [ofSource, ofSource, List.filter_append,
      List.filter_eq_nil_iff.mpr absent, List.nil_append]
    exact mine.symm
  · have theirs := merges name
    simp only [ofSource, List.filter_append, List.filter_cons, named,
      decide_false, Bool.false_eq_true, if_false] at theirs ⊢
    exact theirs

theorem Merges.perm (merges : Merges source inputs others) :
    inputs.Perm others := by
  induction inputs generalizing others with
  | nil =>
      rw [merges.eq_nil]
  | cons input rest induction =>
      obtain ⟨before, after, rfl, _, remaining⟩ := merges.split
      exact ((induction remaining).cons input).trans List.perm_middle.symm

/-- Merging streams in another order changes neither what a run comes to nor
what any source is answered, if inputs of different sources commute. -/
theorem agree_of_merges {state : State} (valid : observed.same state state)
    (commute : ∀ input ∈ inputs, ∀ other ∈ inputs,
      source input ≠ source other → Commutes observed input other)
    (merges : Merges source inputs others) :
    Agree observed source state inputs state others := by
  induction inputs generalizing state others with
  | nil =>
      rw [merges.eq_nil]
      exact .refl valid []
  | cons input rest induction =>
      obtain ⟨before, after, rfl, apart, remaining⟩ := merges.split
      have moved : Agree observed source state (before ++ input :: after)
          state (input :: (before ++ after)) := by
        refine .front valid fun other member => ⟨apart other member, ?_⟩
        have mine := merges.mem (List.mem_append_left _ member)
        exact commute other mine input List.mem_cons_self (apart other member)
      have tail := induction (observed.respects input valid).2
        (fun first firstMember second secondMember =>
          commute first (List.mem_cons_of_mem _ firstMember) second
            (List.mem_cons_of_mem _ secondMember)) remaining
      exact (Agree.cons valid tail).trans moved.symm

/-! ### Inputs that are combined -/

omit [DecidableEq Source]

/-- What an input does to a state is its delta, and deltas combine. -/
structure Accumulates [Monoid Delta] (observed : Observation step)
    (delta : Input → Delta) (update : Delta → State → State) : Prop where
  step : ∀ state input, observed.same state state →
    observed.same (step state input).2 (update (delta input) state)
  update_one : ∀ state, observed.same state state →
    observed.same (update 1 state) state
  update_mul : ∀ first second state, observed.same state state →
    observed.same (update (first * second) state)
      (update second (update first state))
  respects : ∀ change state other, observed.same state other →
    observed.same (update change state) (update change other)

section Accumulation

variable [Monoid Delta] {delta : Input → Delta} {update : Delta → State → State}

theorem Accumulates.final
    (accumulates : Accumulates observed delta update) {state : State}
    (valid : observed.same state state) (inputs : List Input) :
    observed.same (Trajectory.final step state inputs)
      (update (inputs.map delta).prod state) := by
  induction inputs generalizing state with
  | nil => exact observed.symm (accumulates.update_one state valid)
  | cons input rest induction =>
      have stepped := accumulates.step state input valid
      rw [List.map_cons, List.prod_cons]
      refine observed.trans (induction (observed.respects input valid).2) ?_
      refine observed.trans (accumulates.respects _ _ _ stepped) ?_
      exact observed.symm (accumulates.update_mul _ _ state valid)

/-- However inputs are regrouped, a run comes to the same if their deltas
combine to the same. -/
theorem Accumulates.regroup
    (accumulates : Accumulates observed delta update) {state : State}
    (valid : observed.same state state)
    (total : (inputs.map delta).prod = (others.map delta).prod) :
    observed.same (Trajectory.final step state inputs)
      (Trajectory.final step state others) := by
  have first := accumulates.final valid inputs
  rw [total] at first
  exact observed.trans first (observed.symm (accumulates.final valid others))

end Accumulation

end Interleaving
