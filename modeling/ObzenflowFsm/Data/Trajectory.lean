namespace Trajectory

/-! Finite runs of a deterministic machine that answers every input. -/

variable {State Abstract Input Output : Type}

def final (step : State → Input → Output × State) :
    State → List Input → State
  | state, [] => state
  | state, input :: rest => final step (step state input).2 rest

def outputs (step : State → Input → Output × State) :
    State → List Input → List Output
  | _, [] => []
  | state, input :: rest =>
      (step state input).1 :: outputs step (step state input).2 rest

def visits (step : State → Input → Output × State) :
    State → List Input → List (State × Input)
  | _, [] => []
  | state, input :: rest =>
      (state, input) :: visits step (step state input).2 rest

/-- Every state a run passes through, the first and the last included. -/
def states (step : State → Input → Output × State) :
    State → List Input → List State
  | state, [] => [state]
  | state, input :: rest => state :: states step (step state input).2 rest

variable {step : State → Input → Output × State}

@[simp] theorem final_nil (state : State) : final step state [] = state := rfl

@[simp] theorem final_cons (state : State) (input : Input)
    (rest : List Input) :
    final step state (input :: rest) =
      final step (step state input).2 rest := rfl

@[simp] theorem outputs_nil (state : State) :
    outputs step state [] = [] := rfl

@[simp] theorem outputs_cons (state : State) (input : Input)
    (rest : List Input) :
    outputs step state (input :: rest) =
      (step state input).1 :: outputs step (step state input).2 rest := rfl

@[simp] theorem visits_nil (state : State) : visits step state [] = [] := rfl

@[simp] theorem visits_cons (state : State) (input : Input)
    (rest : List Input) :
    visits step state (input :: rest) =
      (state, input) :: visits step (step state input).2 rest := rfl

theorem final_append (state : State) (first second : List Input) :
    final step state (first ++ second) =
      final step (final step state first) second := by
  induction first generalizing state with
  | nil => rfl
  | cons input rest induction => exact induction (step state input).2

theorem outputs_append (state : State) (first second : List Input) :
    outputs step state (first ++ second) =
      outputs step state first ++
        outputs step (final step state first) second := by
  induction first generalizing state with
  | nil => rfl
  | cons input rest induction =>
      exact congrArg (List.cons (step state input).1)
        (induction (step state input).2)

theorem visits_append (state : State) (first second : List Input) :
    visits step state (first ++ second) =
      visits step state first ++
        visits step (final step state first) second := by
  induction first generalizing state with
  | nil => rfl
  | cons input rest induction =>
      exact congrArg (List.cons (state, input))
        (induction (step state input).2)

theorem length_outputs (state : State) (inputs : List Input) :
    (outputs step state inputs).length = inputs.length := by
  induction inputs generalizing state with
  | nil => rfl
  | cons input rest induction =>
      exact congrArg Nat.succ (induction (step state input).2)

theorem outputs_eq_map_visits (state : State) (inputs : List Input) :
    outputs step state inputs =
      (visits step state inputs).map fun visit =>
        (step visit.1 visit.2).1 := by
  induction inputs generalizing state with
  | nil => rfl
  | cons input rest induction =>
      rw [outputs_cons, visits_cons, List.map_cons, induction]

theorem visits_invariant (invariant : State → Prop) {state : State}
    (initial : invariant state)
    (preserved : ∀ state input, invariant state →
      invariant (step state input).2)
    (inputs : List Input) :
    ∀ visit ∈ visits step state inputs, invariant visit.1 := by
  induction inputs generalizing state with
  | nil => intro visit member; cases member
  | cons input rest induction =>
      intro visit member
      rcases List.mem_cons.mp member with rfl | member
      · exact initial
      · exact induction (preserved state input initial) visit member

theorem mem_of_mem_visits {state : State} {inputs : List Input} :
    ∀ visit ∈ visits step state inputs, visit.2 ∈ inputs := by
  induction inputs generalizing state with
  | nil => intro visit member; cases member
  | cons input rest induction =>
      intro visit member
      rcases List.mem_cons.mp member with rfl | member
      · exact List.mem_cons_self
      · exact List.mem_cons_of_mem input (induction visit member)

theorem mem_states_self (state : State) (inputs : List Input) :
    state ∈ states step state inputs := by
  cases inputs with
  | nil => exact List.mem_singleton_self state
  | cons input rest => exact List.mem_cons_self

theorem mem_states_append {state reached : State}
    {first second : List Input} :
    reached ∈ states step state (first ++ second) ↔
      reached ∈ states step state first ∨
        reached ∈ states step (final step state first) second := by
  induction first generalizing state with
  | nil =>
      simp only [List.nil_append, states, List.mem_singleton, final_nil]
      constructor
      · exact .inr
      · rintro (rfl | member)
        · exact mem_states_self reached second
        · exact member
  | cons input rest induction =>
      simp only [List.cons_append, states, List.mem_cons, induction,
        final_cons, or_assoc]

theorem final_mem_states (state : State) (inputs : List Input) :
    final step state inputs ∈ states step state inputs := by
  induction inputs generalizing state with
  | nil => exact List.mem_singleton_self state
  | cons input rest induction =>
      exact List.mem_cons_of_mem state (induction (step state input).2)

theorem mem_states_of_mem_visits {state : State} {inputs : List Input} :
    ∀ visit ∈ visits step state inputs, visit.1 ∈ states step state inputs := by
  induction inputs generalizing state with
  | nil => intro visit member; cases member
  | cons input rest induction =>
      intro visit member
      rcases List.mem_cons.mp member with rfl | member
      · exact List.mem_cons_self
      · exact List.mem_cons_of_mem state (induction visit member)

/-- An invariant that a step keeps exactly when the step is good holds all
along a run exactly when all its steps are good. -/
theorem forall_states_iff (invariant : State → Prop)
    {good : State → Input → Prop}
    (keeps : ∀ state input, invariant state →
      (invariant (step state input).2 ↔ good state input))
    {state : State} (initial : invariant state) (inputs : List Input) :
    (∀ reached ∈ states step state inputs, invariant reached) ↔
      ∀ visit ∈ visits step state inputs, good visit.1 visit.2 := by
  induction inputs generalizing state with
  | nil => simpa [states] using initial
  | cons input rest induction =>
      simp only [states, visits_cons, List.forall_mem_cons]
      rw [← keeps state input initial]
      constructor
      · intro holds
        have next := holds.2 _ (mem_states_self _ rest)
        exact ⟨next, (induction next).mp holds.2⟩
      · intro holds
        exact ⟨initial, (induction holds.1).mpr holds.2⟩

/-- Two machines whose related states answer every input alike, and stay
related, answer every run alike. -/
theorem outputs_eq_of_simulation
    {abstractStep : Abstract → Input → Output × Abstract}
    (related : State → Abstract → Prop)
    (simulates : ∀ state abstract input, related state abstract →
      (step state input).1 = (abstractStep abstract input).1 ∧
        related (step state input).2 (abstractStep abstract input).2)
    {state : State} {abstract : Abstract} (start : related state abstract)
    (inputs : List Input) :
    outputs step state inputs = outputs abstractStep abstract inputs ∧
      related (final step state inputs)
        (final abstractStep abstract inputs) := by
  induction inputs generalizing state abstract with
  | nil => exact ⟨rfl, start⟩
  | cons input rest induction =>
      obtain ⟨same, next⟩ := simulates state abstract input start
      obtain ⟨sameRest, finish⟩ := induction next
      exact ⟨by rw [outputs_cons, outputs_cons, same, sameRest], finish⟩

end Trajectory
