import Mathlib.Data.List.Infix

namespace Bracketing

/-! Walks through states that are bracketed by hooks: each state is left through
its leaving hooks before the next one is entered through its entering hooks. -/

variable {Hook State : Type}

inductive Mark (Hook State : Type) where
  | hook (hook : Hook)
  | moved (state : State)

def hooks (marks : List (Mark Hook State)) : List Hook :=
  marks.filterMap fun mark =>
    match mark with
    | .hook hook => some hook
    | .moved _ => none

def moves (marks : List (Mark Hook State)) : List State :=
  marks.filterMap fun mark =>
    match mark with
    | .hook _ => none
    | .moved state => some state

/-- The marks of a walk from a state through the given ones. -/
def bracketed (leave enter : State → List Hook) :
    State → List State → List (Mark Hook State)
  | _, [] => []
  | state, next :: rest =>
      (leave state).map .hook ++
        .moved next :: ((enter next).map .hook ++ bracketed leave enter next rest)

def brackets (leave enter : State → List Hook) :
    State → List State → List Hook
  | _, [] => []
  | state, next :: rest =>
      leave state ++ (enter next ++ brackets leave enter next rest)

theorem hooks_append (first second : List (Mark Hook State)) :
    hooks (first ++ second) = hooks first ++ hooks second :=
  List.filterMap_append

theorem moves_append (first second : List (Mark Hook State)) :
    moves (first ++ second) = moves first ++ moves second :=
  List.filterMap_append

@[simp] theorem hooks_map (called : List Hook) :
    hooks (called.map (.hook : Hook → Mark Hook State)) = called := by
  induction called with
  | nil => rfl
  | cons head tail induction => exact congrArg (List.cons head) induction

@[simp] theorem moves_map (called : List Hook) :
    moves (called.map (.hook : Hook → Mark Hook State)) = [] := by
  induction called with
  | nil => rfl
  | cons head tail induction => exact induction

@[simp] theorem hooks_moved (state : State) (rest : List (Mark Hook State)) :
    hooks (.moved state :: rest) = hooks rest := rfl

@[simp] theorem moves_moved (state : State) (rest : List (Mark Hook State)) :
    moves (.moved state :: rest) = state :: moves rest := rfl

variable {leave enter : State → List Hook}

theorem hooks_bracketed (state : State) (states : List State) :
    hooks (bracketed leave enter state states) =
      brackets leave enter state states := by
  induction states generalizing state with
  | nil => rfl
  | cons next rest induction =>
      simp only [bracketed, brackets, hooks_append, hooks_map, hooks_moved,
        induction]

/-! ### No hook is called twice between two moves -/

private theorem infix_of_absent {Value : Type} {value : Value}
    {between left right : List Value}
    (contained : between <:+: left ++ value :: right)
    (absent : value ∉ between) :
    between <:+: left ∨ between <:+: right := by
  obtain ⟨before, after, split⟩ := contained
  rw [List.append_assoc] at split
  rcases List.append_eq_append_iff.mp split with
    ⟨rest, leftSplit, restSplit⟩ | ⟨rest, beforeSplit, restSplit⟩
  · rcases List.append_eq_append_iff.mp restSplit with
      ⟨tail, rfl, _⟩ | ⟨tail, betweenSplit, tailSplit⟩
    · exact .inl ⟨before, tail, by rw [leftSplit, List.append_assoc]⟩
    · cases tail with
      | nil =>
          rw [List.append_nil] at betweenSplit
          subst betweenSplit
          exact .inl ⟨before, [], by rw [List.append_nil, leftSplit]⟩
      | cons head tail =>
          cases tailSplit
          exact absurd (by simp [betweenSplit]) absent
  · cases rest with
    | nil =>
        cases between with
        | nil => exact .inl List.nil_infix
        | cons head tail =>
            cases restSplit
            exact absurd List.mem_cons_self absent
    | cons head rest =>
        cases restSplit
        exact .inr ⟨rest, after, List.append_assoc rest between after⟩

private theorem countP_le_of_infix {between : List (Mark Hook State)}
    {called : List Hook} (counts : Hook → Bool)
    (contained : between <:+: called.map .hook) :
    (hooks between).countP counts ≤ called.countP counts := by
  have sublist := contained.sublist.filterMap fun mark =>
    match mark with
    | .hook hook => some hook
    | .moved _ => none
  rw [← hooks, ← hooks, hooks_map] at sublist
  exact sublist.countP_le

private theorem countP_stay_after {counts : Hook → Bool}
    (single : ∀ state,
      (enter state).countP counts + (leave state).countP counts ≤ 1)
    {between : List (Mark Hook State)}
    (unmoved : ∀ state, .moved state ∉ between) (states : List State) :
    ∀ (state : State) (called : List Hook),
      called.countP counts + (leave state).countP counts ≤ 1 →
        between <:+: called.map .hook ++
            bracketed leave enter state states →
          (hooks between).countP counts ≤ 1 := by
  induction states with
  | nil =>
      intro state called bound contained
      rw [bracketed, List.append_nil] at contained
      have counted := countP_le_of_infix counts contained
      omega
  | cons next rest induction =>
      intro state called bound contained
      rw [bracketed, ← List.append_assoc, ← List.map_append] at contained
      rcases infix_of_absent contained (unmoved next) with before | after
      · have counted := countP_le_of_infix counts before
        rw [List.countP_append] at counted
        omega
      · exact induction next (enter next) (single next) after

/-- Where every state has at most one hook of a kind, no stretch of a walk that
does not move calls two of that kind. -/
theorem countP_stay {counts : Hook → Bool}
    (single : ∀ state,
      (enter state).countP counts + (leave state).countP counts ≤ 1)
    {between : List (Mark Hook State)}
    (unmoved : ∀ state, .moved state ∉ between) (state : State)
    (states : List State)
    (contained : between <:+: bracketed leave enter state states) :
    (hooks between).countP counts ≤ 1 := by
  have bound := single state
  exact countP_stay_after single unmoved states state []
    (by rw [List.countP_nil]; omega) contained

end Bracketing
