import ObzenflowFsm.Theory.TimedMealy

namespace TimedMealy

/-! Machines whose reactions may change the context of their host but answer
the same whatever it is: the context never reaches the state. -/

variable {State Event Context Action Error Value : Type}

/-- The effect returns the same in every context. -/
def Effect.Oblivious (run : Effect Context Error Value) : Prop :=
  ∀ context other, (run context).1 = (run other).1

def Reaction.Oblivious : Reaction State Context Action Error → Prop
  | .move run => run.Oblivious
  | .absorb run => run.Oblivious
  | .refuse _ => True

namespace Machine

structure Oblivious (machine : Machine State Event Context Action Error) :
    Prop where
  react : ∀ state event, (machine.react state event).Oblivious
  expire : ∀ state run, machine.expire state = some run → run.Oblivious
  leave : ∀ state, (machine.leave state).Oblivious
  enter : ∀ state, (machine.enter state).Oblivious

/-- The responses differ in the context at most. -/
structure Indistinct (first second : Response State Context Action Error) :
    Prop where
  result : first.result = second.result
  position : first.position = second.position

variable {machine : Machine State Event Context Action Error}

theorem Oblivious.move (oblivious : machine.Oblivious) (armed : Nat)
    (here : Position State)
    {reply other : Except Error (State × List Action) × Context}
    (same : reply.1 = other.1) :
    Indistinct (machine.move armed here reply)
      (machine.move armed here other) := by
  obtain ⟨answer, given⟩ := reply
  obtain ⟨_, otherGiven⟩ := other
  cases same
  cases answer with
  | error error => exact ⟨rfl, rfl⟩
  | ok answer =>
      have leaves := oblivious.leave here.state given otherGiven
      simp only [Machine.move]
      generalize machine.leave here.state given = leaving at leaves ⊢
      generalize machine.leave here.state otherGiven = otherLeaving
        at leaves ⊢
      obtain ⟨left, between⟩ := leaving
      obtain ⟨_, otherBetween⟩ := otherLeaving
      cases leaves
      cases left with
      | error error => exact ⟨rfl, rfl⟩
      | ok left =>
          have enters := oblivious.enter answer.1 between otherBetween
          simp only
          generalize machine.enter answer.1 between = entering at enters ⊢
          generalize machine.enter answer.1 otherBetween = otherEntering
            at enters ⊢
          obtain ⟨entered, after⟩ := entering
          obtain ⟨_, otherAfter⟩ := otherEntering
          cases enters
          cases entered with
          | error error => exact ⟨rfl, rfl⟩
          | ok entered => exact ⟨rfl, rfl⟩

theorem absorb_indistinct (here : Position State)
    {reply other : Except Error Unit × Context} (same : reply.1 = other.1) :
    Indistinct (absorb here reply : Response State Context Action Error)
      (absorb here other) := by
  obtain ⟨answer, given⟩ := reply
  obtain ⟨_, otherGiven⟩ := other
  cases same
  cases answer with
  | error error => exact ⟨rfl, rfl⟩
  | ok value => exact ⟨rfl, rfl⟩

theorem Oblivious.onEvent (oblivious : machine.Oblivious)
    (here : Position State) (event : Event) (context other : Context)
    (armed : Nat) :
    Indistinct (machine.onEvent here event context armed)
      (machine.onEvent here event other armed) := by
  have reacts := oblivious.react here.state event
  simp only [Machine.onEvent]
  cases reaction : machine.react here.state event with
  | move run =>
      rw [reaction] at reacts
      exact oblivious.move armed here (reacts context other)
  | absorb run =>
      rw [reaction] at reacts
      exact absorb_indistinct here (reacts context other)
  | refuse error => exact ⟨rfl, rfl⟩

theorem Oblivious.onPoll (oblivious : machine.Oblivious)
    (here : Position State) (context other : Context)
    (polled armed : Nat) :
    Indistinct (machine.onPoll here context polled armed)
      (machine.onPoll here other polled armed) := by
  have expires := oblivious.expire here.state
  simp only [Machine.onPoll]
  cases here.deadline with
  | none => exact ⟨rfl, rfl⟩
  | some deadline =>
      cases expiry : machine.expire here.state with
      | none => exact ⟨rfl, rfl⟩
      | some run =>
          by_cases reached : deadline ≤ polled
          · simp only [if_pos reached]
            exact oblivious.move armed here (expires run expiry context other)
          · simp only [if_neg reached]
            exact ⟨rfl, rfl⟩

end Machine

end TimedMealy
