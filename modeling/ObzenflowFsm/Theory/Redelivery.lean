import Mathlib.Data.Set.Insert
import ObzenflowFsm.Data.Trajectory

namespace Redelivery

/-! Streams in which events are delivered again, and machines that remember in
their state which events they have processed. -/

variable {State Event Action Id : Type}

/-- The second stream is the first with copies of events put in, each somewhere
after its first occurrence. -/
inductive Redelivers (original : List Event) : List Event → Prop
  | same : Redelivers original original
  | again (redelivers : Redelivers original (before ++ after))
      (member : event ∈ before) :
      Redelivers original (before ++ event :: after)

theorem Redelivers.eq_nil {delivered : List Event}
    (redelivers : Redelivers [] delivered) : delivered = [] := by
  induction redelivers with
  | same => rfl
  | again redelivers member empty =>
      rw [(List.append_eq_nil_iff.mp empty).1] at member
      cases member

/-- In this state a repeated event changes nothing, and a new one is remembered
with those before it. -/
structure Deduplicates (step : State → Event → List Action × State)
    (id : Event → Id) (seen : State → Set Id) (state : State)
    (event : Event) : Prop where
  repeated : id event ∈ seen state → step state event = ([], state)
  fresh : id event ∉ seen state →
    seen (step state event).2 = insert (id event) (seen state)

variable {step : State → Event → List Action × State} {id : Event → Id}
  {seen : State → Set Id}

theorem Deduplicates.seen_eq {state : State} {event : Event}
    (deduplicates : Deduplicates step id seen state event) :
    seen (step state event).2 = insert (id event) (seen state) := by
  by_cases repeated : id event ∈ seen state
  · rw [deduplicates.repeated repeated, Set.insert_eq_of_mem repeated]
  · exact deduplicates.fresh repeated

/-- What has been processed stays remembered. -/
theorem seen_final {start : State} {events : List Event}
    (deduplicates : ∀ state ∈ Trajectory.states step start events,
      ∀ event ∈ events, Deduplicates step id seen state event) :
    seen start ⊆ seen (Trajectory.final step start events) ∧
      ∀ event ∈ events,
        id event ∈ seen (Trajectory.final step start events) := by
  induction events generalizing start with
  | nil => exact ⟨Set.Subset.refl _, by simp⟩
  | cons first rest induction =>
      have processed := (deduplicates start List.mem_cons_self first
        List.mem_cons_self).seen_eq
      obtain ⟨grows, remembered⟩ := induction fun state member event later =>
        deduplicates state (List.mem_cons_of_mem start member) event
          (List.mem_cons_of_mem first later)
      rw [processed] at grows
      refine ⟨(Set.subset_insert _ _).trans grows, ?_⟩
      intro event member
      rcases List.mem_cons.mp member with rfl | member
      · exact grows (Set.mem_insert _ _)
      · exact remembered event member

/-- The second stream ends as the first one does and has the same effects, and
on the way meets no other states and no other events. -/
structure Absorbs (step : State → Event → List Action × State) (start : State)
    (original delivered : List Event) : Prop where
  final_eq : Trajectory.final step start delivered =
    Trajectory.final step start original
  actions_eq : (Trajectory.outputs step start delivered).flatten =
    (Trajectory.outputs step start original).flatten
  states : ∀ state ∈ Trajectory.states step start delivered,
    state ∈ Trajectory.states step start original
  events : ∀ event ∈ delivered, event ∈ original

theorem Redelivers.absorbs {start : State} {original delivered : List Event}
    (redelivers : Redelivers original delivered)
    (deduplicates : ∀ state ∈ Trajectory.states step start original,
      ∀ event ∈ original, Deduplicates step id seen state event) :
    Absorbs step start original delivered := by
  induction redelivers with
  | same => exact ⟨rfl, rfl, fun _ member => member, fun _ member => member⟩
  | again redelivers member absorbs =>
      rename_i before after event
      have met (state : State)
          (visited : state ∈ Trajectory.states step start before) :
          state ∈ Trajectory.states step start original :=
        absorbs.states state (Trajectory.mem_states_append.mpr (.inl visited))
      have given (other : Event) (earlier : other ∈ before) :
          other ∈ original :=
        absorbs.events other (List.mem_append_left _ earlier)
      have middle : Trajectory.final step start before ∈
          Trajectory.states step start before :=
        Trajectory.final_mem_states start before
      have known : ∀ state ∈ Trajectory.states step start before,
          ∀ other ∈ before, Deduplicates step id seen state other :=
        fun state visited other earlier =>
          deduplicates state (met state visited) other (given other earlier)
      have remembered := (seen_final known).2 event member
      have kept := (deduplicates _ (met _ middle) event
        (given event member)).repeated remembered
      refine ⟨?_, ?_, ?_, ?_⟩
      · rw [← absorbs.final_eq, Trajectory.final_append,
          Trajectory.final_append, Trajectory.final_cons, kept]
      · rw [← absorbs.actions_eq, Trajectory.outputs_append,
          Trajectory.outputs_append, Trajectory.outputs_cons, kept]
        simp
      · intro state visited
        rcases Trajectory.mem_states_append.mp visited with visited | visited
        · exact met state visited
        · rcases List.mem_cons.mp visited with rfl | visited
          · exact met _ middle
          · rw [kept] at visited
            exact absorbs.states state
              (Trajectory.mem_states_append.mpr (.inr visited))
      · intro other visited
        rcases List.mem_append.mp visited with earlier | later
        · exact given other earlier
        · rcases List.mem_cons.mp later with rfl | later
          · exact given _ member
          · exact absorbs.events other (List.mem_append_right _ later)

end Redelivery
