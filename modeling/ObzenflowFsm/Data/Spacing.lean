import Mathlib.Data.List.Basic
import Mathlib.Data.Nat.Basic

namespace Spacing

/-! Times that keep a distance from one another. -/

def Spaced (gap : Nat) (times : List Nat) : Prop :=
  times.Pairwise fun earlier later => earlier + gap ≤ later

def within (start length : Nat) (times : List Nat) : List Nat :=
  times.filter fun time => start ≤ time ∧ time ≤ start + length

variable {gap start length : Nat} {times : List Nat}

theorem Spaced.within (spaced : Spaced gap times) :
    Spaced gap (within start length times) :=
  List.Pairwise.filter _ spaced

theorem Spaced.length_le (positive : 0 < gap) (spaced : Spaced gap times)
    (inside : ∀ time ∈ times, start ≤ time ∧ time ≤ start + length) :
    times.length ≤ length / gap + 1 := by
  induction times generalizing start length with
  | nil => exact Nat.zero_le _
  | cons first rest induction =>
      obtain ⟨apart, spacedRest⟩ := List.pairwise_cons.mp spaced
      cases rest with
      | nil => exact Nat.succ_le_succ (Nat.zero_le _)
      | cons second tail =>
          have lower := (inside first List.mem_cons_self).1
          have upper (time : Nat) (member : time ∈ second :: tail) :=
            (inside time (List.mem_cons_of_mem first member)).2
          have wide : gap ≤ length := by
            have after := apart second List.mem_cons_self
            have before := upper second List.mem_cons_self
            omega
          have shorter : (second :: tail).length ≤
              (length - gap) / gap + 1 := by
            apply induction spacedRest
            intro time member
            have after := apart time member
            have before := upper time member
            change start + gap ≤ time ∧ time ≤ start + gap + (length - gap)
            omega
          rw [Nat.div_eq_sub_div positive wide]
          exact Nat.succ_le_succ shorter

/-- In a window there are at most as many as fit into it. -/
theorem Spaced.length_within_le (positive : 0 < gap)
    (spaced : Spaced gap times) (start length : Nat) :
    (Spacing.within start length times).length ≤ length / gap + 1 := by
  have inside : ∀ time ∈ Spacing.within start length times,
      start ≤ time ∧ time ≤ start + length := by
    intro time member
    simpa using (List.mem_filter.mp member).2
  exact spaced.within.length_le positive inside

end Spacing
