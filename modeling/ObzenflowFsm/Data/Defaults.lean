import Mathlib.Data.List.Nodup
import ObzenflowFsm.Data.Registry

namespace Registry

/-! Logs in which the registration under one key is the default for others,
and such logs with their defaults written out. -/

variable {Key Value : Type}

/-- Which keys are defaults, and the keys that each of them covers. -/
structure Defaults (Key : Type) where
  isDefault : Key → Bool
  covers : Key → List Key
  nodup : ∀ key, (covers key).Nodup
  isDefault_of_covers : ∀ key, ∀ covered ∈ covers key,
    isDefault key = true ∧ isDefault covered = false
  unique : ∀ first second covered, covered ∈ covers first →
    covered ∈ covers second → first = second

namespace Defaults

section WrittenOut

variable [DecidableEq Key] (defaults : Defaults Key)

/-- The proper registrations, then those of the defaults, under every key that
is covered and has no registration of its own. -/
def writtenOut (log : List (Key × Value)) : List (Key × Value) :=
  (log.filter fun entry => !defaults.isDefault entry.1) ++
    log.flatMap fun entry =>
      ((defaults.covers entry.1).filter (· ∉ log.map Prod.fst)).map
        fun key => (key, entry.2)

theorem mem_writtenOut {log : List (Key × Value)} {key : Key}
    {value : Value} :
    (key, value) ∈ defaults.writtenOut log ↔
      ((key, value) ∈ log ∧ defaults.isDefault key = false) ∨
        (key ∉ log.map Prod.fst ∧
          ∃ default, (default, value) ∈ log ∧
            key ∈ defaults.covers default) := by
  simp only [writtenOut, List.mem_append, List.mem_filter, List.mem_flatMap,
    List.mem_map, Bool.not_eq_true', decide_eq_true_iff]
  refine or_congr Iff.rfl ?_
  constructor
  · rintro ⟨⟨default, held⟩, member, covered, ⟨covers, absent⟩, same⟩
    cases same
    exact ⟨absent, default, member, covers⟩
  · rintro ⟨absent, default, member, covers⟩
    exact ⟨(default, value), member, key, ⟨covers, absent⟩, rfl⟩

/-- Writing out the defaults registers no key twice. -/
theorem nodup_writtenOut {log : List (Key × Value)}
    (distinct : (log.map Prod.fst).Nodup) :
    ((defaults.writtenOut log).map Prod.fst).Nodup := by
  rw [writtenOut, List.map_append, List.map_flatMap, List.nodup_append]
  refine ⟨?_, ?_, ?_⟩
  · exact distinct.sublist (List.filter_sublist.map Prod.fst)
  · rw [List.nodup_flatMap]
    constructor
    · intro entry _
      rw [List.map_map]
      exact List.Nodup.map (fun _ _ same => same)
        ((defaults.nodup entry.1).filter _)
    · have apart : log.Pairwise fun first second => first.1 ≠ second.1 :=
        List.pairwise_map.mp distinct
      refine apart.imp ?_
      intro first second different key inFirst inSecond
      simp only [List.map_map, List.mem_map, List.mem_filter,
        Function.comp_apply, exists_eq_right] at inFirst inSecond
      exact different
        (defaults.unique first.1 second.1 key inFirst.1 inSecond.1)
  · intro own ownMember written writtenMember same
    subst same
    obtain ⟨entry, entryMember, rfl⟩ := List.mem_map.mp ownMember
    obtain ⟨source, _, sourceMember⟩ := List.mem_flatMap.mp writtenMember
    simp only [List.map_map, List.mem_map, List.mem_filter,
      Function.comp_apply, exists_eq_right, decide_eq_true_iff]
      at sourceMember
    exact sourceMember.2 ⟨entry, (List.mem_filter.mp entryMember).1, rfl⟩

/-- A covered key has its own registration, else that of its default. -/
theorem latest_writtenOut {log : List (Key × Value)}
    (distinct : (log.map Prod.fst).Nodup) {default key : Key}
    (covers : key ∈ defaults.covers default) :
    latest (defaults.writtenOut log) key =
      (latest log key).or (latest log default) := by
  apply Option.ext
  intro value
  have proper := (defaults.isDefault_of_covers default key covers).2
  rw [latest_eq_some_iff (defaults.nodup_writtenOut distinct),
    defaults.mem_writtenOut]
  cases found : latest log key with
  | some own =>
      have member := mem_of_latest found
      have present : key ∈ log.map Prod.fst := List.mem_map_of_mem member
      rw [Option.some_or, ← found, latest_eq_some_iff distinct]
      simp only [proper, present, and_true, not_true_eq_false, false_and,
        or_false]
  | none =>
      have absent := latest_eq_none_iff.mp found
      rw [Option.none_or, latest_eq_some_iff distinct]
      constructor
      · rintro (⟨member, _⟩ | ⟨_, other, member, otherCovers⟩)
        · exact absurd (List.mem_map_of_mem (f := Prod.fst) member) absent
        · rwa [← defaults.unique other default key otherCovers covers]
      · intro member
        exact .inr ⟨absent, default, member, covers⟩

end WrittenOut

end Defaults

end Registry
