import Mathlib.Data.List.Basic

namespace Pipeline

/-! Stages that are run one after the other on one context, until one fails. -/

variable {Stage Context Error : Type}

/-- One run of a stage: the context it was given, the one it left, and the
error it ended with, if any. -/
structure Record (Stage Context Error : Type) where
  stage : Stage
  given : Context
  left : Context
  error : Option Error

/-- Each stage is given the context the one before it left, and none is run
after one that failed. -/
inductive Runs :
    Context → List (Record Stage Context Error) → Option Error → Context → Prop
  | done : Runs context [] none context
  | failed (fails : record.error = some error) :
      Runs record.given [record] (some error) record.left
  | next (succeeds : record.error = none)
      (rest : Runs record.left records outcome final) :
      Runs record.given (record :: records) outcome final

variable {given middle final : Context} {outcome : Option Error}
  {first second records : List (Record Stage Context Error)}

theorem Runs.single (record : Record Stage Context Error) :
    Runs record.given [record] record.error record.left := by
  cases ended : record.error with
  | none => exact .next ended .done
  | some error => exact .failed ended

theorem Runs.append (head : Runs given first none middle)
    (tail : Runs middle second outcome final) :
    Runs given (first ++ second) outcome final := by
  generalize succeeded : (none : Option Error) = ended at head
  induction head with
  | done => exact tail
  | failed fails => cases succeeded
  | next succeeds rest induction =>
      exact .next succeeds (induction tail succeeded)

theorem Runs.outcome_eq_some_iff (runs : Runs given records outcome final)
    (error : Error) :
    outcome = some error ↔
      ∃ last, records.getLast? = some last ∧ last.error = some error := by
  induction runs with
  | done => simp
  | failed fails => simp [fails]
  | next succeeds rest induction =>
      rename_i tail _ _ record
      rw [induction]
      cases tail with
      | nil => simp [succeeds]
      | cons head tail => simp [List.getLast?_cons_cons]

theorem Runs.error_eq_none (runs : Runs given records outcome final) :
    ∀ record ∈ records.dropLast, record.error = none := by
  induction runs with
  | done | failed fails =>
      intro record member
      cases member
  | next succeeds rest induction =>
      rename_i tail _ _ first
      cases tail with
      | nil =>
          intro record member
          cases member
      | cons head tail =>
          rw [List.dropLast_cons_cons]
          exact List.forall_mem_cons.mpr ⟨succeeds, induction⟩

end Pipeline
