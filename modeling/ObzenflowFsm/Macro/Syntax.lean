import Mathlib.Data.List.Basic

namespace ObzenflowFsm

/-! The tokens the macros are given, and what `fsm!` parses them into. -/

/-- An identifier: its name, and whether it is written with the `r#` prefix. -/
structure Ident where
  name : String
  raw : Bool
  clean : '#' ∉ name.toList ∧ name ≠ "_" := by decide
  deriving DecidableEq

/-- `Ident::to_string`, and what `stringify!` makes of an identifier. -/
def Ident.toString (ident : Ident) : String :=
  if ident.raw then "r#" ++ ident.name else ident.name

theorem Ident.hash_mem_toString_iff (ident : Ident) :
    '#' ∈ ident.toString.toList ↔ ident.raw = true := by
  unfold Ident.toString
  cases ident.raw with
  | true => simp
  | false => simpa using ident.clean.1

theorem Ident.toString_injective : Function.Injective Ident.toString := by
  intro first second same
  have raw : first.raw = second.raw := by
    rw [Bool.eq_iff_iff, ← first.hash_mem_toString_iff, same,
      second.hash_mem_toString_iff]
  obtain ⟨firstName, firstRaw, firstClean⟩ := first
  obtain ⟨secondName, secondRaw, secondClean⟩ := second
  cases raw
  cases firstRaw with
  | true =>
      have names : firstName = secondName := by
        simpa [Ident.toString] using same
      subst names
      rfl
  | false =>
      have names : firstName = secondName := same
      subst names
      rfl

theorem Ident.toString_ne_wildcard (ident : Ident) : ident.toString ≠ "_" := by
  intro wildcard
  have plain : ident.raw = false := by
    rw [← Bool.not_eq_true, ← ident.hash_mem_toString_iff, wildcard]
    decide
  rw [Ident.toString, plain] at wildcard
  exact ident.clean.2 wildcard

inductive Delimiter where
  | parenthesis
  | brace
  | bracket

inductive Token where
  | ident (ident : Ident)
  | underscore
  | punct (char : Char) (joint : Bool)
  | literal (text : String)
  | group (delimiter : Delimiter) (stream : List Token)

/-- A path: its segments, the last one apart, and the tokens each is written
with besides: attributes, a qualified self type, generic arguments. A qualified
self type counts as leading segments. -/
structure ExprPath where
  leadingColon : Bool
  init : List Ident
  last : Ident
  besides : List (List Token) := []

/-- The name a path is dispatched under: the text of its last segment. -/
def ExprPath.dispatchName (path : ExprPath) : String :=
  path.last.toString

structure OnHandler (Ex : Type) where
  eventPath : ExprPath
  handler : Ex

structure TimeoutSpec (Ex : Type) where
  duration : Ex
  handler : Ex

structure StateBlock (Ex : Type) where
  statePath : ExprPath
  handlers : List (OnHandler Ex)
  timeout : Option (TimeoutSpec Ex)
  entry : Option Ex
  exit : Option Ex

structure FsmSpec (Ty Ex : Type) where
  stateTy : Ty
  eventTy : Ty
  contextTy : Ty
  actionTy : Ty
  initialExpr : Ex
  states : List (StateBlock Ex)
  unhandled : Option Ex

end ObzenflowFsm
