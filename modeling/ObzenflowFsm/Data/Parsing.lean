import Mathlib.Data.List.Basic

namespace Parsing

/-! Parsers that take tokens off the front of a stream, loops that run one until
the stream is empty, and the grammar of what such a loop accepts. -/

variable {Token Error Value Result Acc Item : Type}

abbrev Parser (Token Error Value : Type) : Type :=
  StateT (List Token) (Except Error) Value

def fail (error : Error) : Parser Token Error Value :=
  fun _ => .error error

theorem run_bind_ok_iff {parser : Parser Token Error Value}
    {next : Value → Parser Token Error Result} {tokens rest : List Token}
    {result : Result} :
    (parser >>= next) tokens = .ok (result, rest) ↔
      ∃ value middle, parser tokens = .ok (value, middle) ∧
        next value middle = .ok (result, rest) := by
  change (parser tokens >>= fun answer => next answer.1 answer.2) = _ ↔ _
  cases parser tokens with
  | error error =>
      constructor
      · intro failed
        cases failed
      · intro found
        obtain ⟨_, _, answered, _⟩ := found
        cases answered
  | ok answer =>
      constructor
      · intro continued
        exact ⟨answer.1, answer.2, rfl, continued⟩
      · intro found
        obtain ⟨value, middle, answered, continued⟩ := found
        cases answered
        exact continued

theorem run_pure_ok_iff {value result : Value} {tokens rest : List Token} :
    (pure value : Parser Token Error Value) tokens = .ok (result, rest) ↔
      value = result ∧ tokens = rest := by
  change Except.ok (value, tokens) = .ok (result, rest) ↔ _
  rw [Except.ok.injEq, Prod.mk.injEq]

def Shortens (parser : Parser Token Error Value) : Prop :=
  ∀ tokens value rest, parser tokens = .ok (value, rest) →
    rest.length ≤ tokens.length

def Consumes (parser : Parser Token Error Value) : Prop :=
  ∀ tokens value rest, parser tokens = .ok (value, rest) →
    rest.length < tokens.length

/-! ### Loops -/

def rounds (stuck : Error) (body : Acc → Parser Token Error Acc) :
    Nat → Acc → Parser Token Error Acc
  | _, acc, [] => .ok (acc, [])
  | 0, _, _ :: _ => .error stuck
  | fuel + 1, acc, tokens =>
      (body acc >>= fun next => rounds stuck body fuel next) tokens

/-- Run the body until no token is left. A body that consumes is never stuck. -/
def whileNonempty (stuck : Error) (body : Acc → Parser Token Error Acc)
    (acc : Acc) : Parser Token Error Acc :=
  fun tokens => rounds stuck body tokens.length acc tokens

section Loops

variable {stuck : Error} {body : Acc → Parser Token Error Acc}
  (consumes : ∀ acc, Consumes (body acc))

include consumes in
theorem rounds_eq_of_le :
    ∀ (first second : Nat) (acc : Acc) (tokens : List Token),
      tokens.length ≤ first → tokens.length ≤ second →
        rounds stuck body first acc tokens =
          rounds stuck body second acc tokens := by
  intro first
  induction first with
  | zero =>
      intro second acc tokens enough _
      rw [List.length_eq_zero_iff.mp (Nat.le_zero.mp enough)]
      cases second with
      | zero => rfl
      | succ second => rfl
  | succ first induction =>
      intro second acc tokens enoughFirst enoughSecond
      cases tokens with
      | nil =>
          cases second with
          | zero => rfl
          | succ second => rfl
      | cons token tail =>
          cases second with
          | zero => cases enoughSecond
          | succ second =>
              change (body acc (token :: tail) >>= fun answer =>
                  rounds stuck body first answer.1 answer.2) =
                (body acc (token :: tail) >>= fun answer =>
                  rounds stuck body second answer.1 answer.2)
              cases parsed : body acc (token :: tail) with
              | error error => rfl
              | ok answer =>
                  have shorter := consumes acc _ answer.1 answer.2 parsed
                  exact induction second answer.1 answer.2
                    (by simp only [List.length_cons] at *; omega)
                    (by simp only [List.length_cons] at *; omega)

theorem whileNonempty_nil (acc : Acc) :
    whileNonempty stuck body acc [] = .ok (acc, []) := rfl

include consumes in
/-- The loop is its own unfolding: the bound on its rounds never shows. -/
theorem whileNonempty_cons (acc : Acc) (token : Token) (tail : List Token) :
    whileNonempty stuck body acc (token :: tail) =
      (body acc >>= fun next => whileNonempty stuck body next)
        (token :: tail) := by
  change (body acc (token :: tail) >>= fun answer =>
      rounds stuck body tail.length answer.1 answer.2) =
    (body acc (token :: tail) >>= fun answer =>
      rounds stuck body answer.2.length answer.1 answer.2)
  cases parsed : body acc (token :: tail) with
  | error error => rfl
  | ok answer =>
      have shorter := consumes acc _ answer.1 answer.2 parsed
      exact rounds_eq_of_le consumes _ _ _ _
        (Nat.lt_succ_iff.mp shorter) (Nat.le_refl _)

end Loops

/-! ### Loops that end -/

/-- The parser never fails in this way. -/
def Avoids (stuck : Error) (parser : Parser Token Error Value) : Prop :=
  ∀ tokens, parser tokens ≠ .error stuck

section Avoiding

variable {stuck : Error}

theorem Avoids.bind {parser : Parser Token Error Value}
    {next : Value → Parser Token Error Result}
    (first : Avoids stuck parser) (later : ∀ value, Avoids stuck (next value)) :
    Avoids stuck (parser >>= next) := by
  intro tokens failed
  change (parser tokens >>= fun answer => next answer.1 answer.2) = _
    at failed
  cases parsed : parser tokens with
  | error error =>
      rw [parsed] at failed
      cases failed
      exact first tokens parsed
  | ok answer =>
      rw [parsed] at failed
      exact later answer.1 answer.2 failed

theorem avoids_pure (value : Value) :
    Avoids stuck (pure value : Parser Token Error Value) := by
  intro tokens failed
  cases failed

theorem avoids_fail {error : Error} (other : error ≠ stuck) :
    Avoids stuck (fail error : Parser Token Error Value) := by
  intro tokens failed
  cases failed
  exact other rfl

theorem Avoids.ite {condition : Prop} [Decidable condition]
    {first second : Parser Token Error Value} (holds : Avoids stuck first)
    (fails : Avoids stuck second) :
    Avoids stuck (if condition then first else second) := by
  split
  · exact holds
  · exact fails

/-- A loop ends when every round takes a token at least. -/
theorem avoids_whileNonempty {body : Acc → Parser Token Error Acc}
    (consumes : ∀ acc, Consumes (body acc))
    (avoids : ∀ acc, Avoids stuck (body acc)) (acc : Acc) :
    Avoids stuck (whileNonempty stuck body acc) := by
  intro tokens
  induction size : tokens.length using Nat.strongRecOn
    generalizing tokens acc with
  | ind size induction =>
      cases tokens with
      | nil =>
          intro failed
          cases failed
      | cons token tail =>
          rw [whileNonempty_cons consumes]
          intro failed
          change (body acc (token :: tail) >>= fun answer =>
            whileNonempty stuck body answer.1 answer.2) = _ at failed
          cases parsed : body acc (token :: tail) with
          | error error =>
              rw [parsed] at failed
              cases failed
              exact avoids acc _ parsed
          | ok answer =>
              rw [parsed] at failed
              have shorter := consumes acc _ answer.1 answer.2 parsed
              exact induction answer.2.length (size ▸ shorter) answer.1
                answer.2 rfl failed

end Avoiding

/-! ### What a loop accepts -/

inductive Sequence (reads : List Token → Item → List Token → Prop) :
    List Token → List Item → Prop
  | nil : Sequence reads [] []
  | cons (head : reads tokens item rest) (tail : Sequence reads rest items) :
      Sequence reads tokens (item :: items)

/-- Items that are read off their printed form are read off all of them. -/
theorem Sequence.of_flatMap {reads : List Token → Item → List Token → Prop}
    {print : Item → List Token} {items : List Item}
    (printed : ∀ item ∈ items, ∀ rest, reads (print item ++ rest) item rest) :
    Sequence reads (items.flatMap print) items := by
  induction items with
  | nil => exact .nil
  | cons item rest induction =>
      exact .cons (printed item List.mem_cons_self _)
        (induction fun other member =>
          printed other (List.mem_cons_of_mem item member))

/-- Tokens are read as one sequence at most if they are as one item. -/
theorem Sequence.unique {reads : List Token → Item → List Token → Prop}
    {tokens : List Token} {first second : List Item}
    (firstSequence : Sequence reads tokens first)
    (secondSequence : Sequence reads tokens second)
    (functional : ∀ tokens item rest other left, reads tokens item rest →
      reads tokens other left → item = other ∧ rest = left)
    (consumes : ∀ tokens item rest, reads tokens item rest →
      rest.length < tokens.length) : first = second := by
  induction firstSequence generalizing second with
  | nil =>
      cases secondSequence with
      | nil => rfl
      | cons head tail => cases consumes _ _ _ head
  | cons head tail induction =>
      cases secondSequence with
      | nil => cases consumes _ _ _ head
      | cons otherHead otherTail =>
          obtain ⟨rfl, rfl⟩ := functional _ _ _ _ _ head otherHead
          rw [induction otherTail]

section Accepted

variable {stuck : Error} {body : Acc → Parser Token Error Acc}
  {reads : List Token → Item → List Token → Prop}
  {add : Acc → Item → Option Acc}
  (factors : ∀ acc tokens next rest,
    body acc tokens = .ok (next, rest) ↔
      ∃ item, reads tokens item rest ∧ add acc item = some next)
  (consumes : ∀ tokens item rest, reads tokens item rest →
    rest.length < tokens.length)

include factors consumes in
theorem consumes_of_reads (acc : Acc) : Consumes (body acc) := by
  intro tokens next rest parsed
  obtain ⟨item, read, _⟩ := (factors acc tokens next rest).mp parsed
  exact consumes tokens item rest read

include consumes in
theorem Sequence.eq_nil {items : List Item}
    (sequence : Sequence reads [] items) : items = [] := by
  cases sequence with
  | nil => rfl
  | cons head tail => cases consumes _ _ _ head

include factors consumes in
/-- A loop whose body reads one item and adds it to what it has accepts exactly
the sequences of items that can be added one after the other. -/
theorem whileNonempty_ok_iff (acc : Acc) (tokens : List Token) (final : Acc)
    (left : List Token) :
    whileNonempty stuck body acc tokens = .ok (final, left) ↔
      left = [] ∧ ∃ items, Sequence reads tokens items ∧
        items.foldlM add acc = some final := by
  induction size : tokens.length using Nat.strongRecOn
    generalizing tokens acc with
  | ind size induction =>
      cases tokens with
      | nil =>
          rw [whileNonempty_nil]
          constructor
          · intro ended
            cases ended
            exact ⟨rfl, [], .nil, rfl⟩
          · intro accepted
            obtain ⟨rfl, items, sequence, added⟩ := accepted
            rw [sequence.eq_nil consumes] at added
            cases added
            rfl
      | cons token tail =>
          rw [whileNonempty_cons (consumes_of_reads factors consumes),
            run_bind_ok_iff]
          constructor
          · intro continued
            obtain ⟨next, rest, first, remaining⟩ := continued
            obtain ⟨item, read, added⟩ := (factors acc _ next rest).mp first
            have shorter := consumes _ item rest read
            obtain ⟨ended, items, sequence, addedRest⟩ :=
              (induction rest.length (size ▸ shorter) next rest rfl).mp
                remaining
            refine ⟨ended, item :: items, .cons read sequence, ?_⟩
            rw [List.foldlM_cons, added]
            exact addedRest
          · intro accepted
            obtain ⟨ended, items, sequence, added⟩ := accepted
            cases sequence with
            | cons read rest =>
                rename_i item remainder others
                have shorter := consumes _ item remainder read
                rw [List.foldlM_cons] at added
                obtain ⟨next, addedItem, addedRest⟩ :=
                  Option.bind_eq_some_iff.mp added
                exact ⟨next, remainder,
                  (factors acc _ next remainder).mpr ⟨item, read, addedItem⟩,
                  (induction remainder.length (size ▸ shorter) next remainder
                    rfl).mpr ⟨ended, others, rest, addedRest⟩⟩

end Accepted

/-! ### What a loop refuses -/

theorem run_bind_error_iff {parser : Parser Token Error Value}
    {next : Value → Parser Token Error Result} {tokens : List Token}
    {error : Error} :
    (parser >>= next) tokens = .error error ↔
      parser tokens = .error error ∨
        ∃ value middle, parser tokens = .ok (value, middle) ∧
          next value middle = .error error := by
  change (parser tokens >>= fun answer => next answer.1 answer.2) = _ ↔ _
  cases parser tokens with
  | error failure =>
      constructor
      · intro failed
        cases failed
        exact .inl rfl
      · intro found
        rcases found with failed | ⟨_, _, answered, _⟩
        · cases failed
          rfl
        · cases answered
  | ok answer =>
      constructor
      · intro failed
        exact .inr ⟨answer.1, answer.2, rfl, failed⟩
      · intro found
        rcases found with failed | ⟨value, middle, answered, failed⟩
        · cases failed
        · cases answered
          exact failed

/-- The items that are read, and the tokens that are left after them. -/
inductive Reading (reads : List Token → Item → List Token → Prop) :
    List Token → List Item → List Token → Prop
  | done : Reading reads rest [] rest
  | next (head : reads tokens item middle)
      (tail : Reading reads middle items rest) :
      Reading reads tokens (item :: items) rest

section Refused

variable {stuck : Error} {body : Acc → Parser Token Error Acc}
  {reads : List Token → Item → List Token → Prop}
  {add : Acc → Item → Option Acc}
  (factors : ∀ acc tokens next rest,
    body acc tokens = .ok (next, rest) ↔
      ∃ item, reads tokens item rest ∧ add acc item = some next)
  (consumes : ∀ tokens item rest, reads tokens item rest →
    rest.length < tokens.length)

include factors consumes in
/-- A loop fails exactly where its body does, after items that are read and
added. -/
theorem whileNonempty_error_iff (acc : Acc) (tokens : List Token)
    (error : Error) :
    whileNonempty stuck body acc tokens = .error error ↔
      ∃ items reached token rest,
        Reading reads tokens items (token :: rest) ∧
          items.foldlM add acc = some reached ∧
          body reached (token :: rest) = .error error := by
  induction size : tokens.length using Nat.strongRecOn
    generalizing tokens acc with
  | ind size induction =>
      cases tokens with
      | nil =>
          constructor
          · intro failed
            cases failed
          · intro found
            obtain ⟨items, _, _, _, reading, _⟩ := found
            cases reading with
            | next head tail => cases consumes _ _ _ head
      | cons token tail =>
          rw [whileNonempty_cons (consumes_of_reads factors consumes),
            run_bind_error_iff]
          constructor
          · intro failed
            rcases failed with here | ⟨next, rest, first, later⟩
            · exact ⟨[], acc, token, tail, .done, rfl, here⟩
            · obtain ⟨item, read, added⟩ := (factors acc _ next rest).mp first
              have shorter := consumes _ item rest read
              obtain ⟨items, reached, other, left, reading, addedRest, there⟩ :=
                (induction rest.length (size ▸ shorter) next rest rfl).mp later
              refine ⟨item :: items, reached, other, left, .next read reading,
                ?_, there⟩
              rw [List.foldlM_cons, added]
              exact addedRest
          · intro found
            obtain ⟨items, reached, other, left, reading, added, there⟩ := found
            cases reading with
            | done =>
                cases added
                exact .inl there
            | next head reading =>
                rename_i item middle others
                have shorter := consumes _ item middle head
                rw [List.foldlM_cons] at added
                obtain ⟨next, addedItem, addedRest⟩ :=
                  Option.bind_eq_some_iff.mp added
                exact .inr ⟨next, middle,
                  (factors acc _ next middle).mpr ⟨item, head, addedItem⟩,
                  (induction middle.length (size ▸ shorter) next middle
                    rfl).mpr
                    ⟨others, reached, other, left, reading, addedRest, there⟩⟩

end Refused

end Parsing
