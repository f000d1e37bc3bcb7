import ObzenflowFsm.Macro.Parse

namespace ObzenflowFsm

open Parsing

variable {Ty Ex : Type}

/-! The clauses written in a table, whether or not they repeat one another, and
the tables that `FsmSpec::parse` accepts. -/

inductive Clause (Ex : Type) where
  | on (handler : OnHandler Ex)
  | timeout (timeout : TimeoutSpec Ex)
  | entry (handler : Ex)
  | exit (handler : Ex)

inductive Item (Ex : Type) where
  | state (path : ExprPath) (clauses : List (Clause Ex))
  | unhandled (handler : Ex)

inductive Clause.Reads (syn : Syn Ty Ex) :
    List Token → Clause Ex → List Token → Prop
  | on (named : word.toString = "on")
      (event : syn.path tokens = .ok (eventPath,
        .punct '=' true :: .punct '>' arrow :: afterArrow))
      (handled : syn.expr afterArrow = .ok (handler, .punct ';' stop :: rest)) :
      Reads syn (.ident word :: tokens) (.on ⟨eventPath, handler⟩) rest
  | timeout (named : word.toString = "timeout")
      (lasts : syn.expr tokens = .ok (duration,
        .punct '=' true :: .punct '>' arrow :: afterArrow))
      (handled : syn.expr afterArrow = .ok (handler, .punct ';' stop :: rest)) :
      Reads syn (.ident word :: tokens) (.timeout ⟨duration, handler⟩) rest
  | entry (named : word.toString = "on_entry")
      (handled : syn.expr tokens = .ok (handler, .punct ';' stop :: rest)) :
      Reads syn (.ident word :: tokens) (.entry handler) rest
  | exit (named : word.toString = "on_exit")
      (handled : syn.expr tokens = .ok (handler, .punct ';' stop :: rest)) :
      Reads syn (.ident word :: tokens) (.exit handler) rest

inductive Item.Reads (syn : Syn Ty Ex) :
    List Token → Item Ex → List Token → Prop
  | state (named : word.toString = "state")
      (state : syn.path tokens = .ok (path, .group .brace content :: rest))
      (clauses : Sequence (Clause.Reads syn) content written) :
      Reads syn (.ident word :: tokens) (.state path written) rest
  | unhandled (named : word.toString = "unhandled")
      (handled : syn.expr tokens = .ok (handler, .punct ';' stop :: rest)) :
      Reads syn (.ident word :: .punct '=' true :: .punct '>' arrow :: tokens)
        (.unhandled handler) rest

/-- A second timeout, entry or exit clause is refused. -/
def BlockClauses.add (clauses : BlockClauses Ex) :
    Clause Ex → Option (BlockClauses Ex)
  | .on handler =>
      some { clauses with handlers := clauses.handlers ++ [handler] }
  | .timeout timeout =>
      if clauses.timeout.isSome then none
      else some { clauses with timeout := some timeout }
  | .entry handler =>
      if clauses.entry.isSome then none
      else some { clauses with entry := some handler }
  | .exit handler =>
      if clauses.exit.isSome then none
      else some { clauses with exit := some handler }

/-- The clauses a block is left with, in an order of their own. -/
def BlockClauses.written (clauses : BlockClauses Ex) : List (Clause Ex) :=
  clauses.handlers.map .on ++ clauses.timeout.toList.map .timeout ++
    clauses.entry.toList.map .entry ++ clauses.exit.toList.map .exit

theorem BlockClauses.written_add {clauses next : BlockClauses Ex}
    {clause : Clause Ex} (added : clauses.add clause = some next) :
    next.written.Perm (clause :: clauses.written) := by
  obtain ⟨handlers, timeout, entry, exit⟩ := clauses
  cases clause with
  | on handler =>
      cases added
      simp [written]
  | timeout held =>
      cases timeout with
      | some other => cases added
      | none =>
          cases added
          simp [written]
  | entry held =>
      cases entry with
      | some other => cases added
      | none =>
          cases added
          simpa [written] using
            (List.perm_middle.append_left _).trans List.perm_middle
  | exit held =>
      cases exit with
      | some other => cases added
      | none =>
          cases added
          have moved := List.perm_append_singleton (Clause.exit held)
            (handlers.map Clause.on ++ (timeout.toList.map Clause.timeout ++
              entry.toList.map Clause.entry))
          simpa [written] using moved

def BlockClauses.ofWritten (written : List (Clause Ex)) :
    Option (BlockClauses Ex) :=
  written.foldlM BlockClauses.add {}

def TableBody.add (body : TableBody Ex) : Item Ex → Option (TableBody Ex)
  | .state path written =>
      (BlockClauses.ofWritten written).map fun clauses =>
        { body with states := body.states ++ [clauses.block path] }
  | .unhandled handler =>
      if body.unhandled.isSome then none
      else some { body with unhandled := some handler }

/-! ### One lemma for each token the parser takes -/

section Tokens

variable {tokens rest : List Token}

theorem ident_ok_iff {word : Ident} :
    ident tokens = .ok (word, rest) ↔
      tokens = .ident word :: rest ∧ word.toString ∉ rustKeywords := by
  unfold ident
  split
  · rename_i found tail
    split
    · rename_i keyword
      constructor
      · intro failed
        cases failed
      · intro accepted
        cases accepted.1
        exact absurd keyword accepted.2
    · rename_i allowed
      constructor
      · intro accepted
        cases accepted
        exact ⟨rfl, allowed⟩
      · intro accepted
        cases accepted.1
        rfl
  · rename_i other
    constructor
    · intro failed
      cases failed
    · intro accepted
      exact absurd accepted.1 (other word rest)

theorem punct_ok_iff {char : Char} {text : String} {taken : Unit} :
    punct char text tokens = .ok (taken, rest) ↔
      ∃ joint, tokens = .punct char joint :: rest := by
  unfold punct
  split
  · rename_i found spacing tail
    by_cases same : found = char
    · subst same
      simp
    · simp [same]
  · rename_i other
    constructor
    · intro failed
      cases failed
    · intro accepted
      obtain ⟨joint, rfl⟩ := accepted
      exact absurd rfl (other char joint rest)

theorem fatArrow_ok_iff {taken : Unit} :
    fatArrow tokens = .ok (taken, rest) ↔
      ∃ joint, tokens = .punct '=' true :: .punct '>' joint :: rest := by
  unfold fatArrow
  split
  · simp
  · rename_i other
    constructor
    · intro failed
      cases failed
    · intro accepted
      obtain ⟨joint, rfl⟩ := accepted
      exact absurd rfl (other joint rest)

theorem braced_ok_iff {content : List Token} :
    braced tokens = .ok (content, rest) ↔
      tokens = .group .brace content :: rest := by
  unfold braced
  split
  · simp
  · rename_i other
    constructor
    · intro failed
      cases failed
    · intro accepted
      exact absurd accepted (other content rest)

theorem within_ok_iff {Value : Type} {content : List Token}
    {parser : TokenParser Value} {value : Value} :
    within content parser tokens = .ok (value, rest) ↔
      tokens = rest ∧ ∃ left, parser content = .ok (value, left) := by
  unfold within
  cases parser content with
  | error error => simp [Except.map]
  | ok answer =>
      simp only [Except.map, Except.ok.injEq, Prod.mk.injEq]
      constructor
      · intro same
        exact ⟨same.2, answer.2, Prod.ext same.1 rfl⟩
      · intro found
        obtain ⟨same, left, rfl⟩ := found
        exact ⟨rfl, same⟩

end Tokens

/-! ### One lemma for each kind of clause -/

section Clauses

variable {syn : Syn Ty Ex} {tokens rest : List Token}

theorem onHandler_ok_iff {handler : OnHandler Ex} :
    onHandler syn tokens = .ok (handler, rest) ↔
      ∃ arrow afterArrow stop,
        syn.path tokens = .ok (handler.eventPath,
            .punct '=' true :: .punct '>' arrow :: afterArrow) ∧
          syn.expr afterArrow =
            .ok (handler.handler, .punct ';' stop :: rest) := by
  simp only [onHandler, semicolon, run_bind_ok_iff, fatArrow_ok_iff,
    punct_ok_iff, run_pure_ok_iff]
  constructor
  · intro parsed
    obtain ⟨eventPath, _, event, _, afterArrow, ⟨arrow, rfl⟩, expr, _, handled,
      _, _, ⟨stop, rfl⟩, rfl, rfl⟩ := parsed
    exact ⟨arrow, afterArrow, stop, event, handled⟩
  · intro parsed
    obtain ⟨arrow, afterArrow, stop, event, handled⟩ := parsed
    exact ⟨_, _, event, (), _, ⟨arrow, rfl⟩, _, _, handled, (), _, ⟨stop, rfl⟩,
      rfl, rfl⟩

theorem timeoutSpec_ok_iff {timeout : TimeoutSpec Ex} :
    timeoutSpec syn tokens = .ok (timeout, rest) ↔
      ∃ arrow afterArrow stop,
        syn.expr tokens = .ok (timeout.duration,
            .punct '=' true :: .punct '>' arrow :: afterArrow) ∧
          syn.expr afterArrow =
            .ok (timeout.handler, .punct ';' stop :: rest) := by
  simp only [timeoutSpec, semicolon, run_bind_ok_iff, fatArrow_ok_iff,
    punct_ok_iff, run_pure_ok_iff]
  constructor
  · intro parsed
    obtain ⟨duration, _, lasts, _, afterArrow, ⟨arrow, rfl⟩, expr, _, handled,
      _, _, ⟨stop, rfl⟩, rfl, rfl⟩ := parsed
    exact ⟨arrow, afterArrow, stop, lasts, handled⟩
  · intro parsed
    obtain ⟨arrow, afterArrow, stop, lasts, handled⟩ := parsed
    exact ⟨_, _, lasts, (), _, ⟨arrow, rfl⟩, _, _, handled, (), _, ⟨stop, rfl⟩,
      rfl, rfl⟩

theorem hookHandler_ok_iff {handler : Ex} :
    hookHandler syn tokens = .ok (handler, rest) ↔
      ∃ stop, syn.expr tokens = .ok (handler, .punct ';' stop :: rest) := by
  simp only [hookHandler, semicolon, run_bind_ok_iff, punct_ok_iff,
    run_pure_ok_iff]
  constructor
  · intro parsed
    obtain ⟨_, _, handled, _, _, ⟨stop, rfl⟩, rfl, rfl⟩ := parsed
    exact ⟨stop, handled⟩
  · intro parsed
    obtain ⟨stop, handled⟩ := parsed
    exact ⟨_, _, handled, (), _, ⟨stop, rfl⟩, rfl, rfl⟩

theorem unhandledHandler_ok_iff {handler : Ex} :
    unhandledHandler syn tokens = .ok (handler, rest) ↔
      ∃ arrow afterArrow stop,
        tokens = .punct '=' true :: .punct '>' arrow :: afterArrow ∧
          syn.expr afterArrow = .ok (handler, .punct ';' stop :: rest) := by
  simp only [unhandledHandler, semicolon, run_bind_ok_iff, fatArrow_ok_iff,
    punct_ok_iff, run_pure_ok_iff]
  constructor
  · intro parsed
    obtain ⟨_, afterArrow, ⟨arrow, rfl⟩, _, _, handled, _, _, ⟨stop, rfl⟩, rfl,
      rfl⟩ := parsed
    exact ⟨arrow, afterArrow, stop, rfl, handled⟩
  · intro parsed
    obtain ⟨arrow, afterArrow, stop, rfl, handled⟩ := parsed
    exact ⟨(), _, ⟨arrow, rfl⟩, _, _, handled, (), _, ⟨stop, rfl⟩, rfl, rfl⟩

theorem blockClause_ok {clauses next : BlockClauses Ex}
    (parsed : blockClause syn clauses tokens = .ok (next, rest)) :
    ∃ clause, Clause.Reads syn tokens clause rest ∧
      clauses.add clause = some next := by
  obtain ⟨word, middle, taken, continued⟩ := run_bind_ok_iff.mp parsed
  obtain ⟨rfl, _⟩ := ident_ok_iff.mp taken
  split at continued
  · rename_i named
    obtain ⟨handler, _, read, added⟩ := run_bind_ok_iff.mp continued
    obtain ⟨rfl, rfl⟩ := run_pure_ok_iff.mp added
    obtain ⟨arrow, afterArrow, stop, event, handled⟩ :=
      onHandler_ok_iff.mp read
    exact ⟨.on handler, .on named event handled, rfl⟩
  · split at continued
    · rename_i named
      split at continued
      · cases continued
      · rename_i absent
        obtain ⟨timeout, _, read, added⟩ := run_bind_ok_iff.mp continued
        obtain ⟨rfl, rfl⟩ := run_pure_ok_iff.mp added
        obtain ⟨arrow, afterArrow, stop, lasts, handled⟩ :=
          timeoutSpec_ok_iff.mp read
        exact ⟨.timeout timeout, .timeout named lasts handled, if_neg absent⟩
    · split at continued
      · rename_i named
        split at continued
        · cases continued
        · rename_i absent
          obtain ⟨handler, _, read, added⟩ := run_bind_ok_iff.mp continued
          obtain ⟨rfl, rfl⟩ := run_pure_ok_iff.mp added
          obtain ⟨stop, handled⟩ := hookHandler_ok_iff.mp read
          exact ⟨.entry handler, .entry named handled, if_neg absent⟩
      · split at continued
        · rename_i named
          split at continued
          · cases continued
          · rename_i absent
            obtain ⟨handler, _, read, added⟩ := run_bind_ok_iff.mp continued
            obtain ⟨rfl, rfl⟩ := run_pure_ok_iff.mp added
            obtain ⟨stop, handled⟩ := hookHandler_ok_iff.mp read
            exact ⟨.exit handler, .exit named handled, if_neg absent⟩
        · cases continued

theorem ok_blockClause {clauses next : BlockClauses Ex} {clause : Clause Ex}
    (reads : Clause.Reads syn tokens clause rest)
    (added : clauses.add clause = some next) :
    blockClause syn clauses tokens = .ok (next, rest) := by
  cases reads with
  | on named event handled =>
      cases added
      refine run_bind_ok_iff.mpr ⟨_, _, ident_ok_iff.mpr ⟨rfl, ?_⟩, ?_⟩
      · rw [named]
        decide
      · rw [if_pos named]
        exact run_bind_ok_iff.mpr ⟨_, _,
          onHandler_ok_iff.mpr ⟨_, _, _, event, handled⟩, rfl⟩
  | timeout named lasts handled =>
      simp only [BlockClauses.add] at added
      split at added
      · cases added
      · rename_i absent
        cases added
        refine run_bind_ok_iff.mpr ⟨_, _, ident_ok_iff.mpr ⟨rfl, ?_⟩, ?_⟩
        · rw [named]
          decide
        · rw [if_neg (by rw [named]; decide), if_pos named, if_neg absent]
          exact run_bind_ok_iff.mpr ⟨_, _,
            timeoutSpec_ok_iff.mpr ⟨_, _, _, lasts, handled⟩, rfl⟩
  | entry named handled =>
      simp only [BlockClauses.add] at added
      split at added
      · cases added
      · rename_i absent
        cases added
        refine run_bind_ok_iff.mpr ⟨_, _, ident_ok_iff.mpr ⟨rfl, ?_⟩, ?_⟩
        · rw [named]
          decide
        · rw [if_neg (by rw [named]; decide),
            if_neg (by rw [named]; decide), if_pos named, if_neg absent]
          exact run_bind_ok_iff.mpr ⟨_, _,
            hookHandler_ok_iff.mpr ⟨_, handled⟩, rfl⟩
  | exit named handled =>
      simp only [BlockClauses.add] at added
      split at added
      · cases added
      · rename_i absent
        cases added
        refine run_bind_ok_iff.mpr ⟨_, _, ident_ok_iff.mpr ⟨rfl, ?_⟩, ?_⟩
        · rw [named]
          decide
        · rw [if_neg (by rw [named]; decide),
            if_neg (by rw [named]; decide), if_neg (by rw [named]; decide),
            if_pos named, if_neg absent]
          exact run_bind_ok_iff.mpr ⟨_, _,
            hookHandler_ok_iff.mpr ⟨_, handled⟩, rfl⟩

theorem blockClause_ok_iff {clauses next : BlockClauses Ex} :
    blockClause syn clauses tokens = .ok (next, rest) ↔
      ∃ clause, Clause.Reads syn tokens clause rest ∧
        clauses.add clause = some next := by
  constructor
  · intro parsed
    exact blockClause_ok parsed
  · intro found
    obtain ⟨clause, reads, added⟩ := found
    exact ok_blockClause reads added

theorem Clause.Reads.consumes {clause : Clause Ex}
    (reads : Clause.Reads syn tokens clause rest) :
    rest.length < tokens.length := by
  cases reads with
  | on named event handled =>
      have first := syn.path_shortens _ _ _ event
      have second := syn.expr_shortens _ _ _ handled
      simp only [List.length_cons] at *
      omega
  | timeout named lasts handled =>
      have first := syn.expr_shortens _ _ _ lasts
      have second := syn.expr_shortens _ _ _ handled
      simp only [List.length_cons] at *
      omega
  | entry named handled | exit named handled =>
      have shorter := syn.expr_shortens _ _ _ handled
      simp only [List.length_cons] at *
      omega

theorem blockClauses_ok_iff {clauses : BlockClauses Ex} :
    whileNonempty .unfinished (blockClause syn) {} tokens =
        .ok (clauses, rest) ↔
      rest = [] ∧ ∃ written, Sequence (Clause.Reads syn) tokens written ∧
        BlockClauses.ofWritten written = some clauses :=
  whileNonempty_ok_iff
    (fun _ _ _ _ => blockClause_ok_iff)
    (fun _ _ _ (reads : Clause.Reads syn _ _ _) => reads.consumes) {} tokens
    clauses rest

theorem stateBlock_ok_iff {block : StateBlock Ex} :
    stateBlock syn tokens = .ok (block, rest) ↔
      ∃ path content written clauses,
        syn.path tokens = .ok (path, .group .brace content :: rest) ∧
          Sequence (Clause.Reads syn) content written ∧
          BlockClauses.ofWritten written = some clauses ∧
          block = clauses.block path := by
  simp only [stateBlock, run_bind_ok_iff, braced_ok_iff, within_ok_iff,
    run_pure_ok_iff, blockClauses_ok_iff]
  constructor
  · intro parsed
    obtain ⟨path, _, state, content, _, rfl, clauses, _,
      ⟨rfl, _, rfl, written, sequence, added⟩, rfl, rfl⟩ := parsed
    exact ⟨path, content, written, clauses, state, sequence, added, rfl⟩
  · intro parsed
    obtain ⟨path, content, written, clauses, state, sequence, added, rfl⟩ :=
      parsed
    exact ⟨path, _, state, content, _, rfl, clauses, _,
      ⟨rfl, _, rfl, written, sequence, added⟩, rfl, rfl⟩

end Clauses

/-! ### Whole tables -/

section Tables

variable {syn : Syn Ty Ex} {tokens rest : List Token}

theorem tableItem_ok {body next : TableBody Ex}
    (parsed : tableItem syn body tokens = .ok (next, rest)) :
    ∃ item, Item.Reads syn tokens item rest ∧ body.add item = some next := by
  obtain ⟨word, middle, taken, continued⟩ := run_bind_ok_iff.mp parsed
  obtain ⟨rfl, _⟩ := ident_ok_iff.mp taken
  split at continued
  · rename_i named
    obtain ⟨block, _, read, added⟩ := run_bind_ok_iff.mp continued
    obtain ⟨rfl, rfl⟩ := run_pure_ok_iff.mp added
    obtain ⟨path, content, written, clauses, state, sequence, assembled,
      rfl⟩ := stateBlock_ok_iff.mp read
    refine ⟨.state path written, .state named state sequence, ?_⟩
    rw [TableBody.add, assembled]
    rfl
  · split at continued
    · rename_i named
      split at continued
      · cases continued
      · rename_i absent
        obtain ⟨handler, _, read, added⟩ := run_bind_ok_iff.mp continued
        obtain ⟨rfl, rfl⟩ := run_pure_ok_iff.mp added
        obtain ⟨arrow, afterArrow, stop, rfl, handled⟩ :=
          unhandledHandler_ok_iff.mp read
        exact ⟨.unhandled handler, .unhandled named handled, if_neg absent⟩
    · cases continued

theorem ok_tableItem {body next : TableBody Ex} {item : Item Ex}
    (reads : Item.Reads syn tokens item rest)
    (added : body.add item = some next) :
    tableItem syn body tokens = .ok (next, rest) := by
  cases reads with
  | state named state sequence =>
      simp only [TableBody.add] at added
      obtain ⟨clauses, assembled, rfl⟩ := Option.map_eq_some_iff.mp added
      refine run_bind_ok_iff.mpr ⟨_, _, ident_ok_iff.mpr ⟨rfl, ?_⟩, ?_⟩
      · rw [named]
        decide
      · rw [if_pos named]
        exact run_bind_ok_iff.mpr ⟨_, _,
          stateBlock_ok_iff.mpr
            ⟨_, _, _, clauses, state, sequence, assembled, rfl⟩, rfl⟩
  | unhandled named handled =>
      simp only [TableBody.add] at added
      split at added
      · cases added
      · rename_i absent
        cases added
        refine run_bind_ok_iff.mpr ⟨_, _, ident_ok_iff.mpr ⟨rfl, ?_⟩, ?_⟩
        · rw [named]
          decide
        · rw [if_neg (by rw [named]; decide), if_pos named, if_neg absent]
          exact run_bind_ok_iff.mpr ⟨_, _,
            unhandledHandler_ok_iff.mpr ⟨_, _, _, rfl, handled⟩, rfl⟩

theorem tableItem_ok_iff {body next : TableBody Ex} :
    tableItem syn body tokens = .ok (next, rest) ↔
      ∃ item, Item.Reads syn tokens item rest ∧
        body.add item = some next := by
  constructor
  · intro parsed
    exact tableItem_ok parsed
  · intro found
    obtain ⟨item, reads, added⟩ := found
    exact ok_tableItem reads added

theorem Item.Reads.consumes {item : Item Ex}
    (reads : Item.Reads syn tokens item rest) :
    rest.length < tokens.length := by
  cases reads with
  | state named state sequence =>
      have shorter := syn.path_shortens _ _ _ state
      simp only [List.length_cons] at *
      omega
  | unhandled named handled =>
      have shorter := syn.expr_shortens _ _ _ handled
      simp only [List.length_cons] at *
      omega

theorem tableBody_ok_iff {body : TableBody Ex} :
    whileNonempty .unfinished (tableItem syn) {} tokens = .ok (body, rest) ↔
      rest = [] ∧ ∃ items, Sequence (Item.Reads syn) tokens items ∧
        items.foldlM TableBody.add {} = some body :=
  whileNonempty_ok_iff
    (fun _ _ _ _ => tableItem_ok_iff)
    (fun _ _ _ (reads : Item.Reads syn _ _ _) => reads.consumes) {} tokens body
    rest

structure Table (Ty Ex : Type) where
  header : Header Ty Ex
  items : List (Item Ex)

def Table.Reads (syn : Syn Ty Ex) (tokens : List Token)
    (written : Table Ty Ex) : Prop :=
  ∃ rest, ObzenflowFsm.header syn tokens = .ok (written.header, rest) ∧
    Sequence (Item.Reads syn) rest written.items

/-- What a table is parsed into, unless it repeats a clause in one place. -/
def Table.spec (written : Table Ty Ex) : Option (FsmSpec Ty Ex) :=
  (written.items.foldlM TableBody.add {}).map written.header.spec

/-- Parsing accepts exactly the tables that repeat no `timeout`, `on_entry` or
`on_exit` in one block and no `unhandled`. -/
theorem FsmSpec.parse_ok_iff {spec : FsmSpec Ty Ex} :
    FsmSpec.parse syn tokens = .ok spec ↔
      ∃ written, Table.Reads syn tokens written ∧
        written.spec = some spec := by
  have parsed : FsmSpec.parse syn tokens = .ok spec ↔
      ∃ rest, table syn tokens = .ok (spec, rest) := by
    unfold FsmSpec.parse
    cases table syn tokens with
    | error error => simp [Except.map]
    | ok answer => simp [Except.map, Prod.ext_iff]
  rw [parsed]
  simp only [table, run_bind_ok_iff, run_pure_ok_iff, tableBody_ok_iff]
  constructor
  · intro found
    obtain ⟨_, header, _, headed, body, _, ⟨rfl, items, sequence, added⟩, rfl,
      _⟩ := found
    exact ⟨⟨header, items⟩, ⟨_, headed, sequence⟩, by
      rw [Table.spec, added]
      rfl⟩
  · intro found
    obtain ⟨written, ⟨rest, headed, sequence⟩, assembled⟩ := found
    obtain ⟨body, added, rfl⟩ := Option.map_eq_some_iff.mp assembled
    exact ⟨[], written.header, rest, headed, body, [],
      ⟨rfl, written.items, sequence, added⟩, rfl, rfl⟩

/-! ### A stream of tokens is read in one way -/

theorem Clause.Reads.unique {clause other : Clause Ex} {left : List Token}
    (first : Clause.Reads syn tokens clause rest)
    (second : Clause.Reads syn tokens other left) :
    clause = other ∧ rest = left := by
  have parsed {next : Clause Ex} {after : List Token}
      (reads : Clause.Reads syn tokens next after) :
      ∃ clauses : BlockClauses Ex, [next].Perm clauses.written ∧
        blockClause syn {} tokens = .ok (clauses, after) := by
    obtain ⟨clauses, added⟩ :
        ∃ clauses, ({} : BlockClauses Ex).add next = some clauses := by
      cases next with
      | on handler => exact ⟨_, rfl⟩
      | timeout timeout => exact ⟨_, rfl⟩
      | entry handler => exact ⟨_, rfl⟩
      | exit handler => exact ⟨_, rfl⟩
    exact ⟨clauses, (BlockClauses.written_add added).symm,
      ok_blockClause reads added⟩
  obtain ⟨clauses, held, firstParsed⟩ := parsed first
  obtain ⟨otherClauses, otherHeld, secondParsed⟩ := parsed second
  rw [firstParsed] at secondParsed
  cases secondParsed
  exact ⟨List.singleton_perm_singleton.mp (held.trans otherHeld.symm), rfl⟩

theorem Item.Reads.unique {item other : Item Ex} {left : List Token}
    (first : Item.Reads syn tokens item rest)
    (second : Item.Reads syn tokens other left) :
    item = other ∧ rest = left := by
  cases first with
  | state named state clauses =>
      cases second with
      | state otherNamed otherState otherClauses =>
          rw [state] at otherState
          cases otherState
          rw [clauses.unique otherClauses
            (fun _ _ _ _ _ => Clause.Reads.unique)
            (fun _ _ _ => Clause.Reads.consumes)]
          exact ⟨rfl, rfl⟩
      | unhandled otherNamed handled =>
          rw [named] at otherNamed
          exact absurd otherNamed (by decide)
  | unhandled named handled =>
      cases second with
      | state otherNamed otherState otherClauses =>
          rw [named] at otherNamed
          exact absurd otherNamed (by decide)
      | unhandled otherNamed otherHandled =>
          rw [handled] at otherHandled
          cases otherHandled
          exact ⟨rfl, rfl⟩

theorem Table.Reads.unique {first second : Table Ty Ex}
    (firstReads : Table.Reads syn tokens first)
    (secondReads : Table.Reads syn tokens second) : first = second := by
  obtain ⟨firstHeader, firstItems⟩ := first
  obtain ⟨secondHeader, secondItems⟩ := second
  obtain ⟨rest, firstHeaded, firstSequence⟩ := firstReads
  obtain ⟨left, secondHeaded, secondSequence⟩ := secondReads
  rw [firstHeaded] at secondHeaded
  cases secondHeaded
  have same : firstItems = secondItems :=
    firstSequence.unique secondSequence
      (fun _ _ _ _ _ => Item.Reads.unique)
      (fun _ _ _ => Item.Reads.consumes)
  rw [same]

end Tables

end ObzenflowFsm
