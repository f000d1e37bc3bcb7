import ObzenflowFsm.Macro.Rendering

namespace ObzenflowFsm

open Parsing

variable {Ty Ex Value Result : Type}

/-! What `FsmSpec::parse` says of the tables it refuses. -/

/-- The word that starts a clause is refused after these clauses of its
block. -/
inductive Clause.Refused (before : List (Clause Ex)) : String → String → Prop
  | timeout (first : before.filterMap Clause.asTimeout ≠ []) :
      Refused before "timeout" "duplicate `timeout` for state"
  | entry (first : before.filterMap Clause.asEntry ≠ []) :
      Refused before "on_entry" "duplicate `on_entry` for state"
  | exit (first : before.filterMap Clause.asExit ≠ []) :
      Refused before "on_exit" "duplicate `on_exit` for state"
  | foreign (unknown : word ∉ ["on", "timeout", "on_entry", "on_exit"]) :
      Refused before word
        "expected `on`, `timeout`, `on_entry`, or `on_exit`"

inductive Item.Refused (before : List (Item Ex)) : String → String → Prop
  | unhandled (first : before.filterMap Item.asUnhandled ≠ []) :
      Refused before "unhandled" "duplicate `unhandled` handler at top-level"
  | foreign (unknown : word ∉ ["state", "unhandled"]) :
      Refused before word "expected `state` or `unhandled`"

/-- Some clauses are read, and the word after them is refused. -/
inductive Block.Offends (syn : Syn Ty Ex) (content : List Token)
    (message : String) : Prop
  | mk (reading : Reading (Clause.Reads syn) content before
        (.ident word :: rest))
      (apart : before.Pairwise fun first second => ¬ first.Rivals second)
      (allowed : word.toString ∉ rustKeywords)
      (refused : Clause.Refused before word.toString message)

inductive Item.Offends (syn : Syn Ty Ex) (before : List (Item Ex)) :
    List Token → String → Prop
  | word (allowed : word.toString ∉ rustKeywords)
      (refused : Item.Refused before word.toString message) :
      Offends syn before (.ident word :: rest) message
  | block (named : word.toString = "state")
      (state : syn.path tokens = .ok (path, .group .brace content :: rest))
      (offends : Block.Offends syn content message) :
      Offends syn before (.ident word :: tokens) message

/-- Another word stands where the name of the field should. -/
inductive Misnamed (name : String) : List Token → String → Prop
  | mk (allowed : word.toString ∉ rustKeywords)
      (other : word.toString ≠ name) :
      Misnamed name (.ident word :: rest) ("expected `" ++ name ++ ":`")

inductive Header.Offends (syn : Syn Ty Ex) (tokens : List Token)
    (message : String) : Prop
  | state (misnamed : Misnamed "state" tokens message)
  | event (state : FieldReads "state" syn.type tokens states afterState)
      (misnamed : Misnamed "event" afterState message)
  | context (state : FieldReads "state" syn.type tokens states afterState)
      (event : FieldReads "event" syn.type afterState events afterEvent)
      (misnamed : Misnamed "context" afterEvent message)
  | action (state : FieldReads "state" syn.type tokens states afterState)
      (event : FieldReads "event" syn.type afterState events afterEvent)
      (context : FieldReads "context" syn.type afterEvent contexts
        afterContext)
      (misnamed : Misnamed "action" afterContext message)
  | initial (state : FieldReads "state" syn.type tokens states afterState)
      (event : FieldReads "event" syn.type afterState events afterEvent)
      (context : FieldReads "context" syn.type afterEvent contexts
        afterContext)
      (action : FieldReads "action" syn.type afterContext actions afterAction)
      (misnamed : Misnamed "initial" afterAction message)

/-- The first word that is out of place, and what is said of it. -/
inductive Table.Offends (syn : Syn Ty Ex) (tokens : List Token)
    (message : String) : Prop
  | header (offends : Header.Offends syn tokens message)
  | item {written : Table Ty Ex}
      (headed : Header.Reads syn tokens written.header body)
      (reading : Reading (Item.Reads syn) body written.items rest)
      (admissible : written.Admissible)
      (offends : Item.Offends syn written.items rest message)

/-! ### The parsers that say only what they expected -/

def Expects (parser : TokenParser Value) : Prop :=
  ∀ tokens error, parser tokens = .error error →
    ∃ token, error = .expected token

/-- The parsers of `syn` have errors of their own. -/
structure Syn.Expects (syn : Syn Ty Ex) : Prop where
  type : ObzenflowFsm.Expects syn.type
  expr : ObzenflowFsm.Expects syn.expr
  path : ObzenflowFsm.Expects syn.path

section Expecting

variable {parser : TokenParser Value} {tokens : List Token}
  {message : String}

theorem Expects.ne_spanned (expects : Expects parser) :
    parser tokens ≠ .error (.spanned message) := by
  intro failed
  obtain ⟨token, other⟩ := expects tokens _ failed
  cases other

theorem Expects.bind {next : Value → TokenParser Result}
    (first : Expects parser) (later : ∀ value, Expects (next value)) :
    Expects (parser >>= next) := by
  intro tokens error failed
  rcases run_bind_error_iff.mp failed with here | ⟨value, middle, _, there⟩
  · exact first tokens error here
  · exact later value middle error there

theorem Expects.bind_spanned_iff {next : Value → TokenParser Result}
    (expects : Expects parser) :
    (parser >>= next) tokens = .error (.spanned message) ↔
      ∃ value middle, parser tokens = .ok (value, middle) ∧
        next value middle = .error (.spanned message) := by
  rw [run_bind_error_iff, or_iff_right expects.ne_spanned]

theorem expects_pure (value : Value) :
    Expects (pure value : TokenParser Value) := by
  intro tokens error failed
  cases failed

theorem expects_ident : Expects ident := by
  intro tokens error failed
  unfold ident at failed
  split at failed
  · split at failed
    · cases failed
      exact ⟨_, rfl⟩
    · cases failed
  · cases failed
    exact ⟨_, rfl⟩

theorem expects_punct (char : Char) (text : String) :
    Expects (punct char text) := by
  intro tokens error failed
  unfold punct at failed
  split at failed
  · split at failed
    · cases failed
    · cases failed
      exact ⟨_, rfl⟩
  · cases failed
    exact ⟨_, rfl⟩

theorem expects_fatArrow : Expects fatArrow := by
  intro tokens error failed
  unfold fatArrow at failed
  split at failed
  · cases failed
  · cases failed
    exact ⟨_, rfl⟩

theorem expects_braced : Expects braced := by
  intro tokens error failed
  unfold braced at failed
  split at failed
  · cases failed
  · cases failed
    exact ⟨_, rfl⟩

theorem within_error_iff {content : List Token} {error : ParseError} :
    within content parser tokens = .error error ↔
      parser content = .error error := by
  unfold within
  cases parser content with
  | error failure => simp [Except.map]
  | ok answer => simp [Except.map]

/-- A clause that a block has one of is refused at its word. -/
theorem once_spanned_iff {present : Prop} [Decidable present] {text : String}
    (expects : Expects parser) :
    (if present then fail (.spanned text) else parser) tokens =
        .error (.spanned message) ↔
      present ∧ message = text := by
  split
  · rename_i first
    constructor
    · intro failed
      cases failed
      exact ⟨first, rfl⟩
    · rintro ⟨_, rfl⟩
      rfl
  · rename_i absent
    constructor
    · intro failed
      exact absurd failed expects.ne_spanned
    · intro refused
      exact absurd refused.1 absent

end Expecting

namespace Syn.Expects

variable {syn : Syn Ty Ex} (expects : syn.Expects)

include expects

theorem hookHandler : ObzenflowFsm.Expects (hookHandler syn) :=
  expects.expr.bind fun _ => (expects_punct _ _).bind fun _ => expects_pure _

theorem unhandledHandler : ObzenflowFsm.Expects (unhandledHandler syn) :=
  expects_fatArrow.bind fun _ => expects.hookHandler

theorem onHandler : ObzenflowFsm.Expects (onHandler syn) := by
  refine expects.path.bind fun _ => expects_fatArrow.bind fun _ => ?_
  exact expects.expr.bind fun _ => (expects_punct _ _).bind fun _ =>
    expects_pure _

theorem timeoutSpec : ObzenflowFsm.Expects (timeoutSpec syn) := by
  refine expects.expr.bind fun _ => expects_fatArrow.bind fun _ => ?_
  exact expects.expr.bind fun _ => (expects_punct _ _).bind fun _ =>
    expects_pure _

end Syn.Expects

/-! ### One lemma for each loop -/

section Loops

variable {syn : Syn Ty Ex} {tokens rest : List Token} {message : String}

theorem ne_nil_iff_isSome {values : List Value} {held : Option Value}
    (collected : values = held.toList) : values ≠ [] ↔ held.isSome := by
  subst collected
  cases held with
  | none => simp
  | some value => simp

theorem blockClause_spanned_iff (expects : syn.Expects)
    {before : List (Clause Ex)} {clauses : BlockClauses Ex}
    (assembled : BlockClauses.ofWritten before = some clauses) :
    blockClause syn clauses tokens = .error (.spanned message) ↔
      ∃ word rest, tokens = .ident word :: rest ∧
        word.toString ∉ rustKeywords ∧
        Clause.Refused before word.toString message := by
  obtain ⟨_, timeouts, entries, exits⟩ :=
    BlockClauses.foldlM_add_iff.mp assembled
  have timeout := ne_nil_iff_isSome timeouts
  have entry := ne_nil_iff_isSome entries
  have exit := ne_nil_iff_isSome exits
  have once {Given : Type} {parser : TokenParser Given} {present : Prop}
      [Decidable present] {text : String} {next : Given → BlockClauses Ex}
      {left : List Token} (given : Expects parser) :
      (if present then fail (.spanned text)
        else parser >>= fun value => pure (next value)) left =
          .error (.spanned message) ↔ present ∧ message = text :=
    once_spanned_iff (given.bind fun _ => expects_pure _)
  unfold blockClause
  rw [expects_ident.bind_spanned_iff]
  constructor
  · intro failed
    obtain ⟨word, rest, taken, continued⟩ := failed
    obtain ⟨rfl, allowed⟩ := ident_ok_iff.mp taken
    refine ⟨word, rest, rfl, allowed, ?_⟩
    split at continued
    · have rows := expects.onHandler.bind fun handler =>
        expects_pure { clauses with handlers := clauses.handlers ++ [handler] }
      exact absurd continued rows.ne_spanned
    · rename_i notOn
      split at continued
      · rename_i named
        obtain ⟨present, rfl⟩ := (once expects.timeoutSpec).mp continued
        rw [named]
        exact .timeout (timeout.mpr present)
      · rename_i notTimeout
        split at continued
        · rename_i named
          obtain ⟨present, rfl⟩ := (once expects.hookHandler).mp continued
          rw [named]
          exact .entry (entry.mpr present)
        · rename_i notEntry
          split at continued
          · rename_i named
            obtain ⟨present, rfl⟩ := (once expects.hookHandler).mp continued
            rw [named]
            exact .exit (exit.mpr present)
          · rename_i notExit
            cases continued
            apply Clause.Refused.foreign
            simp [notOn, notTimeout, notEntry, notExit]
  · intro refused
    obtain ⟨word, rest, rfl, allowed, refused⟩ := refused
    refine ⟨word, rest, ident_ok_iff.mpr ⟨rfl, allowed⟩, ?_⟩
    generalize word.toString = name at refused
    cases refused with
    | timeout first =>
        exact (once expects.timeoutSpec).mpr ⟨timeout.mp first, rfl⟩
    | entry first =>
        exact (once expects.hookHandler).mpr ⟨entry.mp first, rfl⟩
    | exit first =>
        exact (once expects.hookHandler).mpr ⟨exit.mp first, rfl⟩
    | foreign unknown =>
        simp only [List.mem_cons, List.not_mem_nil, or_false, not_or]
          at unknown
        obtain ⟨notOn, notTimeout, notEntry, notExit⟩ := unknown
        rw [if_neg notOn, if_neg notTimeout, if_neg notEntry, if_neg notExit]
        rfl

/-- A block is refused at the first of its words that is out of place. -/
theorem blockClauses_spanned_iff (expects : syn.Expects) :
    whileNonempty .unfinished (blockClause syn) {} tokens =
        .error (.spanned message) ↔
      Block.Offends syn tokens message := by
  refine (whileNonempty_error_iff (fun _ _ _ _ => blockClause_ok_iff)
    (fun _ _ _ (reads : Clause.Reads syn _ _ _) => reads.consumes) {} tokens
    (.spanned message)).trans ?_
  constructor
  · intro failed
    obtain ⟨before, clauses, token, rest, reading, assembled, stops⟩ := failed
    obtain ⟨word, left, same, allowed, refused⟩ :=
      (blockClause_spanned_iff expects assembled).mp stops
    cases same
    exact .mk reading
      ((BlockClauses.exists_ofWritten_iff before).mp ⟨clauses, assembled⟩)
      allowed refused
  · intro offends
    obtain ⟨reading, apart, allowed, refused⟩ := offends
    rename_i before word rest
    obtain ⟨clauses, assembled⟩ :=
      (BlockClauses.exists_ofWritten_iff before).mpr apart
    exact ⟨before, clauses, .ident word, rest, reading, assembled,
      (blockClause_spanned_iff expects assembled).mpr
        ⟨word, rest, rfl, allowed, refused⟩⟩

theorem stateBlock_spanned_iff (expects : syn.Expects) :
    stateBlock syn tokens = .error (.spanned message) ↔
      ∃ path content rest,
        syn.path tokens = .ok (path, .group .brace content :: rest) ∧
          Block.Offends syn content message := by
  simp only [stateBlock, expects.path.bind_spanned_iff,
    expects_braced.bind_spanned_iff, run_bind_error_iff, braced_ok_iff,
    within_error_iff, blockClauses_spanned_iff expects,
    (expects_pure _).ne_spanned, and_false, exists_false, or_false]
  constructor
  · intro failed
    obtain ⟨path, _, state, content, rest, rfl, offends⟩ := failed
    exact ⟨path, content, rest, state, offends⟩
  · intro refused
    obtain ⟨path, content, rest, state, offends⟩ := refused
    exact ⟨path, _, state, content, rest, rfl, offends⟩

theorem tableItem_spanned_iff (expects : syn.Expects) (header : Header Ty Ex)
    {before : List (Item Ex)} {body : TableBody Ex}
    (added : before.foldlM TableBody.add {} = some body) :
    tableItem syn body tokens = .error (.spanned message) ↔
      Item.Offends syn before tokens message := by
  have collected := ((TableBody.foldlM_add_iff header).mp added).2
  have unhandled := ne_nil_iff_isSome collected
  have once {next : Ex → TableBody Ex} {left : List Token} :
      (if body.unhandled.isSome then
          fail (.spanned "duplicate `unhandled` handler at top-level")
        else unhandledHandler syn >>= fun value => pure (next value)) left =
          .error (.spanned message) ↔
        body.unhandled.isSome ∧
          message = "duplicate `unhandled` handler at top-level" :=
    once_spanned_iff
      (expects.unhandledHandler.bind fun _ => expects_pure _)
  unfold tableItem
  rw [expects_ident.bind_spanned_iff]
  constructor
  · intro failed
    obtain ⟨word, rest, taken, continued⟩ := failed
    obtain ⟨rfl, allowed⟩ := ident_ok_iff.mp taken
    split at continued
    · rename_i named
      rcases run_bind_error_iff.mp continued with here | ⟨_, _, _, there⟩
      · obtain ⟨path, content, left, state, offends⟩ :=
          (stateBlock_spanned_iff expects).mp here
        exact .block named state offends
      · cases there
    · rename_i notState
      split at continued
      · rename_i named
        obtain ⟨present, rfl⟩ := once.mp continued
        apply Item.Offends.word allowed
        rw [named]
        exact .unhandled (unhandled.mpr present)
      · rename_i notUnhandled
        cases continued
        apply Item.Offends.word allowed
        apply Item.Refused.foreign
        simp [notState, notUnhandled]
  · intro offends
    cases offends with
    | @word _ word rest allowed refused =>
        refine ⟨word, rest, ident_ok_iff.mpr ⟨rfl, allowed⟩, ?_⟩
        generalize word.toString = name at refused
        cases refused with
        | unhandled first => exact once.mpr ⟨unhandled.mp first, rfl⟩
        | foreign unknown =>
            simp only [List.mem_cons, List.not_mem_nil, or_false, not_or]
              at unknown
            rw [if_neg unknown.1, if_neg unknown.2]
            rfl
    | block named state offends =>
        refine ⟨_, _, ident_ok_iff.mpr ⟨rfl, ?_⟩, ?_⟩
        · rw [named]
          decide
        · rw [if_pos named]
          exact run_bind_error_iff.mpr (.inl
            ((stateBlock_spanned_iff expects).mpr
              ⟨_, _, _, state, offends⟩))

theorem tableBody_spanned_iff (expects : syn.Expects)
    (header : Header Ty Ex) :
    whileNonempty .unfinished (tableItem syn) {} tokens =
        .error (.spanned message) ↔
      ∃ before rest, Reading (Item.Reads syn) tokens before rest ∧
        (Table.mk header before).Admissible ∧
        Item.Offends syn before rest message := by
  have admitted (before : List (Item Ex)) :
      (Table.mk header before).Admissible ↔
        ∃ body, before.foldlM TableBody.add {} = some body := by
    rw [Table.admissible_iff]
    simp only [← Table.spec_eq_some_iff, Table.spec, Option.map_eq_some_iff]
    constructor
    · intro assembled
      obtain ⟨_, body, added, _⟩ := assembled
      exact ⟨body, added⟩
    · intro assembled
      obtain ⟨body, added⟩ := assembled
      exact ⟨_, body, added, rfl⟩
  refine (whileNonempty_error_iff (fun _ _ _ _ => tableItem_ok_iff)
    (fun _ _ _ (reads : Item.Reads syn _ _ _) => reads.consumes) {} tokens
    (.spanned message)).trans ?_
  constructor
  · intro failed
    obtain ⟨before, body, token, rest, reading, added, stops⟩ := failed
    exact ⟨before, token :: rest, reading, (admitted before).mpr ⟨body, added⟩,
      (tableItem_spanned_iff expects header added).mp stops⟩
  · intro refused
    obtain ⟨before, rest, reading, admissible, offends⟩ := refused
    obtain ⟨body, added⟩ := (admitted before).mp admissible
    have stops := (tableItem_spanned_iff expects header added).mpr offends
    cases offends with
    | word allowed refused =>
        exact ⟨before, body, _, _, reading, added, stops⟩
    | block named state offends =>
        exact ⟨before, body, _, _, reading, added, stops⟩

end Loops

/-! ### The header -/

section Headers

variable {syn : Syn Ty Ex} {tokens rest : List Token} {message : String}

theorem headerField_spanned_iff {name : String} {value : TokenParser Value}
    (expects : Expects value) :
    headerField name value tokens = .error (.spanned message) ↔
      Misnamed name tokens message := by
  unfold headerField
  rw [expects_ident.bind_spanned_iff]
  constructor
  · intro failed
    obtain ⟨word, rest, taken, continued⟩ := failed
    obtain ⟨rfl, allowed⟩ := ident_ok_iff.mp taken
    split at continued
    · have valued := (expects_punct ':' ":").bind fun _ =>
        expects.bind fun parsed =>
          (expects_punct ';' ";").bind fun _ => expects_pure parsed
      exact absurd continued valued.ne_spanned
    · rename_i other
      cases continued
      exact .mk allowed other
  · intro misnamed
    obtain ⟨allowed, other⟩ := misnamed
    refine ⟨_, _, ident_ok_iff.mpr ⟨rfl, allowed⟩, ?_⟩
    rw [if_neg other]
    rfl

theorem header_spanned_iff (expects : syn.Expects) :
    header syn tokens = .error (.spanned message) ↔
      Header.Offends syn tokens message := by
  unfold header
  constructor
  · intro failed
    rcases run_bind_error_iff.mp failed with here | ⟨_, _, state, later⟩
    · exact .state ((headerField_spanned_iff expects.type).mp here)
    have state := (headerField_ok_iff (by decide)).mp state
    rcases run_bind_error_iff.mp later with here | ⟨_, _, event, later⟩
    · exact .event state ((headerField_spanned_iff expects.type).mp here)
    have event := (headerField_ok_iff (by decide)).mp event
    rcases run_bind_error_iff.mp later with here | ⟨_, _, context, later⟩
    · exact .context state event
        ((headerField_spanned_iff expects.type).mp here)
    have context := (headerField_ok_iff (by decide)).mp context
    rcases run_bind_error_iff.mp later with here | ⟨_, _, action, later⟩
    · exact .action state event context
        ((headerField_spanned_iff expects.type).mp here)
    have action := (headerField_ok_iff (by decide)).mp action
    rcases run_bind_error_iff.mp later with here | ⟨_, _, _, later⟩
    · exact .initial state event context action
        ((headerField_spanned_iff expects.expr).mp here)
    · cases later
  · intro offends
    have read {name : String} {before after : List Token} {given : Ty}
        (field : FieldReads name syn.type before given after)
        (allowed : name ∉ rustKeywords) := (headerField_ok_iff allowed).mpr field
    have stops {name : String} {before : List Token}
        (misnamed : Misnamed name before message) :=
      (headerField_spanned_iff expects.type).mpr misnamed
    cases offends with
    | state misnamed =>
        exact run_bind_error_iff.mpr (.inl (stops misnamed))
    | event state misnamed =>
        refine run_bind_error_iff.mpr (.inr ⟨_, _, read state (by decide), ?_⟩)
        exact run_bind_error_iff.mpr (.inl (stops misnamed))
    | context state event misnamed =>
        refine run_bind_error_iff.mpr (.inr ⟨_, _, read state (by decide), ?_⟩)
        refine run_bind_error_iff.mpr (.inr ⟨_, _, read event (by decide), ?_⟩)
        exact run_bind_error_iff.mpr (.inl (stops misnamed))
    | action state event context misnamed =>
        refine run_bind_error_iff.mpr (.inr ⟨_, _, read state (by decide), ?_⟩)
        refine run_bind_error_iff.mpr (.inr ⟨_, _, read event (by decide), ?_⟩)
        refine run_bind_error_iff.mpr
          (.inr ⟨_, _, read context (by decide), ?_⟩)
        exact run_bind_error_iff.mpr (.inl (stops misnamed))
    | initial state event context action misnamed =>
        refine run_bind_error_iff.mpr (.inr ⟨_, _, read state (by decide), ?_⟩)
        refine run_bind_error_iff.mpr (.inr ⟨_, _, read event (by decide), ?_⟩)
        refine run_bind_error_iff.mpr
          (.inr ⟨_, _, read context (by decide), ?_⟩)
        refine run_bind_error_iff.mpr (.inr ⟨_, _, read action (by decide), ?_⟩)
        exact run_bind_error_iff.mpr
          (.inl ((headerField_spanned_iff expects.expr).mpr misnamed))

/-- A message of `FsmSpec::parse` is the first word that is out of place, and
every stream that has one is refused with what is said of it. -/
theorem FsmSpec.parse_spanned_iff (expects : syn.Expects) :
    FsmSpec.parse syn tokens = .error (.spanned message) ↔
      Table.Offends syn tokens message := by
  have parsed : FsmSpec.parse syn tokens = .error (.spanned message) ↔
      ObzenflowFsm.table syn tokens = .error (.spanned message) := by
    unfold FsmSpec.parse
    cases ObzenflowFsm.table syn tokens with
    | error error => simp [Except.map]
    | ok answer => simp [Except.map]
  rw [parsed, ObzenflowFsm.table, run_bind_error_iff, header_spanned_iff expects]
  constructor
  · intro failed
    rcases failed with offends | ⟨header, body, headed, later⟩
    · exact .header offends
    · rcases run_bind_error_iff.mp later with here | ⟨_, _, _, there⟩
      · obtain ⟨before, rest, reading, admissible, offends⟩ :=
          (tableBody_spanned_iff expects header).mp here
        exact .item (header_ok_iff.mp headed) reading admissible offends
      · cases there
  · intro offends
    cases offends with
    | header offends => exact .inl offends
    | item headed reading admissible offends =>
        refine .inr ⟨_, _, header_ok_iff.mpr headed, ?_⟩
        exact run_bind_error_iff.mpr (.inl
          ((tableBody_spanned_iff expects _).mpr
            ⟨_, _, reading, admissible, offends⟩))

end Headers

namespace Door

theorem plainSyn_expects : plainSyn.Expects := by
  refine ⟨expects_ident, expects_ident, ?_⟩
  intro tokens error failed
  simp only [plainSyn, exprPath] at failed
  split at failed
  · cases failed
  · cases failed
    exact ⟨_, rfl⟩

def oneBlock (name : Ident) (clauses : List (Clause Ident)) :
    Table Ident Ident where
  header := (written (.entry name)).header
  items := [.state (path name) clauses]

/-- The open state has two hooks of one kind in one block. -/
theorem greetsTwice_offends :
    Table.Offends plainSyn
      (printer.table (oneBlock (word "Open")
        [.entry (word "greet"), .timeout ⟨word "openFor", word "autoClose"⟩,
          .entry (word "greet")]))
      "duplicate `on_entry` for state" :=
  (FsmSpec.parse_spanned_iff plainSyn_expects).mp rfl

end Door

end ObzenflowFsm
