import ObzenflowFsm.Macro.Arrangement

namespace ObzenflowFsm

open Parsing

variable {Ty Ex : Type}

/-! Tables as tokens: what is printed clause by clause is parsed back. -/

structure Printer (Ty Ex : Type) where
  type : Ty → List Token
  expr : Ex → List Token
  path : ExprPath → List Token

inductive Keyword where
  | state
  | event
  | context
  | action
  | initial
  | unhandled
  | on
  | timeout
  | onEntry
  | onExit

namespace Keyword

def name : Keyword → String
  | .state => "state"
  | .event => "event"
  | .context => "context"
  | .action => "action"
  | .initial => "initial"
  | .unhandled => "unhandled"
  | .on => "on"
  | .timeout => "timeout"
  | .onEntry => "on_entry"
  | .onExit => "on_exit"

theorem clean (keyword : Keyword) :
    '#' ∉ keyword.name.toList ∧ keyword.name ≠ "_" := by
  cases keyword <;> decide

def token (keyword : Keyword) : Token :=
  .ident ⟨keyword.name, false, keyword.clean⟩

end Keyword

namespace Printer

def field (keyword : Keyword) (value : List Token) : List Token :=
  keyword.token :: .punct ':' false :: (value ++ [.punct ';' false])

/-- `=> value;` -/
def target (value : List Token) : List Token :=
  .punct '=' true :: .punct '>' false :: (value ++ [.punct ';' false])

variable (printer : Printer Ty Ex)

def header (header : Header Ty Ex) : List Token :=
  field .state (printer.type header.stateTy) ++
    field .event (printer.type header.eventTy) ++
    field .context (printer.type header.contextTy) ++
    field .action (printer.type header.actionTy) ++
    field .initial (printer.expr header.initialExpr)

def clause : Clause Ex → List Token
  | .on handler =>
      Keyword.on.token :: (printer.path handler.eventPath ++
        target (printer.expr handler.handler))
  | .timeout timeout =>
      Keyword.timeout.token :: (printer.expr timeout.duration ++
        target (printer.expr timeout.handler))
  | .entry handler =>
      Keyword.onEntry.token ::
        (printer.expr handler ++ [.punct ';' false])
  | .exit handler =>
      Keyword.onExit.token ::
        (printer.expr handler ++ [.punct ';' false])

def item : Item Ex → List Token
  | .state path clauses =>
      Keyword.state.token :: (printer.path path ++
        [.group .brace (clauses.flatMap printer.clause)])
  | .unhandled handler =>
      Keyword.unhandled.token :: target (printer.expr handler)

def table (written : Table Ty Ex) : List Token :=
  printer.header written.header ++ written.items.flatMap printer.item

end Printer

/-! ### Reading back what is printed -/

namespace Printer

/-! The types, expressions and paths that the parsers of `syn` read back as they
are printed, up to the token that follows them in a table. Not every tree is
one: no path has a keyword among its segments, for example. -/

variable (printer : Printer Ty Ex) (syn : Syn Ty Ex)

def ReadsType (ty : Ty) : Prop :=
  ∀ stop rest, syn.type (printer.type ty ++ .punct ';' stop :: rest) =
    .ok (ty, .punct ';' stop :: rest)

def ReadsExpr (expr : Ex) : Prop :=
  ∀ stop rest, syn.expr (printer.expr expr ++ .punct ';' stop :: rest) =
    .ok (expr, .punct ';' stop :: rest)

def ReadsDuration (expr : Ex) : Prop :=
  ∀ arrow rest, syn.expr (printer.expr expr ++
      .punct '=' true :: .punct '>' arrow :: rest) =
    .ok (expr, .punct '=' true :: .punct '>' arrow :: rest)

def ReadsEvent (path : ExprPath) : Prop :=
  ∀ arrow rest, syn.path (printer.path path ++
      .punct '=' true :: .punct '>' arrow :: rest) =
    .ok (path, .punct '=' true :: .punct '>' arrow :: rest)

def ReadsState (path : ExprPath) : Prop :=
  ∀ content rest,
    syn.path (printer.path path ++ .group .brace content :: rest) =
      .ok (path, .group .brace content :: rest)

structure ReadsHeader (header : Header Ty Ex) : Prop where
  state : printer.ReadsType syn header.stateTy
  event : printer.ReadsType syn header.eventTy
  context : printer.ReadsType syn header.contextTy
  action : printer.ReadsType syn header.actionTy
  initial : printer.ReadsExpr syn header.initialExpr

def ReadsClause : Clause Ex → Prop
  | .on handler =>
      printer.ReadsEvent syn handler.eventPath ∧
        printer.ReadsExpr syn handler.handler
  | .timeout timeout =>
      printer.ReadsDuration syn timeout.duration ∧
        printer.ReadsExpr syn timeout.handler
  | .entry handler => printer.ReadsExpr syn handler
  | .exit handler => printer.ReadsExpr syn handler

def ReadsItem : Item Ex → Prop
  | .state path clauses =>
      printer.ReadsState syn path ∧
        ∀ clause ∈ clauses, printer.ReadsClause syn clause
  | .unhandled handler => printer.ReadsExpr syn handler

/-- All the types, expressions and paths of the table are read back. -/
structure ReadsBack (written : Table Ty Ex) : Prop where
  header : printer.ReadsHeader syn written.header
  items : ∀ item ∈ written.items, printer.ReadsItem syn item

variable {printer syn}

theorem field_reads {Value : Type} {parser : TokenParser Value} {value : Value}
    {printed : List Token}
    (reads : ∀ stop rest, parser (printed ++ .punct ';' stop :: rest) =
      .ok (value, .punct ';' stop :: rest)) (keyword : Keyword)
    (rest : List Token) :
    FieldReads keyword.name parser (Printer.field keyword printed ++ rest)
      value rest := by
  simp only [Printer.field, List.cons_append, List.append_assoc,
    List.nil_append]
  exact .mk rfl (reads false rest)

theorem ReadsHeader.reads {header : Header Ty Ex}
    (reads : printer.ReadsHeader syn header) (rest : List Token) :
    Header.Reads syn (printer.header header ++ rest) header rest := by
  simp only [Printer.header, List.append_assoc]
  exact .mk (field_reads reads.state .state _)
    (field_reads reads.event .event _)
    (field_reads reads.context .context _)
    (field_reads reads.action .action _)
    (field_reads reads.initial .initial _)

theorem clause_reads {clause : Clause Ex}
    (reads : printer.ReadsClause syn clause) (rest : List Token) :
    Clause.Reads syn (printer.clause clause ++ rest) clause rest := by
  cases clause with
  | on handler =>
      simp only [Printer.clause, Printer.target, List.cons_append,
        List.append_assoc, List.nil_append]
      exact .on rfl (reads.1 _ _) (reads.2 _ _)
  | timeout timeout =>
      simp only [Printer.clause, Printer.target, List.cons_append,
        List.append_assoc, List.nil_append]
      exact .timeout rfl (reads.1 _ _) (reads.2 _ _)
  | entry handler =>
      simp only [Printer.clause, List.cons_append, List.append_assoc,
        List.nil_append]
      exact .entry rfl (reads _ _)
  | exit handler =>
      simp only [Printer.clause, List.cons_append, List.append_assoc,
        List.nil_append]
      exact .exit rfl (reads _ _)

theorem item_reads {item : Item Ex} (reads : printer.ReadsItem syn item)
    (rest : List Token) :
    Item.Reads syn (printer.item item ++ rest) item rest := by
  cases item with
  | state path clauses =>
      simp only [Printer.item, List.cons_append, List.append_assoc,
        List.nil_append]
      exact .state rfl (reads.1 _ _)
        (Sequence.of_flatMap fun clause member =>
          clause_reads (reads.2 clause member))
  | unhandled handler =>
      simp only [Printer.item, Printer.target, List.cons_append,
        List.append_assoc, List.nil_append]
      exact .unhandled rfl (reads _ _)

theorem ReadsBack.spells {written : Table Ty Ex}
    (reads : printer.ReadsBack syn written) :
    Table.Spells syn (printer.table written) written :=
  ⟨_, reads.header.reads _,
    Sequence.of_flatMap fun item member => item_reads (reads.items item member)⟩

end Printer

/-- Every stream is parsed or refused, by the grammar alone; nothing that is
written is lost, and a table written in any admissible order is read back if
the trees in it are. -/
structure Syn.ParsesExactly (syn : Syn Ty Ex) (printer : Printer Ty Ex) :
    Prop where
  terminates : ∀ tokens, FsmSpec.parse syn tokens ≠ .error .unfinished
  accepts : ∀ tokens,
    (∃ spec, FsmSpec.parse syn tokens = .ok spec) ↔
      ∃ written, Table.Spells syn tokens written ∧ written.Admissible
  keeps : ∀ tokens spec,
    FsmSpec.parse syn tokens = .ok spec ↔
      ∃ written, Table.Spells syn tokens written ∧ spec.Arranges written
  arranged : ∀ spec : FsmSpec Ty Ex, ∃ written, spec.Arranges written
  restores : ∀ (spec : FsmSpec Ty Ex) written, spec.Arranges written →
    printer.ReadsBack syn written →
      FsmSpec.parse syn (printer.table written) = .ok spec

theorem FsmSpec.parse_ok_iff_arranges {syn : Syn Ty Ex} {tokens : List Token}
    {spec : FsmSpec Ty Ex} :
    FsmSpec.parse syn tokens = .ok spec ↔
      ∃ written, Table.Spells syn tokens written ∧ spec.Arranges written := by
  simp only [FsmSpec.parse_ok_iff, Table.reads_iff, Table.spec_eq_some_iff]

theorem Syn.parsesExactly {syn : Syn Ty Ex} (returns : syn.Returns)
    (printer : Printer Ty Ex) : syn.ParsesExactly printer where
  terminates := returns.parse
  accepts tokens := by
    simp only [FsmSpec.parse_ok_iff_arranges, Table.admissible_iff]
    constructor
    · intro parsed
      obtain ⟨spec, written, spelled, arranges⟩ := parsed
      exact ⟨written, spelled, spec, arranges⟩
    · intro accepted
      obtain ⟨written, spelled, spec, arranges⟩ := accepted
      exact ⟨spec, written, spelled, arranges⟩
  keeps _ _ := FsmSpec.parse_ok_iff_arranges
  arranged spec := ⟨spec.table, spec.arranges_table⟩
  restores _ written arranges reads :=
    FsmSpec.parse_ok_iff_arranges.mpr ⟨written, reads.spells, arranges⟩

/-! ### A syntax of types and expressions of one word -/

namespace Door

def leadingColon : List Token → Bool × List Token
  | .punct ':' true :: .punct ':' _ :: rest => (true, rest)
  | tokens => (false, tokens)

def segments : List Token → Option (List Ident × Ident × List Token)
  | .ident word :: .punct ':' true :: .punct ':' _ :: rest =>
      if word.toString ∈ rustKeywords then none
      else (segments rest).map fun found => (word :: found.1, found.2)
  | .ident word :: rest =>
      if word.toString ∈ rustKeywords then none else some ([], word, rest)
  | _ => none

/-- Paths of identifiers, without attributes or generic arguments. -/
def exprPath : TokenParser ExprPath := fun tokens =>
  let leading := leadingColon tokens
  match segments leading.2 with
  | some (init, last, rest) => .ok (⟨leading.1, init, last, []⟩, rest)
  | none => .error (.expected "identifier")

def doubleColon : List Token := [.punct ':' true, .punct ':' false]

def printer : Printer Ident Ident where
  type word := [.ident word]
  expr word := [.ident word]
  path path :=
    (if path.leadingColon then doubleColon else []) ++
      path.init.flatMap (fun word => .ident word :: doubleColon) ++
      [.ident path.last]

theorem leadingColon_shortens (tokens : List Token) :
    (leadingColon tokens).2.length ≤ tokens.length := by
  unfold leadingColon
  split
  · simp only [List.length_cons]
    omega
  · exact Nat.le_refl _

theorem segments_shortens (tokens : List Token) :
    ∀ init last rest, segments tokens = some (init, last, rest) →
      rest.length ≤ tokens.length := by
  fun_induction segments tokens with
  | case1 => simp
  | case2 word _ after plain induction =>
      intro init last rest found
      obtain ⟨⟨_, _, _⟩, first, same⟩ := Option.map_eq_some_iff.mp found
      cases same
      have shorter := induction _ _ _ first
      simp only [List.length_cons]
      omega
  | case3 => simp
  | case4 =>
      intro init last rest found
      cases found
      exact Nat.le_succ _
  | case5 => simp

theorem exprPath_shortens : Shortens exprPath := by
  intro tokens path rest parsed
  simp only [exprPath] at parsed
  split at parsed
  · rename_i init last left found
    cases parsed
    exact Nat.le_trans (segments_shortens _ _ _ _ found)
      (leadingColon_shortens tokens)
  · cases parsed

def plainSyn : Syn Ident Ident where
  type := ident
  expr := ident
  path := exprPath
  type_shortens := ident_shortens
  expr_shortens := ident_shortens
  path_shortens := exprPath_shortens

theorem plainSyn_returns : plainSyn.Returns := by
  refine ⟨avoids_ident, avoids_ident, ?_⟩
  intro tokens failed
  simp only [plainSyn, exprPath] at failed
  split at failed
  · cases failed
  · cases failed

theorem segments_append {init : List Ident} {last : Ident}
    (plain : ∀ word ∈ init, word.toString ∉ rustKeywords) {rest : List Token}
    (ended : segments (.ident last :: rest) = some ([], last, rest)) :
    segments (init.flatMap (fun word => .ident word :: doubleColon) ++
        .ident last :: rest) = some (init, last, rest) := by
  induction init with
  | nil => exact ended
  | cons word others induction =>
      rw [List.forall_mem_cons] at plain
      have found := induction plain.2
      simp only [doubleColon] at found
      simp only [List.flatMap_cons, List.cons_append, doubleColon,
        List.nil_append, segments, if_neg plain.1, found, Option.map_some]

theorem exprPath_printed {path : ExprPath} (bare : path.besides = [])
    (plain : ∀ word ∈ path.init, word.toString ∉ rustKeywords)
    {rest : List Token}
    (ended : segments (.ident path.last :: rest) =
      some ([], path.last, rest)) :
    exprPath (printer.path path ++ rest) = .ok (path, rest) := by
  obtain ⟨leading, init, last, besides⟩ := path
  cases bare
  have named := segments_append plain ended
  have word : ∃ first tail, init.flatMap
      (fun word => .ident word :: doubleColon) ++ .ident last :: rest =
        .ident first :: tail := by
    cases init with
    | nil => exact ⟨last, rest, rfl⟩
    | cons first others => exact ⟨first, _, rfl⟩
  obtain ⟨first, tail, shape⟩ := word
  rw [shape] at named
  simp only [printer, List.append_assoc, List.cons_append, List.nil_append,
    shape]
  cases leading with
  | true =>
      simp [doubleColon, exprPath, leadingColon, named]
  | false =>
      simp [exprPath, leadingColon, named]

/-- A path is read back unless it is written with more than its segments or has
a keyword among them. -/
theorem path_reads {path : ExprPath} (bare : path.besides = [])
    (plain : ∀ word ∈ path.init ++ [path.last],
      word.toString ∉ rustKeywords) :
    printer.ReadsEvent plainSyn path ∧ printer.ReadsState plainSyn path := by
  have init (word : Ident) (member : word ∈ path.init) :=
    plain word (List.mem_append_left _ member)
  have last := plain path.last (List.mem_append_right _ List.mem_cons_self)
  constructor
  · intro arrow rest
    exact exprPath_printed bare init (if_neg last)
  · intro content rest
    exact exprPath_printed bare init (if_neg last)

theorem farewell_readsBack :
    printer.ReadsBack plainSyn (written (.exit (word "greet"))) where
  header := by
    constructor <;> exact fun _ _ => rfl
  items := by
    intro item member
    rcases List.mem_cons.mp member with rfl | member
    · refine ⟨(path_reads rfl (by decide)).2, fun clause clauseMember => ?_⟩
      cases List.mem_singleton.mp clauseMember
      exact ⟨(path_reads rfl (by decide)).1, fun _ _ => rfl⟩
    rcases List.mem_cons.mp member with rfl | member
    · refine ⟨(path_reads rfl (by decide)).2, fun clause clauseMember => ?_⟩
      rcases List.mem_cons.mp clauseMember with rfl | clauseMember
      · exact ⟨fun _ _ => rfl, fun _ _ => rfl⟩
      · cases List.mem_singleton.mp clauseMember
        exact fun _ _ => rfl
    · cases List.mem_singleton.mp member
      refine ⟨(path_reads rfl (by decide)).2, fun clause clauseMember => ?_⟩
      cases List.mem_singleton.mp clauseMember
      exact fun _ _ => rfl

theorem plainSyn_parsesExactly :
    plainSyn.ParsesExactly printer ∧
      FsmSpec.parse plainSyn
        (printer.table (written (.exit (word "greet")))) =
          .ok (spec none (some (word "greet"))) :=
  have parses := Syn.parsesExactly plainSyn_returns printer
  ⟨parses, parses.restores _ _ (Table.spec_eq_some_iff.mp rfl)
    farewell_readsBack⟩

example : FsmSpec.parse plainSyn
    (headerTokens ++ blockTokens (word "fn") []) =
      .error (.expected "identifier") := rfl

end Door

end ObzenflowFsm
