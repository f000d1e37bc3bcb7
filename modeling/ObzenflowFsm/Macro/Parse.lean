import ObzenflowFsm.Data.Parsing
import ObzenflowFsm.Macro.Syntax

namespace ObzenflowFsm

open Parsing

/-- The errors of `FsmSpec::parse`: its own, those of `syn` for a token that is
not the one expected, and that of a loop that does not end. -/
inductive ParseError where
  | spanned (message : String)
  | expected (token : String)
  | unfinished
  deriving DecidableEq

abbrev TokenParser (Value : Type) : Type := Parser Token ParseError Value

/-- The parsers of `syn` that are taken as they are. -/
structure Syn (Ty Ex : Type) where
  type : TokenParser Ty
  expr : TokenParser Ex
  path : TokenParser ExprPath
  type_shortens : Shortens type
  expr_shortens : Shortens expr
  path_shortens : Shortens path

/-- The words `syn` does not take for an identifier. -/
def rustKeywords : List String :=
  ["abstract", "as", "async", "await", "become", "box", "break", "const",
    "continue", "crate", "do", "dyn", "else", "enum", "extern", "false",
    "final", "fn", "for", "if", "impl", "in", "let", "loop", "macro", "match",
    "mod", "move", "mut", "override", "priv", "pub", "ref", "return", "Self",
    "self", "static", "struct", "super", "trait", "true", "try", "type",
    "typeof", "unsafe", "unsized", "use", "virtual", "where", "while", "yield"]

def ident : TokenParser Ident
  | .ident word :: rest =>
      if word.toString ∈ rustKeywords then .error (.expected "identifier")
      else .ok (word, rest)
  | _ => .error (.expected "identifier")

def punct (char : Char) (text : String) : TokenParser Unit
  | .punct found _ :: rest =>
      if found = char then .ok ((), rest) else .error (.expected text)
  | _ => .error (.expected text)

def colon : TokenParser Unit := punct ':' ":"

def semicolon : TokenParser Unit := punct ';' ";"

def fatArrow : TokenParser Unit
  | .punct '=' true :: .punct '>' _ :: rest => .ok ((), rest)
  | _ => .error (.expected "=>")

/-- `braced!(content in input)`. -/
def braced : TokenParser (List Token)
  | .group .brace content :: rest => .ok (content, rest)
  | _ => .error (.expected "curly braces")

def within {Value : Type} (content : List Token) (parser : TokenParser Value) :
    TokenParser Value :=
  fun rest => (parser content).map fun answer => (answer.1, rest)

/-- One `name: value;` of the header. -/
def headerField {Value : Type} (name : String) (value : TokenParser Value) :
    TokenParser Value := do
  let id ← ident
  if id.toString = name then
    colon
    let parsed ← value
    semicolon
    return parsed
  else fail (.spanned ("expected `" ++ name ++ ":`"))

structure BlockClauses (Ex : Type) where
  handlers : List (OnHandler Ex) := []
  timeout : Option (TimeoutSpec Ex) := none
  entry : Option Ex := none
  exit : Option Ex := none

def BlockClauses.block (clauses : BlockClauses Ex) (statePath : ExprPath) :
    StateBlock Ex where
  statePath := statePath
  handlers := clauses.handlers
  timeout := clauses.timeout
  entry := clauses.entry
  exit := clauses.exit

structure TableBody (Ex : Type) where
  states : List (StateBlock Ex) := []
  unhandled : Option Ex := none

variable {Ty Ex : Type}

def onHandler (syn : Syn Ty Ex) : TokenParser (OnHandler Ex) := do
  let eventPath ← syn.path
  fatArrow
  let handler ← syn.expr
  semicolon
  return { eventPath, handler }

def timeoutSpec (syn : Syn Ty Ex) : TokenParser (TimeoutSpec Ex) := do
  let duration ← syn.expr
  fatArrow
  let handler ← syn.expr
  semicolon
  return { duration, handler }

def hookHandler (syn : Syn Ty Ex) : TokenParser Ex := do
  let handler ← syn.expr
  semicolon
  return handler

def unhandledHandler (syn : Syn Ty Ex) : TokenParser Ex := do
  fatArrow
  let handler ← syn.expr
  semicolon
  return handler

/-- One round of the loop over a state block. -/
def blockClause (syn : Syn Ty Ex) (clauses : BlockClauses Ex) :
    TokenParser (BlockClauses Ex) := do
  let innerKw ← ident
  if innerKw.toString = "on" then
    let handler ← onHandler syn
    return { clauses with handlers := clauses.handlers ++ [handler] }
  else if innerKw.toString = "timeout" then
    if clauses.timeout.isSome then
      fail (.spanned "duplicate `timeout` for state")
    else
      let timeout ← timeoutSpec syn
      return { clauses with timeout := some timeout }
  else if innerKw.toString = "on_entry" then
    if clauses.entry.isSome then
      fail (.spanned "duplicate `on_entry` for state")
    else
      let handler ← hookHandler syn
      return { clauses with entry := some handler }
  else if innerKw.toString = "on_exit" then
    if clauses.exit.isSome then
      fail (.spanned "duplicate `on_exit` for state")
    else
      let handler ← hookHandler syn
      return { clauses with exit := some handler }
  else fail (.spanned "expected `on`, `timeout`, `on_entry`, or `on_exit`")

def stateBlock (syn : Syn Ty Ex) : TokenParser (StateBlock Ex) := do
  let statePath ← syn.path
  let content ← braced
  let clauses ← within content (whileNonempty .unfinished (blockClause syn) {})
  return clauses.block statePath

/-- One round of the loop over the table. -/
def tableItem (syn : Syn Ty Ex) (body : TableBody Ex) :
    TokenParser (TableBody Ex) := do
  let kw ← ident
  if kw.toString = "state" then
    let block ← stateBlock syn
    return { body with states := body.states ++ [block] }
  else if kw.toString = "unhandled" then
    if body.unhandled.isSome then
      fail (.spanned "duplicate `unhandled` handler at top-level")
    else
      let handler ← unhandledHandler syn
      return { body with unhandled := some handler }
  else fail (.spanned "expected `state` or `unhandled`")

structure Header (Ty Ex : Type) where
  stateTy : Ty
  eventTy : Ty
  contextTy : Ty
  actionTy : Ty
  initialExpr : Ex

def Header.spec (header : Header Ty Ex) (body : TableBody Ex) :
    FsmSpec Ty Ex where
  stateTy := header.stateTy
  eventTy := header.eventTy
  contextTy := header.contextTy
  actionTy := header.actionTy
  initialExpr := header.initialExpr
  states := body.states
  unhandled := body.unhandled

def header (syn : Syn Ty Ex) : TokenParser (Header Ty Ex) := do
  let stateTy ← headerField "state" syn.type
  let eventTy ← headerField "event" syn.type
  let contextTy ← headerField "context" syn.type
  let actionTy ← headerField "action" syn.type
  let initialExpr ← headerField "initial" syn.expr
  return { stateTy, eventTy, contextTy, actionTy, initialExpr }

def table (syn : Syn Ty Ex) : TokenParser (FsmSpec Ty Ex) := do
  let header ← header syn
  let body ← whileNonempty .unfinished (tableItem syn) {}
  return header.spec body

def FsmSpec.parse (syn : Syn Ty Ex) (tokens : List Token) :
    Except ParseError (FsmSpec Ty Ex) :=
  (table syn tokens).map Prod.fst

end ObzenflowFsm
