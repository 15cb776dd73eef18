import TypeGloss.Token

/-!
# Statement terminators

A semicolon ends a statement. Where none is written, a line end or the closing brace of a block ends
one too, if the token before it can end a statement and the token behind it cannot continue it. The
brackets that are open tell blocks from objects and decide where line ends count. On the way an
opening brace of an object and a `function` that stands as an expression are marked as such.
-/

namespace TypeGloss

/-- What an open bracket encloses. -/
inductive Enclosure where
  /-- The parentheses behind `if`, `while` or `for`. -/
  | header
  /-- The parameters of a function. -/
  | signature
  | paren
  | bracket
  | block
  /-- An object literal or a type literal. -/
  | object
  deriving DecidableEq, Repr

namespace TokenKind

/-- Kinds that can end a statement. -/
def endsStatement : TokenKind → Bool
  | .name | .number | .string | .template | .keyword .trueKw | .keyword .falseKw
  | .keyword .nullKw | .keyword .thisKw | .rightParen | .rightBracket | .rightBrace | .incDec
  | .keyword .returnKw | .keyword .breakKw | .keyword .continueKw => true
  | _ => false

/-- Kinds that continue the statement of the line before. -/
def continuesStatement : TokenKind → Bool
  | .dot | .comma | .question | .colon | .assign | .compoundAssign | .equality | .andOp | .orOp
  | .nullish | .multiplicative | .additive | .less | .greater | .keyword .instanceofKw | .arrow
  | .rightParen | .rightBracket | .bar => true
  | _ => false

/-- Kinds behind which an expression starts, so that a brace opens an object and `function` a
function expression. -/
def precedesExpression : TokenKind → Bool
  | .assign | .compoundAssign | .leftParen | .arrowParen | .comma | .colon | .leftBracket
  | .question | .keyword .returnKw | .keyword .throwKw | .equality | .andOp | .orOp | .nullish
  | .multiplicative | .additive | .less | .greater | .bang | .tilde | .keyword .typeofKw
  | .keyword .voidKw | .keyword .deleteKw | .keyword .instanceofKw => true
  | _ => false

/-- Kinds behind which, between a function's parameters and its body, a brace opens a type. -/
def precedesTypeBrace : TokenKind → Bool
  | .colon | .less | .comma | .bar => true
  | _ => false

/-- Words whose parentheses are a header. -/
def opensHeader : TokenKind → Bool
  | .keyword .ifKw | .keyword .whileKw | .keyword .forKw => true
  | _ => false

/-- Words that start a function. -/
def startsFunction : TokenKind → Bool
  | .keyword .functionKw | .functionExpr => true
  | _ => false

end TokenKind

/-- What terminator insertion knows between two tokens. -/
structure TerminatorState where
  /-- The open brackets, the innermost first. -/
  stack : List Enclosure := []
  /-- The kind emitted last. -/
  last : Option TokenKind := none
  /-- The kind emitted before that. -/
  beforeLast : Option TokenKind := none
  /-- Whether the last token can end a statement. -/
  canTerminate : Bool := false
  /-- Whether the last token closed a block. -/
  closedBlock : Bool := false
  /-- Whether the parameters of a function have ended and its body has not started. -/
  awaitingBody : Bool := false
  /-- The line end that may become a terminator. -/
  pending : Option Location := none
  /-- The place of the last token. -/
  lastLoc : Option Location := none
  deriving DecidableEq, Repr

namespace TerminatorState

/-- Whether line ends count here: outside all brackets, or directly in a block. -/
def inStatementList (s : TerminatorState) : Bool :=
  match s.stack with
  | [] => true
  | top :: _ => top = .block

/-- The state behind an emitted kind, its memory of recent kinds alone. -/
def remember (s : TerminatorState) (kind : TokenKind) : TerminatorState :=
  { s with last := some kind, beforeLast := s.last }

/-- The state behind a terminator. -/
def terminated (s : TerminatorState) : TerminatorState :=
  { s with canTerminate := false, closedBlock := false }.remember .terminator

/-- What an opening parenthesis encloses here. -/
def parenEnclosure (s : TerminatorState) : Enclosure :=
  if s.last.any TokenKind.opensHeader then .header
  else if s.last.any TokenKind.startsFunction then .signature
  else if s.last = some .name ∧ s.beforeLast.any TokenKind.startsFunction then .signature
  else .paren

/-- What a kind opens here, if it is an opening bracket. -/
def opened? (s : TerminatorState) : TokenKind → Option Enclosure
  | .leftParen | .arrowParen => some s.parenEnclosure
  | .leftBracket => some .bracket
  | .leftBrace => some .block
  | .objectBrace => some .object
  | _ => none

/-- Whether a kind is a closing bracket. Any of them closes the innermost enclosure. -/
def closes : TokenKind → Bool
  | .rightParen | .rightBracket | .rightBrace => true
  | _ => false

/-- The enclosure that a kind closes here. -/
def closed? (s : TerminatorState) (kind : TokenKind) : Option Enclosure :=
  if closes kind then s.stack.head? else none

/-- The open brackets behind a kind. -/
def stackAfter (s : TerminatorState) (kind : TokenKind) : List Enclosure :=
  match s.opened? kind with
  | some enclosure => enclosure :: s.stack
  | none => if closes kind then s.stack.tail else s.stack

/-- The state behind a token that is no terminator. -/
def track (s : TerminatorState) (t : Token) : TerminatorState :=
  let closed : Option Enclosure := s.closed? t.kind
  let tracked : TerminatorState := { s with
    stack := s.stackAfter t.kind
    closedBlock := closed == some .block
    awaitingBody := s.awaitingBody || closed == some .signature
    canTerminate := t.kind.endsStatement && closed != some .header && closed != some .signature
    lastLoc := some t.loc }
  tracked.remember t.kind

/-- Whether a line end before this kind leaves the statement open. -/
def continues (s : TerminatorState) (kind : TokenKind) : Bool :=
  kind.continuesStatement || (kind = .keyword .elseKw && s.closedBlock)

/-- The kind a token has here, and whether a function body is still awaited behind it. -/
def retyped (s : TerminatorState) (kind : TokenKind) : TokenKind × Bool :=
  if kind = .leftBrace then
    if s.awaitingBody then
      if s.last.any TokenKind.precedesTypeBrace then (.objectBrace, true) else (.leftBrace, false)
    else if s.last.any TokenKind.precedesExpression then (.objectBrace, false)
    else (.leftBrace, false)
  else if kind = .keyword .functionKw ∧
      (s.last.any TokenKind.precedesExpression ∨ s.last = some .arrow) then
    (.functionExpr, s.awaitingBody)
  else (kind, s.awaitingBody)

/-- A terminator that no semicolon stands for. -/
def inserted (loc : Location) : Token := ⟨.terminator, [], loc⟩

/-- A line end: remembered if it may end a statement. -/
def newline (s : TerminatorState) (loc : Location) : TerminatorState :=
  if s.pending.isNone && s.canTerminate && s.inStatementList then { s with pending := some loc }
  else s

/-- Decides about the remembered line end when the next kind is known. -/
def settle (s : TerminatorState) (kind : TokenKind) : TerminatorState × List Token :=
  match s.pending with
  | none => (s, [])
  | some loc =>
    let s := { s with pending := none }
    if s.continues kind then (s, []) else (s.terminated, [inserted loc])

/-- The terminator before a brace that closes a block. -/
def closeStatement (s : TerminatorState) (t : Token) : TerminatorState × List Token :=
  if t.kind = .rightBrace ∧ s.canTerminate ∧ s.stack.head? = some .block then
    (s.terminated, [inserted t.loc])
  else (s, [])

/-- One token: the state behind it and the tokens emitted for it. -/
def step (s : TerminatorState) (t : Token) : TerminatorState × List Token :=
  if t.kind = .newline then (s.newline t.loc, [])
  else
    let (s, atLineEnd) := s.settle t.kind
    if t.kind = .semicolon then (s.terminated, atLineEnd ++ [t.retype .terminator])
    else
      let (s, atBrace) := s.closeStatement t
      let (kind, awaiting) := s.retyped t.kind
      let t := t.retype kind
      ({ s with awaitingBody := awaiting }.track t, atLineEnd ++ atBrace ++ [t])

/-- What the end of the text adds: a terminator if a statement is open. -/
def finish (s : TerminatorState) : List Token :=
  if s.canTerminate then
    match s.pending.or s.lastLoc with
    | some loc => [inserted loc]
    | none => []
  else []

/-- The tokens emitted from a state on. -/
def run (s : TerminatorState) : List Token → List Token
  | [] => s.finish
  | t :: rest =>
    let (after, emitted) := s.step t
    emitted ++ run after rest

end TerminatorState

/-- The tokens with every statement terminated, and without line feeds. -/
def Token.insertTerminators (ts : List Token) : List Token := ({} : TerminatorState).run ts

end TypeGloss
