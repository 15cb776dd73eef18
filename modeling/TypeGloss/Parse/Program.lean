import TypeGloss.Parse.Statement

/-!
# Reading a program

The parser runs over the tokens once, from left to right. It fails at the first token with which no
program can continue what has been read.
-/

namespace TypeGloss

namespace Parse

/-- A state with one further expected token, of a given kind. -/
def expect (t : Token) (kind : TokenKind) (state : State) : Option State :=
  if t.kind = kind then some state else none

/-- The state behind a token, or nothing if the token cannot stand here. -/
def step (s : State) (t : Token) : Option State :=
  let frames := s.frames
  match s.focus with
  | .statement => statementStart t frames
  | .finished statement silent => statementNext t statement silent frames
  | .operand => operandStart t frames
  | .operator x => operatorNext t x frames
  | .comparison left operator => comparisonNext t left operator frames
  | .selector x => selectorName t x frames
  | .newName loc => expect t .name ⟨.newCallee loc (identifier t .absent), frames⟩
  | .newCallee loc callee => newNext t loc callee frames
  | .newSelector loc callee =>
    expect t .name
      ⟨.newCallee loc (.member callee.loc false callee (identifier t .absent) false), frames⟩
  | .property => propertyStart t frames
  | .propertyName name => propertyNext t name frames
  | .propertyColon key => expect t .colon ⟨.operand, .propertyValue key.loc key :: frames⟩
  | .arrowSign start params => expect t .arrow ⟨.arrowBody start params, frames⟩
  | .arrowBody start params => arrowBodyStart t start params frames
  | .typeOperand => typeStart t frames
  | .typeOperator x => typeNext t x frames
  | .arrayEnd x => arrayTypeEnd t x frames
  | .typeParamName isFirst => typeParamStart t isFirst frames
  | .typeParamColon name => expect t .colon ⟨.typeOperand, .typeParam name :: frames⟩
  | .typeArrow loc params => expect t .arrow ⟨.typeOperand, .functionResult loc params :: frames⟩
  | .member => memberStart t frames
  | .memberKey loc key => memberNext t loc key frames
  | .memberColon loc key => expect t .colon ⟨.typeOperand, .memberType loc key true :: frames⟩
  | .declaratorName => expect t .name ⟨.declarator t, frames⟩
  | .declarator name => declaratorNext t name frames
  | .functionName loc isExpression => functionNameStart t loc isExpression frames
  | .functionParams header => paramsStart t header frames
  | .paramName isFirst => paramStart t isFirst frames
  | .param name => paramNext t name frames
  | .functionTail header params => functionTail t header params frames
  | .interfaceName loc => expect t .name ⟨.interfaceBody loc (identifier t .absent), frames⟩
  | .interfaceBody loc name =>
    expect t .leftBrace ⟨.member, .members t.loc (.interface loc name) [] :: frames⟩
  | .headerOpen word loc => headerStart t word loc frames
  | .exported loc isDefault => exportStart t loc isDefault frames
  | .terminator statement => expect t .terminator ⟨.finished statement false, frames⟩

/-- Where every program starts. -/
def start : State := ⟨.statement, [.program []]⟩

/-- The program that a state completes, if nothing is open. -/
def finish? (s : State) : Option Node :=
  let frames? := match s.focus with
    | .statement => some s.frames
    | .finished statement silent => Frame.settle statement silent s.frames
    | _ => none
  match frames? with
  | some [.program done] => some (.program .first done.reverse)
  | _ => none

/-- Why tokens are no program. -/
inductive Stuck where
  /-- The first token that cannot stand where it stands. -/
  | token (t : Token)
  /-- The tokens end too early; the place of their end is given. -/
  | ending (loc : Location)
  deriving DecidableEq, Repr

/-- Where tokens end behind a last one: at that token. If it has no text, as an inserted terminator
has none, there is no place to show but the start of the whole text. -/
def endBehind (t : Token) : Location := if t.text.isEmpty then .first else t.loc

/-- Reads tokens from a state on; `ending` is where the tokens before them end. -/
def run (s : State) (ending : Location) : List Token → Except Stuck Node
  | [] =>
    match finish? s with
    | some program => .ok program
    | none => .error (.ending ending)
  | t :: rest =>
    match step s t with
    | some s => run s (endBehind t) rest
    | none => .error (.token t)

/-- The program that tokens make up. -/
def program (ts : List Token) : Except Stuck Node := run start .first ts

end Parse

end TypeGloss
