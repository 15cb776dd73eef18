import TypeGloss.Parse.Expression

/-!
# Reading statements

A token where a statement is due starts a declaration, a control statement, a block or an
expression. A finished statement waits for the next token, because `else` may belong to it.
-/

namespace TypeGloss

namespace Parse

/-- A finished block is the body of a function, or a statement. -/
def endBlock (body : Node) : List Frame → State
  | .functionBody header params result :: frames =>
    let node := header.node params body result
    if header.isExpression then operandState node header.loc .callable frames
    else ⟨.finished node false, frames⟩
  | .arrowBlock start params :: frames =>
    operandState (.arrowFunction start false params body) start .complete frames
  | frames => ⟨.finished body false, frames⟩

/-- The token where a statement is due. -/
def statementStart (t : Token) (frames : List Frame) : Option State :=
  match t.kind with
  | .keyword .varKw | .keyword .letKw | .keyword .constKw =>
    some ⟨.declaratorName, .declarators t.loc t.text [] :: frames⟩
  | .keyword .functionKw => some ⟨.functionName t.loc false, frames⟩
  | .keyword .interfaceKw => some ⟨.interfaceName t.loc, frames⟩
  | .keyword .exportKw => some ⟨.exported t.loc false, frames⟩
  | .keyword .returnKw => some ⟨.operand, .returned t.loc :: frames⟩
  | .keyword .throwKw => some ⟨.operand, .thrown t.loc :: frames⟩
  | .keyword .breakKw => some ⟨.terminator (.breakStatement t.loc), frames⟩
  | .keyword .continueKw => some ⟨.terminator (.continueStatement t.loc), frames⟩
  | .keyword .ifKw => some ⟨.headerOpen .ifWord t.loc, frames⟩
  | .keyword .whileKw => some ⟨.headerOpen .whileWord t.loc, frames⟩
  | .keyword .forKw => some ⟨.headerOpen .forWord t.loc, frames⟩
  | .leftBrace => some ⟨.statement, .block t.loc [] :: frames⟩
  | .rightBrace =>
    match frames with
    | .block loc done :: frames => some (endBlock (.block loc done.reverse) frames)
    | _ => none
  | .terminator => some ⟨.finished (.emptyStatement t.loc) t.text.isEmpty, frames⟩
  | _ => operandStart t (.expression :: frames)

/-- The token behind a finished statement. -/
def statementNext (t : Token) (statement : Node) (silent : Bool) (frames : List Frame) :
    Option State :=
  if t.kind = .keyword .elseKw then
    (Frame.attachElse statement frames).map fun frames => ⟨.statement, frames⟩
  else
    match Frame.settle statement silent frames with
    | some frames => statementStart t frames
    | none => none

/-- Behind the name of a declarator. -/
def declaratorNext (t name : Token) (frames : List Frame) : Option State :=
  match t.kind with
  | .colon => some ⟨.typeOperand, .declaratorType name :: frames⟩
  | .assign => some ⟨.operand, .declaratorValue name .absent :: frames⟩
  | _ => endDeclarator t (declaratorNode name .absent .absent) frames

/-- The parameters of a function. -/
def paramsStart (t : Token) (header : Header) (frames : List Frame) : Option State :=
  if t.kind = .leftParen then some ⟨.paramName true, .paramList (.function header) [] :: frames⟩
  else none

/-- The name of a function, or its parameters if it has none. -/
def functionNameStart (t : Token) (loc : Location) (isExpression : Bool) (frames : List Frame) :
    Option State :=
  if t.kind = .name then
    some ⟨.functionParams ⟨loc, isExpression, identifier t .absent⟩, frames⟩
  else paramsStart t ⟨loc, isExpression, .absent⟩ frames

/-- A parameter, or the end of an empty list. -/
def paramStart (t : Token) (isFirst : Bool) (frames : List Frame) : Option State :=
  match t.kind, frames with
  | .name, _ => some ⟨.param t, frames⟩
  | .rightParen, .paramList owner done :: frames =>
    if isFirst then some (endParams owner done.reverse frames) else none
  | _, _ => none

/-- Behind the name of a parameter. -/
def paramNext (t name : Token) (frames : List Frame) : Option State :=
  match t.kind with
  | .colon => some ⟨.typeOperand, .paramType name :: frames⟩
  | .assign => some ⟨.operand, .paramDefault name .absent :: frames⟩
  | _ => endParam t (paramNode name .absent .absent) frames

/-- Behind the parameters of a function: its result type, or its body. -/
def functionTail (t : Token) (header : Header) (params : List Node) (frames : List Frame) :
    Option State :=
  if t.kind = .colon then some ⟨.typeOperand, .resultType header params :: frames⟩
  else openBody t header params .absent frames

/-- The parenthesis behind `if`, `while` or `for`. -/
def headerStart (t : Token) (word : HeaderWord) (loc : Location) (frames : List Frame) :
    Option State :=
  if t.kind = .leftParen then
    let frame : Frame := match word with
      | .ifWord => .ifTest loc
      | .whileWord => .whileTest loc
      | .forWord => .forInit loc
    some ⟨.operand, frame :: frames⟩
  else none

/-- What is exported: a function or a declaration, as the default or under its names. -/
def exportStart (t : Token) (loc : Location) (isDefault : Bool) (frames : List Frame) :
    Option State :=
  match t.kind with
  | .keyword .defaultKw => if isDefault then none else some ⟨.exported loc true, frames⟩
  | .keyword .functionKw => some ⟨.functionName t.loc false, .exported loc isDefault :: frames⟩
  | .keyword .varKw | .keyword .letKw | .keyword .constKw =>
    some ⟨.declaratorName, .declarators t.loc t.text [] :: .exported loc isDefault :: frames⟩
  | _ => none

end Parse

end TypeGloss
