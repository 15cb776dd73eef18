import TypeGloss.Parse.Frame

/-!
# Reading types

A type is a name with arguments, a body in braces, a function type, or a type in parentheses, then
any number of `[]`, and `|` between such types. A function type takes in everything behind its
arrow that can belong to its result.
-/

namespace TypeGloss

namespace Parse

/-- The names that stand for themselves when they have no arguments. -/
def keywordTypes : List Text :=
  ["any", "unknown", "never", "number", "string", "boolean", "object", "undefined", "symbol",
    "bigint"]

/-- The type that a name with arguments stands for. -/
def namedType (loc : Location) (name : Text) (arguments : List Node) : Node :=
  if arguments.isEmpty && keywordTypes.contains name then .keywordType loc name
  else .typeReference loc name arguments

/-- A finished declarator or parameter: its name with the annotation, and its value if any. -/
def declaratorNode (name : Token) (typing value : Node) : Node :=
  .declarator name.loc (identifier name typing) value

/-- A finished parameter; a default value makes it a pattern of its own. -/
def paramNode (name : Token) (typing value : Node) : Node :=
  if value.isAbsent then identifier name typing
  else .defaultParam name.loc (identifier name typing) value

/-- Ends a list of declarators. In the header of a loop the condition comes next; elsewhere the
declaration is a finished statement. -/
def endDeclarators (declaration : Node) : List Frame → State
  | .forInit loc :: frames => ⟨.operand, .forTest loc declaration :: frames⟩
  | frames => ⟨.finished declaration false, frames⟩

/-- A declarator is complete: a comma leads to the next one, a terminator ends the list. -/
def endDeclarator (t : Token) (declarator : Node) : List Frame → Option State
  | .declarators loc keyword done :: frames =>
    match t.kind with
    | .comma => some ⟨.declaratorName, .declarators loc keyword (declarator :: done) :: frames⟩
    | .terminator =>
      some (endDeclarators (.variableDeclaration loc keyword (declarator :: done).reverse) frames)
    | _ => none
  | _ => none

/-- Ends a list of parameters. -/
def endParams (owner : ParamOwner) (params : List Node) (frames : List Frame) : State :=
  match owner with
  | .function header => ⟨.functionTail header params, frames⟩
  | .arrow start => ⟨.arrowSign start params, frames⟩

/-- A parameter is complete: a comma leads to the next one, a parenthesis ends the list. -/
def endParam (t : Token) (param : Node) : List Frame → Option State
  | .paramList owner done :: frames =>
    match t.kind with
    | .comma => some ⟨.paramName false, .paramList owner (param :: done) :: frames⟩
    | .rightParen => some (endParams owner (param :: done).reverse frames)
    | _ => none
  | _ => none

/-- Opens the body of a function. -/
def openBody (t : Token) (header : Header) (params : List Node) (result : Node)
    (frames : List Frame) : Option State :=
  if t.kind = .leftBrace then
    some ⟨.statement, .block t.loc [] :: .functionBody header params result :: frames⟩
  else none

/-- Ends a type body. -/
def endMembers : List Frame → Option State
  | .members loc .literal done :: frames =>
    some ⟨.typeOperator ⟨.typeLiteral loc done.reverse, loc, none⟩, frames⟩
  | .members _ (.interface loc name) done :: frames =>
    some ⟨.finished (.interfaceDeclaration loc name done.reverse) false, frames⟩
  | _ => none

/-- A type member is complete: a separator leads to the next one, a brace ends the body. -/
def endMember (t : Token) (member : Node) : List Frame → Option State
  | .members loc owner done :: frames =>
    match t.kind with
    | .comma | .terminator => some ⟨.member, .members loc owner (member :: done) :: frames⟩
    | .rightBrace => endMembers (.members loc owner (member :: done) :: frames)
    | _ => none
  | _ => none

/-- A finished type goes to the frame that waits for it, if the next token agrees. -/
def deliverType (t : Token) (type : Node) : List Frame → Option State
  | .typeGroup loc :: frames =>
    if t.kind = .rightParen then some ⟨.typeOperator ⟨type, loc, none⟩, frames⟩ else none
  | .typeArguments loc name done :: frames =>
    match t.kind with
    | .comma => some ⟨.typeOperand, .typeArguments loc name (type :: done) :: frames⟩
    | .greater =>
      some ⟨.typeOperator ⟨namedType loc name (type :: done).reverse, loc, none⟩, frames⟩
    | _ => none
  | .memberType loc key optional :: frames =>
    endMember t (.propertySignature loc key type optional) frames
  | .typeParam name :: .typeParamList loc done :: frames =>
    let done := identifier name type :: done
    match t.kind with
    | .comma => some ⟨.typeParamName false, .typeParamList loc done :: frames⟩
    | .rightParen => some ⟨.typeArrow loc done.reverse, frames⟩
    | _ => none
  | .declaratorType name :: frames =>
    if t.kind = .assign then some ⟨.operand, .declaratorValue name type :: frames⟩
    else endDeclarator t (declaratorNode name type .absent) frames
  | .paramType name :: frames =>
    if t.kind = .assign then some ⟨.operand, .paramDefault name type :: frames⟩
    else endParam t (paramNode name type .absent) frames
  | .resultType header params :: frames => openBody t header params type frames
  | _ => none

/-- The token that starts a type. -/
def typeStart (t : Token) (frames : List Frame) : Option State :=
  match t.kind with
  | .name => some ⟨.typeOperator ⟨namedType t.loc t.text [], t.loc, some t.text⟩, frames⟩
  | .keyword .nullKw | .keyword .voidKw =>
    some ⟨.typeOperator ⟨.keywordType t.loc t.text, t.loc, none⟩, frames⟩
  | .objectBrace => some ⟨.member, .members t.loc .literal [] :: frames⟩
  | .arrowParen => some ⟨.typeParamName true, .typeParamList t.loc [] :: frames⟩
  | .leftParen => some ⟨.typeOperand, .typeGroup t.loc :: frames⟩
  | _ => none

/-- The token behind a type. -/
def typeNext (t : Token) (x : TypeOperand) (frames : List Frame) : Option State :=
  match t.kind, x.bare with
  | .leftBracket, _ => some ⟨.arrayEnd x, frames⟩
  | .less, some name => some ⟨.typeOperand, .typeArguments x.start name [] :: frames⟩
  | .bar, _ =>
    match frames with
    | .union start done :: frames => some ⟨.typeOperand, .union start (x.node :: done) :: frames⟩
    | frames => some ⟨.typeOperand, .union x.start [x.node] :: frames⟩
  | _, _ =>
    let (type, frames) := Frame.closeType x.node frames
    deliverType t type frames

/-- The bracket that completes an array type. -/
def arrayTypeEnd (t : Token) (x : TypeOperand) (frames : List Frame) : Option State :=
  if t.kind = .rightBracket then
    some ⟨.typeOperator ⟨.arrayType x.start x.node, x.start, none⟩, frames⟩
  else none

/-- A parameter of a function type, or the end of an empty list. -/
def typeParamStart (t : Token) (isFirst : Bool) (frames : List Frame) : Option State :=
  match t.kind, frames with
  | .name, _ => some ⟨.typeParamColon t, frames⟩
  | .rightParen, .typeParamList loc done :: frames =>
    if isFirst then some ⟨.typeArrow loc done.reverse, frames⟩ else none
  | _, _ => none

/-- The key of a type member, or the end of the body. -/
def memberStart (t : Token) (frames : List Frame) : Option State :=
  match t.kind with
  | .name => some ⟨.memberKey t.loc (.name t.text), frames⟩
  | .string => some ⟨.memberKey t.loc (.string t.text), frames⟩
  | .number => some ⟨.memberKey t.loc (.number t.text), frames⟩
  | .rightBrace => endMembers frames
  | _ => none

/-- The token behind the key of a type member. -/
def memberNext (t : Token) (loc : Location) (key : MemberKey) (frames : List Frame) :
    Option State :=
  match t.kind with
  | .question => some ⟨.memberColon loc key, frames⟩
  | .colon => some ⟨.typeOperand, .memberType loc key false :: frames⟩
  | _ => none

end Parse

end TypeGloss
