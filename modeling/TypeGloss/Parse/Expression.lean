import TypeGloss.Parse.Type

/-!
# Reading expressions

Where an operand is due, a token starts one or opens a bracket. Behind an operand, a token extends
it, makes it the left operand of an operator that binds less tightly than what came before, or ends
the expression and hands it to the construct around it.
-/

namespace TypeGloss

namespace Parse

/-- A finished operand. -/
def operandState (node : Node) (loc : Location) (grip : Grip) (frames : List Frame) : State :=
  ⟨.operator ⟨node, loc, grip⟩, frames⟩

/-- The node of a call, with `new` or without. -/
def callNode (isNew : Bool) (start : Location) (callee : Node) (arguments : List Node) : Node :=
  if isNew then .construction start false callee arguments else .call start false callee arguments

/-- The tokens that stand for a whole operand. -/
def atom? (t : Token) : Option (Node × Grip) :=
  match t.kind with
  | .name => some (identifier t .absent, .name)
  | .number => some (.number t.loc false t.text, .callable)
  | .string => some (.string t.loc false t.text, .callable)
  | .template => some (.template t.loc false t.text, .callable)
  | .keyword .trueKw => some (.boolean t.loc false true, .callable)
  | .keyword .falseKw => some (.boolean t.loc false false, .callable)
  | .keyword .nullKw => some (.null t.loc false, .callable)
  | .keyword .thisKw => some (.this t.loc false, .callable)
  | _ => none

/-- The tokens that open an operand, and the frame and the focus behind them. -/
def opening? (t : Token) : Option (Focus × List Frame) :=
  match t.kind with
  | .leftParen => some (.operand, [.group t.loc])
  | .leftBracket => some (.operand, [.elements t.loc []])
  | .objectBrace => some (.property, [.properties t.loc []])
  | .functionExpr => some (.functionName t.loc true, [])
  | .keyword .newKw => some (.newName t.loc, [])
  | .additive | .bang | .tilde | .keyword .typeofKw | .keyword .voidKw | .keyword .deleteKw =>
    some (.operand, [.unary t.loc t.text])
  | .incDec => some (.operand, [.update t.loc t.text])
  | _ => none

/-- What may stand in place of an operand, depending on the innermost frame: the end of an empty
list, a hole, a part that is left out, or a declaration in the header of a loop. -/
def omission? (t : Token) : List Frame → Option State
  | .arguments start callee isNew [] :: frames =>
    if t.kind = .rightParen then
      some (operandState (callNode isNew start callee []) start .callable frames)
    else none
  | .elements loc done :: frames =>
    match t.kind with
    | .comma => some ⟨.operand, .elements loc (.absent :: done) :: frames⟩
    | .rightBracket => some (operandState (.array loc false done.reverse) loc .callable frames)
    | _ => none
  | .returned loc :: frames =>
    if t.kind = .terminator then some ⟨.finished (.returnStatement loc .absent) false, frames⟩
    else none
  | .forInit loc :: frames =>
    match t.kind with
    | .terminator => some ⟨.operand, .forTest loc .absent :: frames⟩
    | .keyword .varKw | .keyword .letKw | .keyword .constKw =>
      some ⟨.declaratorName, .declarators t.loc t.text [] :: .forInit loc :: frames⟩
    | _ => none
  | .forTest loc initializer :: frames =>
    if t.kind = .terminator then some ⟨.operand, .forStep loc initializer .absent :: frames⟩
    else none
  | .forStep loc initializer test :: frames =>
    if t.kind = .rightParen then
      some ⟨.statement, .forBody loc initializer test .absent :: frames⟩
    else none
  | _ => none

/-- The token where an operand is due. -/
def operandStart (t : Token) (frames : List Frame) : Option State :=
  match atom? t with
  | some (node, grip) => some (operandState node t.loc grip frames)
  | none =>
    match opening? t with
    | some (focus, opened) => some ⟨focus, opened ++ frames⟩
    | none =>
      if t.kind = .arrowParen then
        if Frame.awaitsOperand frames then none
        else some ⟨.paramName true, .paramList (.arrow t.loc) [] :: frames⟩
      else omission? t frames

/-- Ends a property of an object: a comma leads to the next one, a brace ends the object. -/
def endProperty (t : Token) (property : Node) : List Frame → Option State
  | .properties loc done :: frames =>
    match t.kind with
    | .comma => some ⟨.property, .properties loc (property :: done) :: frames⟩
    | .rightBrace =>
      some (operandState (.object loc false (property :: done).reverse) loc .callable frames)
    | _ => none
  | _ => none

/-- A finished expression before a comma goes to a list, or starts or prolongs a sequence. -/
def deliverItem (t : Token) (node : Node) (start : Location) : List Frame → Option State
  | .sequence seqStart done :: frames => some ⟨.operand, .sequence seqStart (node :: done) :: frames⟩
  | .arguments callStart callee isNew done :: frames =>
    some ⟨.operand, .arguments callStart callee isNew (node :: done) :: frames⟩
  | .elements loc done :: frames => some ⟨.operand, .elements loc (node :: done) :: frames⟩
  | .propertyValue loc key :: frames => endProperty t (.property loc key node false) frames
  | .declaratorValue name typing :: frames =>
    endDeclarator t (declaratorNode name typing node) frames
  | .paramDefault name typing :: frames =>
    endParam t (paramNode name typing node) frames
  | frame :: frames =>
    if frame.acceptsSequence then some ⟨.operand, .sequence start [node] :: frame :: frames⟩
    else none
  | [] => none

/-- A finished sequence becomes one expression. -/
def endSequence (node : Node) (start : Location) : List Frame → Node × Location × List Frame
  | .sequence seqStart done :: frames =>
    (.sequence seqStart false (node :: done).reverse, seqStart, frames)
  | frames => (node, start, frames)

/-- A finished expression before a token that ends it goes to the construct that waits for it. -/
def deliverLast (t : Token) (node : Node) (start : Location) : List Frame → Option State
  | .conditionThen testStart test :: frames =>
    if t.kind = .colon then some ⟨.operand, .conditionElse testStart test node :: frames⟩ else none
  | .group loc :: frames =>
    if t.kind = .rightParen then some (operandState node.wrap loc .callable frames) else none
  | .index valueStart value :: frames =>
    if t.kind = .rightBracket then
      some (operandState (.member valueStart false value node true) valueStart .callable frames)
    else none
  | .arguments callStart callee isNew done :: frames =>
    if t.kind = .rightParen then
      some (operandState (callNode isNew callStart callee (node :: done).reverse) callStart
        .callable frames)
    else none
  | .elements loc done :: frames =>
    if t.kind = .rightBracket then
      some (operandState (.array loc false (node :: done).reverse) loc .callable frames)
    else none
  | .propertyValue loc key :: frames => endProperty t (.property loc key node false) frames
  | .declaratorValue name typing :: frames =>
    endDeclarator t (declaratorNode name typing node) frames
  | .paramDefault name typing :: frames =>
    endParam t (paramNode name typing node) frames
  | .ifTest loc :: frames =>
    if t.kind = .rightParen then some ⟨.statement, .thenBranch loc node :: frames⟩ else none
  | .whileTest loc :: frames =>
    if t.kind = .rightParen then some ⟨.statement, .whileBody loc node :: frames⟩ else none
  | .forStep loc initializer test :: frames =>
    if t.kind = .rightParen then some ⟨.statement, .forBody loc initializer test node :: frames⟩
    else none
  | .forInit loc :: frames =>
    if t.kind = .terminator then some ⟨.operand, .forTest loc node :: frames⟩ else none
  | .forTest loc initializer :: frames =>
    if t.kind = .terminator then some ⟨.operand, .forStep loc initializer node :: frames⟩ else none
  | .expression :: frames =>
    if t.kind = .terminator then some ⟨.finished (.expressionStatement start node) false, frames⟩
    else none
  | .returned loc :: frames =>
    if t.kind = .terminator then some ⟨.finished (.returnStatement loc node) false, frames⟩
    else none
  | .thrown loc :: frames =>
    if t.kind = .terminator then some ⟨.finished (.throwStatement loc node) false, frames⟩
    else none
  | _ => none

/-- The token that ends an expression. -/
def expressionEnd (t : Token) (x : Operand) (frames : List Frame) : Option State :=
  let (node, start, frames) := Frame.close x.node x.start frames
  if t.kind = .comma then deliverItem t node start frames
  else
    let (node, start, frames) := endSequence node start frames
    deliverLast t node start frames

/-- A token that extends an operand that may be called: arguments, a selector, an index or an
update behind it. -/
def suffix? (t : Token) (x : Operand) (frames : List Frame) : Option State :=
  match t.kind with
  | .leftParen => some ⟨.operand, .arguments x.start x.node false [] :: frames⟩
  | .dot => some ⟨.selector x, frames⟩
  | .leftBracket => some ⟨.operand, .index x.start x.node :: frames⟩
  | .incDec =>
    some (operandState (.update x.start false t.text false x.node) x.start .operand frames)
  | _ => none

/-- An assignment sign or an arrow behind an operand, where an assignment may stand. -/
def binding? (t : Token) (x : Operand) (frames : List Frame) : Option State :=
  match t.kind with
  | .assign | .compoundAssign => some ⟨.operand, .assigned x.start x.node t.text :: frames⟩
  | .arrow => if x.grip = .name then some ⟨.arrowBody x.start [x.node], frames⟩ else none
  | _ => none

/-- A binary operator or a question mark behind an operand. -/
def infixNext (t : Token) (x : Operand) (frames : List Frame) : Option State :=
  match Level.ofKind? t.kind with
  | some level =>
    let (left, start, frames) := Frame.closeTighter level x.node x.start frames
    if t.kind = .less ∨ t.kind = .greater then
      some ⟨.comparison ⟨left, start, .operand⟩ t.text, frames⟩
    else some ⟨.operand, .rightOf start left t.text level :: frames⟩
  | none =>
    if t.kind = .question then
      let (test, start, frames) := Frame.closeTighter .orElse x.node x.start frames
      some ⟨.operand, .conditionThen start test :: frames⟩
    else expressionEnd t x frames

/-- The token behind an operand. -/
def operatorNext (t : Token) (x : Operand) (frames : List Frame) : Option State :=
  match x.grip with
  | .complete => expressionEnd t x frames
  | .operand => infixNext t x frames
  | .callable | .name =>
    match suffix? t x frames with
    | some state => some state
    | none =>
      match if Frame.awaitsOperand frames then none else binding? t x frames with
      | some state => some state
      | none => infixNext t x frames

/-- Behind `<` or `>`: an equals sign belongs to the operator, anything else starts the operand. -/
def comparisonNext (t : Token) (left : Operand) (operator : Text) (frames : List Frame) :
    Option State :=
  if t.kind = .assign then
    some ⟨.operand, .rightOf left.start left.node (operator ++ t.text) .relational :: frames⟩
  else operandStart t (.rightOf left.start left.node operator .relational :: frames)

/-- The name behind a point. -/
def selectorName (t : Token) (x : Operand) (frames : List Frame) : Option State :=
  if t.kind = .name then
    some (operandState (.member x.start false x.node (identifier t .absent) false) x.start
      .callable frames)
  else none

/-- Behind the name of what is constructed: a further name, or the arguments. -/
def newNext (t : Token) (loc : Location) (callee : Node) (frames : List Frame) : Option State :=
  match t.kind with
  | .dot => some ⟨.newSelector loc callee, frames⟩
  | .leftParen => some ⟨.operand, .arguments loc callee true [] :: frames⟩
  | _ => none

/-- A property of an object, or the end of the object. -/
def propertyStart (t : Token) (frames : List Frame) : Option State :=
  match t.kind, frames with
  | .name, _ => some ⟨.propertyName t, frames⟩
  | .string, _ => some ⟨.propertyColon (.string t.loc false t.text), frames⟩
  | .number, _ => some ⟨.propertyColon (.number t.loc false t.text), frames⟩
  | .rightBrace, .properties loc done :: frames =>
    some (operandState (.object loc false done.reverse) loc .callable frames)
  | _, _ => none

/-- Behind a name that starts a property: its value, or its end if the name is also the value. -/
def propertyNext (t name : Token) (frames : List Frame) : Option State :=
  if t.kind = .colon then
    some ⟨.operand, .propertyValue name.loc (identifier name .absent) :: frames⟩
  else
    endProperty t (.property name.loc (identifier name .absent) (identifier name .absent) true)
      frames

/-- The body of an arrow function: a block, or an expression. -/
def arrowBodyStart (t : Token) (start : Location) (params : List Node) (frames : List Frame) :
    Option State :=
  if t.kind = .leftBrace then
    some ⟨.statement, .block t.loc [] :: .arrowBlock start params :: frames⟩
  else operandStart t (.arrowResult start params :: frames)

end Parse

end TypeGloss
