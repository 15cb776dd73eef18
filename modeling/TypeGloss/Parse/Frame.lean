import TypeGloss.Syntax.Node
import TypeGloss.Token

/-!
# What is open while a program is read

The parser reads one token at a time. Its state is a focus, which says what may come next, and a
stack of frames, each a construct that has begun and still lacks a part. This module defines both
and the ways in which a finished part fills the frames around it.

A location is kept apart from a node where the node's text starts earlier than the node itself: a
parenthesised expression or type keeps its own location, while everything built around it starts at
the parenthesis.
-/

namespace TypeGloss

namespace Parse

/-- How an expression that has just been read may grow. -/
inductive Grip where
  /-- A bare name: it may also become the parameter of an arrow function. -/
  | name
  /-- It may be called, indexed, assigned to and updated, and be an operand. -/
  | callable
  /-- It may only be an operand. -/
  | operand
  /-- Nothing can be attached: an arrow function whose body is a block. -/
  | complete
  deriving DecidableEq, Repr

/-- An expression that has just been read. -/
structure Operand where
  /-- The expression. -/
  node : Node
  /-- Where its text starts. -/
  start : Location
  /-- How it may grow. -/
  grip : Grip

/-- A type that has just been read. -/
structure TypeOperand where
  /-- The type. -/
  node : Node
  /-- Where its text starts. -/
  start : Location
  /-- The name, if the type is a bare name that may take arguments. -/
  bare : Option Text

/-- The binary operators from the loosest to the tightest. All of them group to the left. -/
inductive Level where
  | orElse
  | andThen
  | equality
  | relational
  | additive
  | multiplicative
  deriving DecidableEq, Repr

/-- The place of a level in the order of tightness. -/
def Level.rank : Level → Nat
  | .orElse => 0
  | .andThen => 1
  | .equality => 2
  | .relational => 3
  | .additive => 4
  | .multiplicative => 5

/-- The level of an operator kind. -/
def Level.ofKind? : TokenKind → Option Level
  | .orOp | .nullish => some .orElse
  | .andOp => some .andThen
  | .equality => some .equality
  | .less | .greater | .keyword .instanceofKw => some .relational
  | .additive => some .additive
  | .multiplicative => some .multiplicative
  | _ => none

/-- The node of an operator with both operands. -/
def Level.node (level : Level) (loc : Location) (operator : Text) (left right : Node) : Node :=
  match level with
  | .orElse | .andThen => .logical loc false operator left right
  | _ => .binary loc false operator left right

/-- A function up to its parameters. -/
structure Header where
  /-- Where the function starts. -/
  loc : Location
  /-- Whether the function stands as an expression. -/
  isExpression : Bool
  /-- The name, if any. -/
  name : Node

/-- The node of a function with all its parts. -/
def Header.node (header : Header) (params : List Node) (body result : Node) : Node :=
  if header.isExpression then
    .functionExpression header.loc false header.name params body result
  else .functionDeclaration header.loc header.name params body result

/-- What a list of parameters belongs to. -/
inductive ParamOwner where
  /-- A function with the word `function`. -/
  | function (header : Header)
  /-- An arrow function, by its start. -/
  | arrow (start : Location)

/-- What a list of type members belongs to. -/
inductive MemberOwner where
  /-- A type literal. -/
  | literal
  /-- An interface, by its start and its name. -/
  | interface (loc : Location) (name : Node)

/-- A construct that has begun. Parts already read are kept, lists with the latest part first. -/
inductive Frame where
  -- Operators that lack their last operand.
  | unary (loc : Location) (operator : Text)
  | update (loc : Location) (operator : Text)
  | rightOf (start : Location) (left : Node) (operator : Text) (level : Level)
  | conditionElse (start : Location) (test consequent : Node)
  | assigned (start : Location) (target : Node) (operator : Text)
  | arrowResult (start : Location) (params : List Node)
  -- Expressions that end with a sign.
  | conditionThen (start : Location) (test : Node)
  | sequence (start : Location) (done : List Node)
  | group (loc : Location)
  | index (start : Location) (value : Node)
  | arguments (start : Location) (callee : Node) (isNew : Bool) (done : List Node)
  | elements (loc : Location) (done : List Node)
  | properties (loc : Location) (done : List Node)
  | propertyValue (loc : Location) (key : Node)
  -- Types.
  | union (start : Location) (done : List Node)
  | functionResult (loc : Location) (params : List Node)
  | typeGroup (loc : Location)
  | typeArguments (loc : Location) (name : Text) (done : List Node)
  | members (loc : Location) (owner : MemberOwner) (done : List Node)
  | memberType (loc : Location) (key : MemberKey) (optional : Bool)
  | typeParamList (loc : Location) (done : List Node)
  | typeParam (name : Token)
  -- Declarations.
  | declarators (loc : Location) (keyword : Text) (done : List Node)
  | declaratorType (name : Token)
  | declaratorValue (name : Token) (typing : Node)
  | paramList (owner : ParamOwner) (done : List Node)
  | paramType (name : Token)
  | paramDefault (name : Token) (typing : Node)
  | resultType (header : Header) (params : List Node)
  | functionBody (header : Header) (params : List Node) (result : Node)
  | arrowBlock (start : Location) (params : List Node)
  -- Statements.
  | program (done : List Node)
  | block (loc : Location) (done : List Node)
  | expression
  | returned (loc : Location)
  | thrown (loc : Location)
  | ifTest (loc : Location)
  | thenBranch (loc : Location) (test : Node)
  | elseBranch (loc : Location) (test consequent : Node)
  | whileTest (loc : Location)
  | whileBody (loc : Location) (test : Node)
  | forInit (loc : Location)
  | forTest (loc : Location) (initializer : Node)
  | forStep (loc : Location) (initializer test : Node)
  | forBody (loc : Location) (initializer test step : Node)
  | exported (loc : Location) (isDefault : Bool)

/-- The statements whose condition stands in parentheses. -/
inductive HeaderWord where
  | ifWord
  | whileWord
  | forWord
  deriving DecidableEq, Repr

/-- What may come next. -/
inductive Focus where
  /-- A statement. -/
  | statement
  /-- A statement is finished; `else` may belong to it. A silent one is no statement of its own. -/
  | finished (statement : Node) (silent : Bool)
  /-- An operand. -/
  | operand
  /-- Something behind an operand. -/
  | operator (operand : Operand)
  /-- Behind `<` or `>`, which `=` may prolong. -/
  | comparison (left : Operand) (operator : Text)
  /-- The name behind a point. -/
  | selector (value : Operand)
  /-- The name behind `new`. -/
  | newName (loc : Location)
  /-- A point or the arguments, behind the name of what is constructed. -/
  | newCallee (loc : Location) (callee : Node)
  /-- The name behind a point in what is constructed. -/
  | newSelector (loc : Location) (callee : Node)
  /-- A property of an object, or its end. -/
  | property
  /-- A property that began with a name. -/
  | propertyName (name : Token)
  /-- The colon behind any other key. -/
  | propertyColon (key : Node)
  /-- The sign `=>`. -/
  | arrowSign (start : Location) (params : List Node)
  /-- The body of an arrow function. -/
  | arrowBody (start : Location) (params : List Node)
  /-- A type. -/
  | typeOperand
  /-- Something behind a type. -/
  | typeOperator (operand : TypeOperand)
  /-- The bracket that completes an array type. -/
  | arrayEnd (element : TypeOperand)
  /-- A parameter of a function type; or the end of the list, if it is the first. -/
  | typeParamName (isFirst : Bool)
  /-- The colon behind a parameter of a function type. -/
  | typeParamColon (name : Token)
  /-- The sign `=>` of a function type. -/
  | typeArrow (loc : Location) (params : List Node)
  /-- A type member, or the end of the body. -/
  | member
  /-- Behind the key of a type member. -/
  | memberKey (loc : Location) (key : MemberKey)
  /-- The colon behind the key of an optional member. -/
  | memberColon (loc : Location) (key : MemberKey)
  /-- The name of a declarator. -/
  | declaratorName
  /-- Behind the name of a declarator. -/
  | declarator (name : Token)
  /-- The name of a function, or its parameters. -/
  | functionName (loc : Location) (isExpression : Bool)
  /-- The parameters of a function. -/
  | functionParams (header : Header)
  /-- A parameter; or the end of the list, if it is the first. -/
  | paramName (isFirst : Bool)
  /-- Behind the name of a parameter. -/
  | param (name : Token)
  /-- The result type or the body of a function. -/
  | functionTail (header : Header) (params : List Node)
  /-- The name of an interface. -/
  | interfaceName (loc : Location)
  /-- The body of an interface. -/
  | interfaceBody (loc : Location) (name : Node)
  /-- The parenthesis behind `if`, `while` or `for`. -/
  | headerOpen (word : HeaderWord) (loc : Location)
  /-- What is exported. -/
  | exported (loc : Location) (isDefault : Bool)
  /-- The terminator of a statement that is otherwise finished. -/
  | terminator (statement : Node)

/-- The state of the parser between two tokens. -/
structure State where
  /-- What may come next. -/
  focus : Focus
  /-- The constructs that have begun, the innermost first. -/
  frames : List Frame

namespace Frame

/-- Whether an operator is waiting for this operand, so that only an operand may stand here and no
assignment, condition or arrow function. -/
def awaitsOperand : List Frame → Bool
  | .unary .. :: _ | .update .. :: _ | .rightOf .. :: _ => true
  | _ => false

/-- Whether a comma-separated sequence of expressions may stand here. -/
def acceptsSequence : Frame → Bool
  | .group .. | .index .. | .expression | .returned .. | .thrown .. | .ifTest .. | .whileTest ..
  | .forInit .. | .forTest .. | .forStep .. => true
  | _ => false

/-- Gives a finished operand to the operators that bind at least as tightly as a level. -/
def closeTighter (level : Level) (node : Node) (start : Location) :
    List Frame → Node × Location × List Frame
  | .unary loc operator :: frames =>
    closeTighter level (.unary loc false operator node) loc frames
  | .update loc operator :: frames =>
    closeTighter level (.update loc false operator true node) loc frames
  | .rightOf leftStart left operator inner :: frames =>
    if level.rank ≤ inner.rank then
      closeTighter level (inner.node leftStart operator left node) leftStart frames
    else (node, start, .rightOf leftStart left operator inner :: frames)
  | frames => (node, start, frames)

/-- Gives a finished expression to everything that ends where it ends. -/
def close (node : Node) (start : Location) : List Frame → Node × Location × List Frame
  | .unary loc operator :: frames => close (.unary loc false operator node) loc frames
  | .update loc operator :: frames => close (.update loc false operator true node) loc frames
  | .rightOf leftStart left operator level :: frames =>
    close (level.node leftStart operator left node) leftStart frames
  | .conditionElse testStart test consequent :: frames =>
    close (.conditional testStart false test consequent node) testStart frames
  | .assigned targetStart target operator :: frames =>
    close (.assignment targetStart false operator target node) targetStart frames
  | .arrowResult arrowStart params :: frames =>
    close (.arrowFunction arrowStart false params node) arrowStart frames
  | frames => (node, start, frames)

/-- Gives a finished type to everything that ends where it ends. -/
def closeType (node : Node) : List Frame → Node × List Frame
  | .union start done :: frames => closeType (.unionType start (node :: done).reverse) frames
  | .functionResult loc params :: frames => closeType (.functionType loc params node) frames
  | frames => (node, frames)

/-- The node of an exported declaration. -/
def exportNode (isDefault : Bool) (loc : Location) (declaration : Node) : Node :=
  if isDefault then .exportDefault loc declaration else .exportNamed loc declaration

/-- Gives a finished statement, which no `else` follows, to the constructs that end with it, and
adds the result to the statement list around them. -/
def settle (statement : Node) (silent : Bool) : List Frame → Option (List Frame)
  | .program done :: frames =>
    some (.program (if silent then done else statement :: done) :: frames)
  | .block loc done :: frames =>
    some (.block loc (if silent then done else statement :: done) :: frames)
  | .thenBranch loc test :: frames => settle (.ifStatement loc test statement .absent) false frames
  | .elseBranch loc test consequent :: frames =>
    settle (.ifStatement loc test consequent statement) false frames
  | .whileBody loc test :: frames => settle (.whileStatement loc test statement) false frames
  | .forBody loc initializer test step :: frames =>
    settle (.forStatement loc initializer test step statement) false frames
  | .exported loc isDefault :: frames =>
    settle (exportNode isDefault loc statement) false frames
  | _ => none

/-- Gives a finished statement, which `else` follows, to the constructs that end with it, up to the
nearest `if` that still lacks its `else`. -/
def attachElse (statement : Node) : List Frame → Option (List Frame)
  | .thenBranch loc test :: frames => some (.elseBranch loc test statement :: frames)
  | .elseBranch loc test consequent :: frames =>
    attachElse (.ifStatement loc test consequent statement) frames
  | .whileBody loc test :: frames => attachElse (.whileStatement loc test statement) frames
  | .forBody loc initializer test step :: frames =>
    attachElse (.forStatement loc initializer test step statement) frames
  | .exported loc isDefault :: frames =>
    attachElse (exportNode isDefault loc statement) frames
  | _ => none

end Frame

/-- The identifier that a name token stands for, with an annotation. -/
def identifier (name : Token) (typing : Node) : Node :=
  .identifier name.loc false name.text typing

end Parse

end TypeGloss
