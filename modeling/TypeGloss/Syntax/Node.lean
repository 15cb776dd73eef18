import TypeGloss.Location
import TypeGloss.Syntax.Literal

/-!
# Syntax trees

One type of node serves statements, expressions and type syntax alike, so that a tree may also be
put together wrongly and the printer can say so. A slot that holds nothing is `absent`: a missing
annotation, a missing initializer, or a hole in an array. Numbers and strings keep only their
spelling, which determines their value.
-/

namespace TypeGloss

/-- The key of a type member, as it is written. -/
inductive MemberKey where
  /-- A plain key. -/
  | name (text : Text)
  /-- A quoted key, by its spelling. -/
  | string (raw : Text)
  /-- A numeric key, by its spelling. -/
  | number (raw : Text)
  deriving DecidableEq, Repr

/-- The text that a key stands for: a quoted key denotes its value, the others their spelling. -/
def MemberKey.text : MemberKey → Text
  | .name text => text
  | .string raw => Literal.stringText raw
  | .number raw => raw

/-- A node of a syntax tree. Expressions know whether the source wrapped them in parentheses. -/
inductive Node where
  /-- An empty slot. -/
  | absent
  /-- A type that a word names, such as `number` or `void`. -/
  | keywordType (loc : Location) (keyword : Text)
  /-- A named type with its arguments. -/
  | typeReference (loc : Location) (name : Text) (arguments : List Node)
  | unionType (loc : Location) (members : List Node)
  | arrayType (loc : Location) (element : Node)
  /-- A member of a type body. -/
  | propertySignature (loc : Location) (key : MemberKey) (type : Node) (optional : Bool)
  | typeLiteral (loc : Location) (members : List Node)
  | functionType (loc : Location) (params : List Node) (result : Node)
  | identifier (loc : Location) (wrapped : Bool) (name : Text) (typing : Node)
  | number (loc : Location) (wrapped : Bool) (raw : Text)
  | string (loc : Location) (wrapped : Bool) (raw : Text)
  | boolean (loc : Location) (wrapped : Bool) (value : Bool)
  | null (loc : Location) (wrapped : Bool)
  | template (loc : Location) (wrapped : Bool) (raw : Text)
  | this (loc : Location) (wrapped : Bool)
  /-- An array literal; an absent element is a hole. -/
  | array (loc : Location) (wrapped : Bool) (elements : List Node)
  /-- A property of an object literal. -/
  | property (loc : Location) (key value : Node) (shorthand : Bool)
  | object (loc : Location) (wrapped : Bool) (properties : List Node)
  /-- A parameter with a default value. -/
  | defaultParam (loc : Location) (target value : Node)
  | functionExpression (loc : Location) (wrapped : Bool) (name : Node) (params : List Node)
      (body result : Node)
  | arrowFunction (loc : Location) (wrapped : Bool) (params : List Node) (body : Node)
  | unary (loc : Location) (wrapped : Bool) (operator : Text) (argument : Node)
  /-- `++` and `--`, before their argument or behind it. -/
  | update (loc : Location) (wrapped : Bool) (operator : Text) (leading : Bool) (argument : Node)
  | binary (loc : Location) (wrapped : Bool) (operator : Text) (left right : Node)
  /-- `&&`, `||` and `??`. -/
  | logical (loc : Location) (wrapped : Bool) (operator : Text) (left right : Node)
  | assignment (loc : Location) (wrapped : Bool) (operator : Text) (left right : Node)
  | conditional (loc : Location) (wrapped : Bool) (test consequent alternate : Node)
  | call (loc : Location) (wrapped : Bool) (callee : Node) (arguments : List Node)
  /-- A call with `new`. -/
  | construction (loc : Location) (wrapped : Bool) (callee : Node) (arguments : List Node)
  | member (loc : Location) (wrapped : Bool) (value selector : Node) (computed : Bool)
  | sequence (loc : Location) (wrapped : Bool) (expressions : List Node)
  | declarator (loc : Location) (name initializer : Node)
  | variableDeclaration (loc : Location) (keyword : Text) (declarators : List Node)
  | block (loc : Location) (body : List Node)
  | functionDeclaration (loc : Location) (name : Node) (params : List Node) (body result : Node)
  | interfaceDeclaration (loc : Location) (name : Node) (members : List Node)
  | returnStatement (loc : Location) (argument : Node)
  | throwStatement (loc : Location) (argument : Node)
  | breakStatement (loc : Location)
  | continueStatement (loc : Location)
  | emptyStatement (loc : Location)
  | expressionStatement (loc : Location) (expression : Node)
  | ifStatement (loc : Location) (test consequent alternate : Node)
  | whileStatement (loc : Location) (test body : Node)
  | forStatement (loc : Location) (initializer test step body : Node)
  | exportNamed (loc : Location) (declaration : Node)
  | exportDefault (loc : Location) (declaration : Node)
  | program (loc : Location) (body : List Node)
  deriving Repr

namespace Node

instance : Inhabited Node := ⟨.absent⟩

/-- Whether a slot is empty. -/
def isAbsent : Node → Bool
  | .absent => true
  | _ => false

/-- The name of a node's kind in facts and messages. -/
def kindName : Node → String
  | .absent => "undefined"
  | .keywordType .. => "TSKeywordType"
  | .typeReference .. => "TSTypeReference"
  | .unionType .. => "TSUnionType"
  | .arrayType .. => "TSArrayType"
  | .propertySignature .. => "TSPropertySignature"
  | .typeLiteral .. => "TSTypeLiteral"
  | .functionType .. => "TSFunctionType"
  | .identifier .. => "Identifier"
  | .number .. => "NumericLiteral"
  | .string .. => "StringLiteral"
  | .boolean .. => "BooleanLiteral"
  | .null .. => "NullLiteral"
  | .template .. => "TemplateLiteral"
  | .this .. => "ThisExpression"
  | .array .. => "ArrayExpression"
  | .property .. => "ObjectProperty"
  | .object .. => "ObjectExpression"
  | .defaultParam .. => "AssignmentPattern"
  | .functionExpression .. => "FunctionExpression"
  | .arrowFunction .. => "ArrowFunctionExpression"
  | .unary .. => "UnaryExpression"
  | .update .. => "UpdateExpression"
  | .binary .. => "BinaryExpression"
  | .logical .. => "LogicalExpression"
  | .assignment .. => "AssignmentExpression"
  | .conditional .. => "ConditionalExpression"
  | .call .. => "CallExpression"
  | .construction .. => "NewExpression"
  | .member .. => "MemberExpression"
  | .sequence .. => "SequenceExpression"
  | .declarator .. => "VariableDeclarator"
  | .variableDeclaration .. => "VariableDeclaration"
  | .block .. => "BlockStatement"
  | .functionDeclaration .. => "FunctionDeclaration"
  | .interfaceDeclaration .. => "TSInterfaceDeclaration"
  | .returnStatement .. => "ReturnStatement"
  | .throwStatement .. => "ThrowStatement"
  | .breakStatement .. => "BreakStatement"
  | .continueStatement .. => "ContinueStatement"
  | .emptyStatement .. => "EmptyStatement"
  | .expressionStatement .. => "ExpressionStatement"
  | .ifStatement .. => "IfStatement"
  | .whileStatement .. => "WhileStatement"
  | .forStatement .. => "ForStatement"
  | .exportNamed .. => "ExportNamedDeclaration"
  | .exportDefault .. => "ExportDefaultDeclaration"
  | .program .. => "Program"

/-- Where a node stands; an empty slot stands nowhere. -/
def loc : Node → Location
  | .absent => .synthetic
  | .keywordType loc .. | .typeReference loc .. | .unionType loc .. | .arrayType loc ..
  | .propertySignature loc .. | .typeLiteral loc .. | .functionType loc .. | .identifier loc ..
  | .number loc .. | .string loc .. | .boolean loc .. | .null loc .. | .template loc ..
  | .this loc .. | .array loc .. | .property loc .. | .object loc .. | .defaultParam loc ..
  | .functionExpression loc .. | .arrowFunction loc .. | .unary loc .. | .update loc ..
  | .binary loc .. | .logical loc .. | .assignment loc .. | .conditional loc .. | .call loc ..
  | .construction loc .. | .member loc .. | .sequence loc .. | .declarator loc ..
  | .variableDeclaration loc .. | .block loc .. | .functionDeclaration loc ..
  | .interfaceDeclaration loc .. | .returnStatement loc .. | .throwStatement loc ..
  | .breakStatement loc .. | .continueStatement loc .. | .emptyStatement loc ..
  | .expressionStatement loc .. | .ifStatement loc .. | .whileStatement loc ..
  | .forStatement loc .. | .exportNamed loc .. | .exportDefault loc .. | .program loc .. => loc

/-- Whether the source wrapped an expression in parentheses. -/
def isWrapped : Node → Bool
  | .identifier _ wrapped .. | .number _ wrapped .. | .string _ wrapped .. | .boolean _ wrapped ..
  | .null _ wrapped .. | .template _ wrapped .. | .this _ wrapped .. | .array _ wrapped ..
  | .object _ wrapped .. | .functionExpression _ wrapped .. | .arrowFunction _ wrapped ..
  | .unary _ wrapped .. | .update _ wrapped .. | .binary _ wrapped .. | .logical _ wrapped ..
  | .assignment _ wrapped .. | .conditional _ wrapped .. | .call _ wrapped ..
  | .construction _ wrapped .. | .member _ wrapped .. | .sequence _ wrapped .. => wrapped
  | _ => false

/-- The same expression in parentheses. -/
def wrap : Node → Node
  | .identifier loc _ name typing => .identifier loc true name typing
  | .number loc _ raw => .number loc true raw
  | .string loc _ raw => .string loc true raw
  | .boolean loc _ value => .boolean loc true value
  | .null loc _ => .null loc true
  | .template loc _ raw => .template loc true raw
  | .this loc _ => .this loc true
  | .array loc _ elements => .array loc true elements
  | .object loc _ properties => .object loc true properties
  | .functionExpression loc _ name params body result =>
    .functionExpression loc true name params body result
  | .arrowFunction loc _ params body => .arrowFunction loc true params body
  | .unary loc _ operator argument => .unary loc true operator argument
  | .update loc _ operator leading argument => .update loc true operator leading argument
  | .binary loc _ operator left right => .binary loc true operator left right
  | .logical loc _ operator left right => .logical loc true operator left right
  | .assignment loc _ operator left right => .assignment loc true operator left right
  | .conditional loc _ test consequent alternate => .conditional loc true test consequent alternate
  | .call loc _ callee arguments => .call loc true callee arguments
  | .construction loc _ callee arguments => .construction loc true callee arguments
  | .member loc _ value selector computed => .member loc true value selector computed
  | .sequence loc _ expressions => .sequence loc true expressions
  | node => node

/-- Whether a node is type syntax. -/
def isType : Node → Bool
  | .keywordType .. | .typeReference .. | .unionType .. | .arrayType .. | .propertySignature ..
  | .typeLiteral .. | .functionType .. => true
  | _ => false

/-- The slots of a node, empty ones included, in the order of its parts: of a function the body
comes before the result type. -/
def slots : Node → List Node
  | .typeReference _ _ arguments => arguments
  | .unionType _ members => members
  | .arrayType _ element => [element]
  | .propertySignature _ _ type _ => [type]
  | .typeLiteral _ members => members
  | .functionType _ params result => params ++ [result]
  | .identifier _ _ _ typing => [typing]
  | .array _ _ elements => elements
  | .property _ key value _ => [key, value]
  | .object _ _ properties => properties
  | .defaultParam _ target value => [target, value]
  | .functionExpression _ _ name params body result => name :: params ++ [body, result]
  | .arrowFunction _ _ params body => params ++ [body]
  | .unary _ _ _ argument => [argument]
  | .update _ _ _ _ argument => [argument]
  | .binary _ _ _ left right => [left, right]
  | .logical _ _ _ left right => [left, right]
  | .assignment _ _ _ left right => [left, right]
  | .conditional _ _ test consequent alternate => [test, consequent, alternate]
  | .call _ _ callee arguments => callee :: arguments
  | .construction _ _ callee arguments => callee :: arguments
  | .member _ _ value selector _ => [value, selector]
  | .sequence _ _ expressions => expressions
  | .declarator _ name initializer => [name, initializer]
  | .variableDeclaration _ _ declarators => declarators
  | .block _ body => body
  | .functionDeclaration _ name params body result => name :: params ++ [body, result]
  | .interfaceDeclaration _ name members => name :: members
  | .returnStatement _ argument => [argument]
  | .throwStatement _ argument => [argument]
  | .expressionStatement _ expression => [expression]
  | .ifStatement _ test consequent alternate => [test, consequent, alternate]
  | .whileStatement _ test body => [test, body]
  | .forStatement _ initializer test step body => [initializer, test, step, body]
  | .exportNamed _ declaration => [declaration]
  | .exportDefault _ declaration => [declaration]
  | .program _ body => body
  | _ => []

/-- The nodes directly inside a node. -/
def children (node : Node) : List Node := node.slots.filter (!·.isAbsent)

end Node

end TypeGloss
