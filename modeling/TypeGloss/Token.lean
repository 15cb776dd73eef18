import TypeGloss.Location

/-!
# Tokens

The words and signs a program is made of. Some kinds come from the text alone; the last four are
given to tokens by their surroundings: a statement terminator, and the opening signs of an object,
of an arrow function's parameters and of a function that stands as an expression.
-/

namespace TypeGloss

/-- The reserved words. Each of them may still name a property. -/
inductive Keyword where
  | varKw | letKw | constKw | functionKw | returnKw | ifKw | elseKw | whileKw | forKw | throwKw
  | breakKw | continueKw | newKw | exportKw | defaultKw | interfaceKw | trueKw | falseKw | nullKw
  | thisKw | typeofKw | voidKw | deleteKw | instanceofKw
  deriving DecidableEq, Repr

namespace Keyword

/-- All reserved words. -/
def all : List Keyword :=
  [.varKw, .letKw, .constKw, .functionKw, .returnKw, .ifKw, .elseKw, .whileKw, .forKw, .throwKw,
    .breakKw, .continueKw, .newKw, .exportKw, .defaultKw, .interfaceKw, .trueKw, .falseKw, .nullKw,
    .thisKw, .typeofKw, .voidKw, .deleteKw, .instanceofKw]

/-- The word itself. -/
def spelling : Keyword → Text
  | .varKw => "var"
  | .letKw => "let"
  | .constKw => "const"
  | .functionKw => "function"
  | .returnKw => "return"
  | .ifKw => "if"
  | .elseKw => "else"
  | .whileKw => "while"
  | .forKw => "for"
  | .throwKw => "throw"
  | .breakKw => "break"
  | .continueKw => "continue"
  | .newKw => "new"
  | .exportKw => "export"
  | .defaultKw => "default"
  | .interfaceKw => "interface"
  | .trueKw => "true"
  | .falseKw => "false"
  | .nullKw => "null"
  | .thisKw => "this"
  | .typeofKw => "typeof"
  | .voidKw => "void"
  | .deleteKw => "delete"
  | .instanceofKw => "instanceof"

/-- The reserved word with a given spelling. -/
def ofSpelling? (t : Text) : Option Keyword := all.find? fun k => k.spelling = t

/-- Every reserved word is listed. -/
theorem mem_all (k : Keyword) : k ∈ all := by cases k <;> decide

/-- A reserved word is found by its spelling. -/
theorem ofSpelling?_spelling (k : Keyword) : ofSpelling? k.spelling = some k := by
  cases k <;> decide

end Keyword

/-- What a token is. -/
inductive TokenKind where
  | keyword (word : Keyword)
  | name
  | number
  | string
  | template
  | newline
  /-- `=>` -/
  | arrow
  /-- An operator that assigns and computes, such as `+=`. -/
  | compoundAssign
  /-- `==`, `!=`, `===` or `!==`. -/
  | equality
  /-- `=` -/
  | assign
  /-- `&&` -/
  | andOp
  /-- `||` -/
  | orOp
  /-- `??` -/
  | nullish
  | question
  /-- `++` or `--` -/
  | incDec
  /-- `+` or `-` -/
  | additive
  /-- `*`, `/` or `%` -/
  | multiplicative
  | bang
  | tilde
  | less
  | greater
  | bar
  | leftParen
  | rightParen
  | leftBrace
  | rightBrace
  | leftBracket
  | rightBracket
  | comma
  | dot
  | colon
  | semicolon
  /-- The end of a statement: a semicolon of the source, or an empty token that was inserted. -/
  | terminator
  /-- The `{` of an object literal or of a type literal. -/
  | objectBrace
  /-- The `(` of a parameter list that `=>` follows. -/
  | arrowParen
  /-- The `function` of a function expression. -/
  | functionExpr
  deriving DecidableEq, Repr

/-- A token with its text and the place where it starts. -/
structure Token where
  /-- What the token is. -/
  kind : TokenKind
  /-- The code points of the token; empty for an inserted terminator. -/
  text : Text
  /-- Where the token starts. -/
  loc : Location
  deriving DecidableEq, Repr

namespace TokenKind

/-- The name under which listings of tokens show a kind. -/
def label : TokenKind → String
  | .keyword word => word.spelling.toString.toUpper
  | .name => "NAME"
  | .number => "NUMBER"
  | .string => "STRING"
  | .template => "TEMPLATE"
  | .newline => "NEWLINE"
  | .arrow => "ARROW"
  | .compoundAssign => "COMPOUND_ASSIGN"
  | .equality => "EQ_OP"
  | .assign => "EQUAL"
  | .andOp => "AND_OP"
  | .orOp => "OR_OP"
  | .nullish => "NULLISH"
  | .question => "QMARK"
  | .incDec => "INCDEC"
  | .additive => "ADD_OP"
  | .multiplicative => "MUL_OP"
  | .bang => "BANG"
  | .tilde => "TILDE"
  | .less => "LESSTHAN"
  | .greater => "MORETHAN"
  | .bar => "VBAR"
  | .leftParen => "LPAR"
  | .rightParen => "RPAR"
  | .leftBrace => "LBRACE"
  | .rightBrace => "RBRACE"
  | .leftBracket => "LSQB"
  | .rightBracket => "RSQB"
  | .comma => "COMMA"
  | .dot => "DOT"
  | .colon => "COLON"
  | .semicolon => "SEMI"
  | .terminator => "TERMINATOR"
  | .objectBrace => "_OBJ_LBRACE"
  | .arrowParen => "_ARROW_LPAR"
  | .functionExpr => "_FUNC_EXPR"

/-- Whether a kind is a reserved word. -/
def isKeyword : TokenKind → Bool
  | .keyword _ => true
  | _ => false

end TokenKind

/-- The same token with another kind. -/
def Token.retype (t : Token) (kind : TokenKind) : Token := { t with kind := kind }

end TypeGloss
