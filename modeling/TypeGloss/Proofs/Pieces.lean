import TypeGloss.Print.Node
import TypeGloss.Proofs.Symbols

/-!
# Printed trees as tokens

The text of a tree is put together from tokens and blanks. The pieces of a tree are these tokens
with the kinds that a scan gives them: a word is a reserved word wherever it is spelled like one.
-/

namespace TypeGloss

/-- A token or a blank of a printed text. -/
inductive Piece where
  | token (kind : TokenKind) (text : Text)
  | blank
  deriving DecidableEq, Repr

namespace Piece

/-- The text of a piece. -/
def text : Piece → Text
  | .token _ text => text
  | .blank => " "

/-- The token of a piece. -/
def token? : Piece → Option Token
  | .token kind text => some (.plain kind text)
  | .blank => none

end Piece

namespace Pieces

/-- The text of pieces. -/
def text (ps : List Piece) : Text := ps.flatMap Piece.text

/-- The tokens of pieces. -/
def tokens (ps : List Piece) : List Token := ps.filterMap Piece.token?

@[simp] theorem text_nil : text [] = [] := rfl

@[simp] theorem text_cons (p : Piece) (ps : List Piece) : text (p :: ps) = p.text ++ text ps := rfl

@[simp] theorem text_append (ps qs : List Piece) : text (ps ++ qs) = text ps ++ text qs :=
  List.flatMap_append

@[simp] theorem tokens_nil : tokens [] = [] := rfl

@[simp] theorem tokens_token (kind : TokenKind) (t : Text) (ps : List Piece) :
    tokens (.token kind t :: ps) = .plain kind t :: tokens ps := rfl

@[simp] theorem tokens_blank (ps : List Piece) : tokens (.blank :: ps) = tokens ps := rfl

@[simp] theorem tokens_append (ps qs : List Piece) : tokens (ps ++ qs) = tokens ps ++ tokens qs :=
  List.filterMap_append

@[simp] theorem text_token (kind : TokenKind) (t : Text) : (Piece.token kind t).text = t := rfl

@[simp] theorem text_blank : Piece.blank.text = " " := rfl

/-- The kind of a word. -/
def wordKind (t : Text) : TokenKind := (Keyword.ofSpelling? t).elim .name .keyword

/-- A reserved word. -/
def keyword (word : Keyword) : Piece := .token (.keyword word) word.spelling

/-- A name, or a reserved word in the place of one. -/
def name (t : Text) : Piece := .token (wordKind t) t

def leftParen : Piece := .token .leftParen "("
def rightParen : Piece := .token .rightParen ")"
def leftBrace : Piece := .token .leftBrace "\x7b"
def rightBrace : Piece := .token .rightBrace "\x7d"
def leftBracket : Piece := .token .leftBracket "["
def rightBracket : Piece := .token .rightBracket "]"
def comma : Piece := .token .comma ","
def semicolon : Piece := .token .semicolon ";"
def colon : Piece := .token .colon ":"
def question : Piece := .token .question "?"
def assign : Piece := .token .assign "="
def arrow : Piece := .token .arrow "=>"
def dot : Piece := .token .dot "."
def newline : Piece := .token .newline "\n"

/-- A blank that compact text leaves out. -/
def space : Layout → List Piece
  | .compact => []
  | .pretty => [.blank]

/-- The blanks at the start of a line. -/
def indent (depth : Nat) : List Piece := List.replicate (2 * depth) .blank

/-- Pieces in parentheses. -/
def parens (ps : List Piece) : List Piece := leftParen :: ps ++ [rightParen]

/-- Pieces in parentheses, if they are wrapped. -/
def wrapped (isWrapped : Bool) (ps : List Piece) : List Piece :=
  if isWrapped then parens ps else ps

/-- Lists of pieces with a separator between neighbours. -/
def join (separator : List Piece) : List (List Piece) → List Piece
  | [] => []
  | [ps] => ps
  | ps :: rest => ps ++ separator ++ join separator rest

theorem join_cons_cons (separator first second : List Piece) (rest : List (List Piece)) :
    join separator (first :: second :: rest) =
      first ++ separator ++ join separator (second :: rest) := rfl

/-- Lists of pieces with commas between them. -/
def commas (layout : Layout) (items : List (List Piece)) : List Piece :=
  join (comma :: space layout) items

/-- Lines in braces. -/
def braced (layout : Layout) (depth : Nat) (lines : List (List Piece)) : List Piece :=
  if lines.isEmpty then [leftBrace, rightBrace]
  else match layout with
    | .compact => leftBrace :: lines.flatten ++ [rightBrace]
    | .pretty =>
      leftBrace :: newline :: join [newline] (lines.map (indent (depth + 1) ++ ·)) ++ newline ::
        indent depth ++ [rightBrace]

/-- The kind of an operator: of a sign, or of a word. -/
def operatorKind (operator : Text) : TokenKind :=
  (((Lexeme.longSigns ++ Lexeme.doubleSigns ++ Lexeme.singleOperators).find? fun sign =>
    sign.1 = operator).map (·.2)).getD (wordKind operator)

/-- The tokens of an operator. A comparison with equality is two tokens. -/
def operator (operator : Text) : List Piece :=
  if operator = "<=" then [.token .less "<", assign]
  else if operator = ">=" then [.token .greater ">", assign]
  else [.token (operatorKind operator) operator]

/-- A blank, if it is needed. -/
def blankIf (needed : Bool) : List Piece := if needed then [.blank] else []

/-- An operator between its operands. -/
def between (layout : Layout) (left : List Piece) (sign : Text) (right : List Piece) : List Piece :=
  if Layout.isWord sign || layout = .pretty then
    left ++ .blank :: operator sign ++ .blank :: right
  else
    left ++ blankIf (Layout.signsMeet (text left) sign) ++ operator sign ++
      blankIf (Layout.signsMeet sign (text right)) ++ right

/-- An operator before its argument. -/
def before (sign : Text) (argument : List Piece) : List Piece :=
  operator sign ++ blankIf (Layout.isWord sign || (text argument).startsWith sign) ++ argument

/-- A statement in a list or as a body. -/
def sealed (statement : Node) (ps : List Piece) : List Piece :=
  match statement with
  | .variableDeclaration .. => ps ++ [semicolon]
  | _ => ps

/-- Statements in braces. -/
def block (layout : Layout) (depth : Nat) (statements : List Node) (lines : List (List Piece)) :
    List Piece :=
  braced layout depth (statements.zipWith sealed lines)

/-- A body behind a header or behind `else`. -/
def body (layout : Layout) (afterWord : Bool) (statement : Node) (ps : List Piece) : List Piece :=
  if Print.isBlock statement then space layout ++ ps
  else blankIf (afterWord || layout = .pretty) ++ sealed statement ps

/-- What stands between the first branch and `else`. -/
def beforeElse (layout : Layout) (depth : Nat) (consequent : Node) : List Piece :=
  match layout with
  | .compact => []
  | .pretty => if Print.isBlock consequent then [.blank] else newline :: indent depth

/-- The second branch with the word before it, if there is one. -/
def elsePart (layout : Layout) (depth : Nat) (consequent alternate : Node) (ps : List Piece) :
    List Piece :=
  if alternate.isAbsent then []
  else beforeElse layout depth consequent ++ keyword .elseKw :: body layout true alternate ps

/-- A type behind its colon, if there is one. -/
def ascription (layout : Layout) (type : Node) (ps : List Piece) : List Piece :=
  if type.isAbsent then [] else colon :: space layout ++ ps

/-- A value behind its equals sign, if there is one. -/
def valuePart (layout : Layout) (value : Node) (ps : List Piece) : List Piece :=
  if value.isAbsent then [] else space layout ++ assign :: space layout ++ ps

/-- The name that a node is or refers to. -/
def nameOf : Node → List Piece
  | .identifier _ _ t _ => [name t]
  | .typeReference _ t _ => [name t]
  | _ => []

/-- The key of a property. -/
def key : Node → List Piece
  | .identifier _ _ t _ => [name t]
  | .number _ _ raw => [.token .number raw]
  | .string _ _ raw => [.token .string raw]
  | .template _ _ raw => [.token .template raw]
  | _ => []

/-- The name of a function and the blank before it. -/
def functionName (layout : Layout) (node : Node) : List Piece :=
  if node.isAbsent then space layout else .blank :: nameOf node

/-- A function from its parts. -/
def function (layout : Layout) (node : Node) (params : List (List Piece))
    (result block : List Piece) : List Piece :=
  keyword .functionKw :: functionName layout node ++ parens (commas layout params) ++ result ++
    space layout ++ block

/-- The items of an array; a hole at the end needs a comma behind it. -/
def arrayItems (elements : List Node) (items : List (List Piece)) : List (List Piece) :=
  match elements.getLast? with
  | some .absent => items ++ [[]]
  | _ => items

/-- The key of a member of a type body. A word may have a line feed behind it. -/
def memberKey (t : Text) : List Piece :=
  if Key.isPlain t then
    if t.getLast? = some (.scalar '\n') then [name t.dropLast, newline] else [name t]
  else [.token .string (Key.render t)]

/-- The first part of a member of a type body. -/
def memberHead (key : MemberKey) (optional : Bool) : List Piece :=
  memberKey key.text ++ if optional then [question] else []

/-- A member with its terminator. -/
def terminated (ps : List Piece) : List Piece := ps ++ [semicolon]

/-- The members of a type literal. -/
def typeLiteral (layout : Layout) (members : List (List Piece)) : List Piece :=
  if members.isEmpty then [leftBrace, rightBrace]
  else match layout with
    | .compact => leftBrace :: (members.map terminated).flatten ++ [rightBrace]
    | .pretty =>
      leftBrace :: .blank :: join [semicolon, .blank] members ++ [.blank, rightBrace]

/-- A member of a union; a function type is put in parentheses. -/
def unionMember (type : Node) (ps : List Piece) : List Piece :=
  match type with
  | .functionType .. => parens ps
  | _ => ps

/-- The element of an array type; a union or a function type is put in parentheses. -/
def arrayElement (type : Node) (ps : List Piece) : List Piece :=
  match type with
  | .functionType .. | .unionType .. => parens ps
  | _ => ps

/-- A part behind a semicolon in the header of a loop. -/
def headerPart (layout : Layout) (part : Node) (ps : List Piece) : List Piece :=
  if (text ps).isEmpty || part.isType then ps else space layout ++ ps

/-- The parts in the header of a loop. -/
def loopHeader (initializer test step : List Piece) : List Piece :=
  initializer ++ semicolon :: test ++ semicolon :: step

mutual

/-- The pieces of a node inside `depth` blocks. -/
def node (layout : Layout) (depth : Nat) : Node → List Piece
  | .absent => []
  | .keywordType _ word => [name word]
  | .typeReference _ t arguments =>
    if arguments.isEmpty then [name t]
    else name t :: .token .less "<" :: commas layout (nodes layout depth arguments) ++
      [.token .greater ">"]
  | .unionType _ members =>
    join (space layout ++ .token .bar "|" :: space layout)
      (members.zipWith unionMember (nodes layout depth members))
  | .arrayType _ element =>
    arrayElement element (node layout depth element) ++ [leftBracket, rightBracket]
  | .propertySignature _ key type optional =>
    memberHead key optional ++ colon :: space layout ++ node layout depth type
  | .typeLiteral _ members => typeLiteral layout (nodes layout depth members)
  | .functionType _ params result =>
    parens (commas layout (bindings layout depth params)) ++ space layout ++ arrow ::
      space layout ++ node layout depth result
  | .identifier _ isWrapped t _ => wrapped isWrapped [name t]
  | .number _ isWrapped raw => wrapped isWrapped [.token .number raw]
  | .string _ isWrapped raw => wrapped isWrapped [.token .string raw]
  | .boolean _ isWrapped value =>
    wrapped isWrapped [keyword (if value then .trueKw else .falseKw)]
  | .null _ isWrapped => wrapped isWrapped [keyword .nullKw]
  | .template _ isWrapped raw => wrapped isWrapped [.token .template raw]
  | .this _ isWrapped => wrapped isWrapped [keyword .thisKw]
  | .array _ isWrapped elements =>
    wrapped isWrapped <|
      leftBracket :: commas layout (arrayItems elements (nodes layout depth elements)) ++
        [rightBracket]
  | .property _ propertyKey value shorthand =>
    if shorthand then node layout depth value
    else key propertyKey ++ colon :: space layout ++ node layout depth value
  | .object _ isWrapped properties =>
    wrapped isWrapped <|
      if properties.isEmpty then [leftBrace, rightBrace]
      else leftBrace :: space layout ++ commas layout (nodes layout depth properties) ++
        space layout ++ [rightBrace]
  | .defaultParam _ target value =>
    binding layout depth target ++ valuePart layout value (node layout depth value)
  | .functionExpression _ isWrapped name params body result =>
    wrapped isWrapped <|
      function layout name (bindings layout depth params)
        (ascription layout result (node layout depth result)) (blockOf layout depth body)
  | .arrowFunction _ isWrapped params body =>
    wrapped isWrapped <|
      parens (commas layout (bindings layout depth params)) ++ space layout ++ arrow ::
        space layout ++ wrapped (Print.isBareObject body) (node layout depth body)
  | .unary _ isWrapped sign argument =>
    wrapped isWrapped (before sign (node layout depth argument))
  | .update _ isWrapped sign leading argument =>
    wrapped isWrapped <|
      if leading then operator sign ++ node layout depth argument
      else node layout depth argument ++ operator sign
  | .binary _ isWrapped sign left right | .logical _ isWrapped sign left right
  | .assignment _ isWrapped sign left right =>
    wrapped isWrapped
      (between layout (node layout depth left) sign (node layout depth right))
  | .conditional _ isWrapped test consequent alternate =>
    wrapped isWrapped <|
      node layout depth test ++ space layout ++ question :: space layout ++
        node layout depth consequent ++ space layout ++ colon :: space layout ++
        node layout depth alternate
  | .call _ isWrapped callee arguments =>
    wrapped isWrapped <|
      node layout depth callee ++ parens (commas layout (nodes layout depth arguments))
  | .construction _ isWrapped callee arguments =>
    wrapped isWrapped <|
      keyword .newKw :: .blank :: node layout depth callee ++
        parens (commas layout (nodes layout depth arguments))
  | .member _ isWrapped value selector computed =>
    wrapped isWrapped <|
      node layout depth value ++
        if computed then leftBracket :: node layout depth selector ++ [rightBracket]
        else dot :: node layout depth selector
  | .sequence _ isWrapped expressions =>
    wrapped isWrapped (commas layout (nodes layout depth expressions))
  | .declarator _ name initializer =>
    binding layout depth name ++ valuePart layout initializer (node layout depth initializer)
  | .variableDeclaration _ word declarators =>
    name word :: .blank :: commas layout (nodes layout depth declarators)
  | .block _ statements => block layout depth statements (nodes layout (depth + 1) statements)
  | .functionDeclaration _ name params body result =>
    function layout name (bindings layout depth params)
      (ascription layout result (node layout depth result)) (blockOf layout depth body)
  | .interfaceDeclaration _ name members =>
    keyword .interfaceKw :: .blank :: nameOf name ++ space layout ++
      braced layout depth ((nodes layout (depth + 1) members).map terminated)
  | .returnStatement _ argument =>
    if argument.isAbsent then [keyword .returnKw, semicolon]
    else keyword .returnKw :: .blank :: node layout depth argument ++ [semicolon]
  | .throwStatement _ argument =>
    keyword .throwKw :: .blank :: node layout depth argument ++ [semicolon]
  | .breakStatement _ => [keyword .breakKw, semicolon]
  | .continueStatement _ => [keyword .continueKw, semicolon]
  | .emptyStatement _ => [semicolon]
  | .expressionStatement _ expression =>
    wrapped (Print.startsAmbiguously expression) (node layout depth expression) ++ [semicolon]
  | .ifStatement _ test consequent alternate =>
    keyword .ifKw :: space layout ++ parens (node layout depth test) ++
      body layout false consequent (node layout depth consequent) ++
      elsePart layout depth consequent alternate (node layout depth alternate)
  | .whileStatement _ test statement =>
    keyword .whileKw :: space layout ++ parens (node layout depth test) ++
      body layout false statement (node layout depth statement)
  | .forStatement _ initializer test step statement =>
    keyword .forKw :: space layout ++
      parens (loopHeader (node layout depth initializer)
        (headerPart layout test (node layout depth test))
        (headerPart layout step (node layout depth step))) ++
      body layout false statement (node layout depth statement)
  | .exportNamed _ declaration =>
    keyword .exportKw :: .blank :: sealed declaration (node layout depth declaration)
  | .exportDefault _ declaration =>
    keyword .exportKw :: .blank :: keyword .defaultKw :: .blank ::
      sealed declaration (node layout depth declaration)
  | .program _ statements =>
    let lines := statements.zipWith sealed (nodes layout depth statements)
    match layout with
    | .compact => lines.flatten
    | .pretty => lines.flatMap (· ++ [newline])

/-- The pieces of a name with its type, of a parameter, or of a declarator. -/
def binding (layout : Layout) (depth : Nat) : Node → List Piece
  | .identifier _ _ t type => name t :: ascription layout type (node layout depth type)
  | .defaultParam _ target value =>
    binding layout depth target ++ valuePart layout value (node layout depth value)
  | _ => []

/-- The statements of any node as a block. -/
def blockOf (layout : Layout) (depth : Nat) : Node → List Piece
  | .block _ statements | .interfaceDeclaration _ _ statements | .program _ statements =>
    block layout depth statements (nodes layout (depth + 1) statements)
  | _ => [leftBrace, rightBrace]

/-- The pieces of nodes. -/
def nodes (layout : Layout) (depth : Nat) : List Node → List (List Piece)
  | [] => []
  | first :: rest => node layout depth first :: nodes layout depth rest

/-- The pieces of parameters. -/
def bindings (layout : Layout) (depth : Nat) : List Node → List (List Piece)
  | [] => []
  | first :: rest => binding layout depth first :: bindings layout depth rest

end

@[simp] theorem nodes_eq_map (layout : Layout) (depth : Nat) (ns : List Node) :
    nodes layout depth ns = ns.map (node layout depth) := by
  induction ns with
  | nil => rfl
  | cons n ns ih => rw [nodes, ih, List.map_cons]

@[simp] theorem bindings_eq_map (layout : Layout) (depth : Nat) (ns : List Node) :
    bindings layout depth ns = ns.map (binding layout depth) := by
  induction ns with
  | nil => rfl
  | cons n ns ih => rw [bindings, ih, List.map_cons]

end Pieces

end TypeGloss
