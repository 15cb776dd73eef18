import TypeGloss.Print.Layout
import TypeGloss.Shape.Key
import TypeGloss.Syntax.Node

/-!
# Printing trees

The text of a tree in a layout. Literals are written as they were spelled, and an expression is in
parentheses exactly if the source wrapped it, apart from an object or a function that starts an
expression statement and an object that is the body of an arrow function.

A chain of binary operators is printed from its leftmost operand on: going down along the left
operands, the operators and right operands passed on the way are collected as links, and the text of
the leftmost operand is then prolonged by one link after the other.
-/

namespace TypeGloss

namespace Print

/-- An operator with the text of its right operand. -/
abbrev Link := Text × Text

/-- A text prolonged by links, one after the other. -/
def attach (layout : Layout) (links : List Link) (t : Text) : Text :=
  links.foldl (fun left link => layout.between left link.1 link.2) t

/-- The text of an operand, in parentheses if it was wrapped, and prolonged by links. -/
def operand (layout : Layout) (links : List Link) (isWrapped : Bool) (t : Text) : Text :=
  attach layout links (Layout.wrapped isWrapped t)

/-- A statement in a list or as a body; a declaration needs its terminator there. -/
def sealed (statement : Node) (t : Text) : Text :=
  match statement with
  | .variableDeclaration .. => t ++ ";"
  | _ => t

/-- Whether a node is a block. -/
def isBlock : Node → Bool
  | .block .. => true
  | _ => false

/-- Statements in braces. -/
def block (layout : Layout) (depth : Nat) (statements : List Node) (texts : List Text) : Text :=
  layout.braced depth (statements.zipWith sealed texts)

/-- The text of a body behind a header or behind `else`. -/
def body (layout : Layout) (afterWord : Bool) (statement : Node) (t : Text) : Text :=
  if isBlock statement then layout.space ++ t
  else if afterWord || layout = .pretty then " " ++ sealed statement t
  else sealed statement t

/-- What stands between the first branch and `else`. -/
def beforeElse (layout : Layout) (depth : Nat) (consequent : Node) : Text :=
  match layout with
  | .compact => ""
  | .pretty => if isBlock consequent then " " else "\n" ++ Layout.indent depth

/-- The second branch with the word before it, if there is one. -/
def elsePart (layout : Layout) (depth : Nat) (consequent alternate : Node) (t : Text) : Text :=
  if alternate.isAbsent then ""
  else beforeElse layout depth consequent ++ "else" ++ body layout true alternate t

/-- A type behind its colon, if there is one. -/
def ascription (layout : Layout) (type : Node) (t : Text) : Text :=
  if type.isAbsent then "" else ":" ++ layout.space ++ t

/-- A value behind its equals sign, if there is one. -/
def valuePart (layout : Layout) (value : Node) (t : Text) : Text :=
  if value.isAbsent then "" else layout.space ++ "=" ++ layout.space ++ t

/-- The name that a node is or refers to. -/
def nameOf : Node → Text
  | .identifier _ _ name _ => name
  | .typeReference _ name _ => name
  | _ => ""

/-- The key of a property, as it was spelled. -/
def keyText : Node → Text
  | .identifier _ _ name _ => name
  | .number _ _ raw => raw
  | .string _ _ raw => raw
  | .template _ _ raw => raw
  | _ => ""

/-- The name of a function and the blank before it. -/
def functionName (layout : Layout) (name : Node) : Text :=
  if name.isAbsent then layout.space else " " ++ nameOf name

/-- A function from its parts. -/
def functionText (layout : Layout) (name : Node) (params : List Text) (resultType : Text)
    (block : Text) : Text :=
  "function" ++ functionName layout name ++ Layout.parens (layout.commas params) ++ resultType ++
    layout.space ++ block

/-- Whether an expression statement has to be put in parentheses. -/
def startsAmbiguously : Node → Bool
  | .object _ wrapped _ => !wrapped
  | .functionExpression _ wrapped .. => !wrapped
  | _ => false

/-- Whether the body of an arrow function has to be put in parentheses. -/
def isBareObject : Node → Bool
  | .object _ wrapped _ => !wrapped
  | _ => false

/-- The items of an array; a hole at the end needs a comma behind it. -/
def arrayItems (elements : List Node) (items : List Text) : List Text :=
  match elements.getLast? with
  | some .absent => items ++ [[]]
  | _ => items

/-- The first part of a member of a type body. -/
def memberHead (key : MemberKey) (optional : Bool) : Text :=
  Key.render key.text ++ (if optional then "?" else "")

/-- A member with its terminator. -/
def terminated (t : Text) : Text := t ++ ";"

/-- The members of a type literal. -/
def typeLiteral (layout : Layout) (members : List Text) : Text :=
  if members.isEmpty then "\x7b\x7d"
  else match layout with
    | .compact => "\x7b" ++ (members.map terminated).flatten ++ "\x7d"
    | .pretty => "\x7b " ++ Text.join "; " members ++ " \x7d"

/-- A member of a union; a function type is put in parentheses. -/
def unionMember (type : Node) (t : Text) : Text :=
  match type with
  | .functionType .. => Layout.parens t
  | _ => t

/-- The element of an array type; a union or a function type is put in parentheses. -/
def arrayElement (type : Node) (t : Text) : Text :=
  match type with
  | .functionType .. | .unionType .. => Layout.parens t
  | _ => t

/-- A part behind a semicolon in the header of a loop. A blank stands before an expression with a
text. -/
def headerPart (layout : Layout) (part : Node) (t : Text) : Text :=
  if t.isEmpty || part.isType then t else layout.space ++ t

/-- The parts in the header of a loop. -/
def loopHeader (initializer test step : Text) : Text :=
  initializer ++ ";" ++ test ++ ";" ++ step

mutual

/-- The text of a node inside `depth` blocks, prolonged by the links of the chain it starts. -/
def node (layout : Layout) (depth : Nat) (links : List Link) : Node → Text
  | .absent => ""
  | .keywordType _ keyword => keyword
  | .typeReference _ name arguments =>
    if arguments.isEmpty then name
    else name ++ "<" ++ layout.commas (nodes layout depth arguments) ++ ">"
  | .unionType _ members =>
    Text.join (layout.space ++ "|" ++ layout.space)
      (members.zipWith unionMember (nodes layout depth members))
  | .arrayType _ element => arrayElement element (node layout depth [] element) ++ "[]"
  | .propertySignature _ key type optional =>
    memberHead key optional ++ ":" ++ layout.space ++ node layout depth [] type
  | .typeLiteral _ members => typeLiteral layout (nodes layout depth members)
  | .functionType _ params result =>
    Layout.parens (layout.commas (bindings layout depth params)) ++ layout.space ++ "=>" ++
      layout.space ++ node layout depth [] result
  | .identifier _ isWrapped name _ => operand layout links isWrapped name
  | .number _ isWrapped raw => operand layout links isWrapped raw
  | .string _ isWrapped raw => operand layout links isWrapped raw
  | .boolean _ isWrapped value =>
    operand layout links isWrapped (if value then "true" else "false")
  | .null _ isWrapped => operand layout links isWrapped "null"
  | .template _ isWrapped raw => operand layout links isWrapped raw
  | .this _ isWrapped => operand layout links isWrapped "this"
  | .array _ isWrapped elements =>
    operand layout links isWrapped
      ("[" ++ layout.commas (arrayItems elements (nodes layout depth elements)) ++ "]")
  | .property _ key value shorthand =>
    let text := node layout depth [] value
    if shorthand then text else keyText key ++ ":" ++ layout.space ++ text
  | .object _ isWrapped properties =>
    operand layout links isWrapped <|
      if properties.isEmpty then "\x7b\x7d"
      else "\x7b" ++ layout.space ++ layout.commas (nodes layout depth properties) ++
        layout.space ++ "\x7d"
  | .defaultParam _ target value =>
    binding layout depth target ++ valuePart layout value (node layout depth [] value)
  | .functionExpression _ isWrapped name params body result =>
    operand layout links isWrapped <|
      functionText layout name (bindings layout depth params)
        (ascription layout result (node layout depth [] result)) (blockOf layout depth body)
  | .arrowFunction _ isWrapped params body =>
    operand layout links isWrapped <|
      Layout.parens (layout.commas (bindings layout depth params)) ++ layout.space ++ "=>" ++
        layout.space ++ Layout.wrapped (isBareObject body) (node layout depth [] body)
  | .unary _ isWrapped operator argument =>
    operand layout links isWrapped (Layout.before operator (node layout depth [] argument))
  | .update _ isWrapped operator leading argument =>
    let text := node layout depth [] argument
    operand layout links isWrapped (if leading then operator ++ text else text ++ operator)
  | .binary _ isWrapped operator left right =>
    let link := (operator, node layout depth [] right)
    if isWrapped then operand layout links true (node layout depth [link] left)
    else node layout depth (link :: links) left
  | .logical _ isWrapped operator left right =>
    let link := (operator, node layout depth [] right)
    if isWrapped then operand layout links true (node layout depth [link] left)
    else node layout depth (link :: links) left
  | .assignment _ isWrapped operator left right =>
    operand layout links isWrapped
      (layout.between (node layout depth [] left) operator (node layout depth [] right))
  | .conditional _ isWrapped test consequent alternate =>
    operand layout links isWrapped <|
      node layout depth [] test ++ layout.space ++ "?" ++ layout.space ++
        node layout depth [] consequent ++ layout.space ++ ":" ++ layout.space ++
        node layout depth [] alternate
  | .call _ isWrapped callee arguments =>
    operand layout links isWrapped <|
      node layout depth [] callee ++ Layout.parens (layout.commas (nodes layout depth arguments))
  | .construction _ isWrapped callee arguments =>
    operand layout links isWrapped <|
      "new " ++ node layout depth [] callee ++
        Layout.parens (layout.commas (nodes layout depth arguments))
  | .member _ isWrapped value selector computed =>
    let selected := node layout depth [] selector
    operand layout links isWrapped <|
      node layout depth [] value ++ (if computed then "[" ++ selected ++ "]" else "." ++ selected)
  | .sequence _ isWrapped expressions =>
    operand layout links isWrapped (layout.commas (nodes layout depth expressions))
  | .declarator _ name initializer =>
    binding layout depth name ++ valuePart layout initializer (node layout depth [] initializer)
  | .variableDeclaration _ keyword declarators =>
    keyword ++ " " ++ layout.commas (nodes layout depth declarators)
  | .block _ statements => block layout depth statements (nodes layout (depth + 1) statements)
  | .functionDeclaration _ name params body result =>
    functionText layout name (bindings layout depth params)
      (ascription layout result (node layout depth [] result)) (blockOf layout depth body)
  | .interfaceDeclaration _ name members =>
    "interface " ++ nameOf name ++ layout.space ++
      layout.braced depth ((nodes layout (depth + 1) members).map terminated)
  | .returnStatement _ argument =>
    if argument.isAbsent then "return;" else "return " ++ node layout depth [] argument ++ ";"
  | .throwStatement _ argument => "throw " ++ node layout depth [] argument ++ ";"
  | .breakStatement _ => "break;"
  | .continueStatement _ => "continue;"
  | .emptyStatement _ => ";"
  | .expressionStatement _ expression =>
    Layout.wrapped (startsAmbiguously expression) (node layout depth [] expression) ++ ";"
  | .ifStatement _ test consequent alternate =>
    "if" ++ layout.space ++ Layout.parens (node layout depth [] test) ++
      body layout false consequent (node layout depth [] consequent) ++
      elsePart layout depth consequent alternate (node layout depth [] alternate)
  | .whileStatement _ test statement =>
    "while" ++ layout.space ++ Layout.parens (node layout depth [] test) ++
      body layout false statement (node layout depth [] statement)
  | .forStatement _ initializer test step statement =>
    "for" ++ layout.space ++
      Layout.parens (loopHeader (node layout depth [] initializer)
        (headerPart layout test (node layout depth [] test))
        (headerPart layout step (node layout depth [] step))) ++
      body layout false statement (node layout depth [] statement)
  | .exportNamed _ declaration =>
    "export " ++ sealed declaration (node layout depth [] declaration)
  | .exportDefault _ declaration =>
    "export default " ++ sealed declaration (node layout depth [] declaration)
  | .program _ statements =>
    let lines := statements.zipWith sealed (nodes layout depth statements)
    match layout with
    | .compact => lines.flatten
    | .pretty => lines.flatMap (· ++ "\n")

/-- The text of a name with its type, of a parameter, or of a declarator. -/
def binding (layout : Layout) (depth : Nat) : Node → Text
  | .identifier _ _ name type => name ++ ascription layout type (node layout depth [] type)
  | .defaultParam _ target value =>
    binding layout depth target ++ valuePart layout value (node layout depth [] value)
  | _ => ""

/-- The statements of any node as a block. A node without statements gives an empty block. -/
def blockOf (layout : Layout) (depth : Nat) : Node → Text
  | .block _ statements | .interfaceDeclaration _ _ statements | .program _ statements =>
    block layout depth statements (nodes layout (depth + 1) statements)
  | _ => "\x7b\x7d"

/-- The texts of nodes. -/
def nodes (layout : Layout) (depth : Nat) : List Node → List Text
  | [] => []
  | first :: rest => node layout depth [] first :: nodes layout depth rest

/-- The texts of parameters. -/
def bindings (layout : Layout) (depth : Nat) : List Node → List Text
  | [] => []
  | first :: rest => binding layout depth first :: bindings layout depth rest

end

end Print

end TypeGloss
