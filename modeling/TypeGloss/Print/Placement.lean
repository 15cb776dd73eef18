import TypeGloss.Print.Node
import TypeGloss.Print.Unprintable
import TypeGloss.Syntax.Draft
import TypeGloss.Syntax.Fold

/-!
# Trees that can be printed

A tree can be printed when every node stands where its kind may stand: a statement among
statements, an expression where a value is due, a type where a type is due, and in every other slot
a node with the parts that are printed from there. If a tree cannot be printed, the first fault is
reported in the order of printing.

A node may also leave out its text or its list. A list that is left out counts as empty where an
empty list has a form of its own, and is a fault elsewhere. A text that is left out is a fault where
it is worked with, but not where it only stands between other texts.
-/

namespace TypeGloss

namespace Print

/-- What a slot asks for. -/
inductive Place where
  /-- Syntax of a role. -/
  | syntactic (role : Role)
  /-- A variable with its value. -/
  | declarator
  /-- A name with its type. -/
  | binding
  /-- A name with its type, and perhaps a value for when none is given. -/
  | param
  /-- A name. -/
  | name
  /-- A property of an object. -/
  | property
  /-- The key of a property. -/
  | key
  /-- A member of a type body. -/
  | member
  /-- A node with statements. -/
  | body
  /-- A whole program. -/
  | program
  deriving DecidableEq, Repr

/-- Whether a node declares a name and no value. -/
def declaresNameOnly : Node → Bool
  | .functionExpression .. | .functionDeclaration .. | .interfaceDeclaration .. => true
  | _ => false

/-- Whether a node refers to a type. -/
def isTypeReference : Node → Bool
  | .typeReference .. => true
  | _ => false

/-- What an empty slot is called where a part of a node or a list is due. -/
def nothing : String := "NoneType"

/-- What is wrong with a node that cannot stand in a place. -/
def Place.refusal (place : Place) (node : Node) : Unprintable :=
  let lacks : NodePart → Unprintable :=
    .incomplete (if node.isAbsent then nothing else node.kindName)
  match place with
  | .syntactic role => .misplaced role node.kindName
  | .declarator => lacks (if declaresNameOnly node then .initializer else .declared)
  | .binding | .param => lacks (if isTypeReference node then .typing else .name)
  | .name => lacks .name
  | .property => lacks .shorthand
  | .key => lacks .spelling
  | .member => lacks .optional
  | .body | .program => lacks .body

/-- What is wrong with a node and what is in it, in each place where it might stand. -/
structure Placement where
  /-- The first fault in a place. -/
  fault : Place → Option Unprintable
  /-- Whether the slot is empty. -/
  isEmpty : Bool
  /-- Whether the text of the node is missing. -/
  lacksText : Bool

namespace Placement

/-- The first of several faults. -/
def first (faults : List (Option Unprintable)) : Option Unprintable := faults.findSome? id

/-- The first fault if a statement is due. -/
def asStatement (p : Placement) : Option Unprintable := p.fault (.syntactic .statement)

/-- The first fault if an expression is due. -/
def asExpression (p : Placement) : Option Unprintable := p.fault (.syntactic .expression)

/-- The first fault if a type is due. -/
def asType (p : Placement) : Option Unprintable := p.fault (.syntactic .type)

/-- The first fault in a place. -/
def inPlace (place : Place) (p : Placement) : Option Unprintable := p.fault place

/-- The fault of a slot that may be empty. -/
def orEmpty (fault : Placement → Option Unprintable) (p : Placement) : Option Unprintable :=
  if p.isEmpty then none else fault p

/-- A node that can stand in no place. -/
def nowhere (node : Node) : Placement :=
  { fault := fun place => some (place.refusal node), isEmpty := node.isAbsent, lacksText := false }

/-- A node that can stand in one more place, with the faults of what is in it. -/
def also (place : Place) (fault : Option Unprintable) (p : Placement) : Placement :=
  { p with fault := fun other => if other = place then fault else p.fault other }

/-- A node that can stand in one place. -/
def only (place : Place) (node : Node) (fault : Option Unprintable) : Placement :=
  (nowhere node).also place fault

/-- A statement. -/
def statement : Node → Option Unprintable → Placement := only (.syntactic .statement)

/-- An expression. -/
def expression : Node → Option Unprintable → Placement := only (.syntactic .expression)

/-- A type. -/
def type : Node → Option Unprintable → Placement := only (.syntactic .type)

/-- The same node, whose text may be missing. -/
def withoutText (missing : Bool) (p : Placement) : Placement := { p with lacksText := missing }

/-- The fault of a text that may be missing. -/
def text (use : TextUse) (missing : Bool) : Option Unprintable :=
  if missing then some (.noText use) else none

/-- The fault of a list that may be left out. -/
def list (gap : Gap) : Option Unprintable := if gap.list then some (.noList nothing) else none

/-- The faults of the items of a list with separators, and then of the first without a text. -/
def items (fault : Placement → Option Unprintable) (slots : List Placement) : Option Unprintable :=
  first (slots.map fault ++ [(slots.findIdx? lacksText).map fun i => .noText (.item i)])

/-- The fault of an operator between two operands. -/
def operatorFault (gap : Gap) (operator : Text) (left right : Placement) : Option Unprintable :=
  if gap.text then some (.noText .operator)
  else if Layout.isWord operator then none
  else
    match operator.head?, operator.getLast? with
    | some start, some ending =>
      first [text .start (Layout.isSign ending && right.lacksText),
        text .ending (Layout.isSign start && left.lacksText),
        text .front left.lacksText, text .back right.lacksText]
    | _, _ => some .noOperator

/-- The faults of two operands, and then of the operator between them. -/
def operation (gap : Gap) (operator : Text) : List Placement → Option Unprintable
  | [left, right] =>
    first [left.asExpression, right.asExpression, operatorFault gap operator left right]
  | _ => none

/-- The fault of two texts, the second behind the first. -/
def appended (firstMissing secondMissing : Bool) : Option Unprintable :=
  if firstMissing && secondMissing then some (.noText .both)
  else first [text .front firstMissing, text .back secondMissing]

/-- The faults of a function, given its slots: name, parameters, result type and then the body. -/
def function (gap : Gap) : List Placement → Option Unprintable
  | name :: slots =>
    match slots.reverse with
    | result :: body :: params =>
      first (name.orEmpty (inPlace .name) :: list gap :: params.reverse.map (inPlace .param) ++
        [result.orEmpty asType, body.inPlace .body])
    | _ => none
  | [] => none

/-- The fault of a node whose body is asked for statements but is no list of them. -/
def bodyFault (body : Node) : Option Unprintable :=
  if body.isAbsent then none else some (.noList body.kindName)

/-- The faults of a node, given what it leaves out and the faults of its slots. -/
def ofSlots (gap : Gap) (node : Node) (slots : List Placement) : Placement :=
  match node, slots with
  | .absent, _ => nowhere node
  | .keywordType .., _ => (type node none).withoutText gap.text
  | .typeReference .., arguments =>
    ((type node (items asType arguments)).also .name none).withoutText
      (gap.text && arguments.isEmpty)
  | .unionType .., members => type node (first [list gap, items asType members])
  | .arrayType .., [element] =>
    type node (first [element.asType, text .front element.lacksText])
  | .propertySignature .., types =>
    only .member node (first (text .key gap.text :: types.map asType))
  | .typeLiteral .., members => type node (first (members.map (inPlace .member)))
  | .functionType .., slots =>
    type node (first (list gap :: slots.dropLast.map (inPlace .binding) ++
      slots.getLast?.toList.map asType))
  | .identifier _ isWrapped _ _, types =>
    let typed := first (types.map (orEmpty asType) ++ [text .front gap.text])
    (((((expression node none).also .name none).also .key none).also .binding typed).also .param
      typed).withoutText (gap.text && !isWrapped)
  | .number _ isWrapped _, _ | .string _ isWrapped _, _ | .template _ isWrapped _, _ =>
    ((expression node none).also .key none).withoutText (gap.text && !isWrapped)
  | .array .., elements =>
    expression node (first [list gap, items (orEmpty asExpression) elements])
  | .property _ _ _ shorthand, [key, value] =>
    (only .property node
      (if shorthand then value.asExpression
        else first [key.inPlace .key, value.asExpression])).withoutText
      (shorthand && value.lacksText)
  | .object .., properties => expression node (items (inPlace .property) properties)
  | .defaultParam .., [target, value] =>
    only .param node (first [target.inPlace .binding, value.orEmpty asExpression])
  | .functionExpression _ _ _ _ body _, slots =>
    (expression node (function gap slots)).also .body (bodyFault body)
  | .arrowFunction _ _ _ body, slots =>
    let due := if isBlock body then inPlace .body else asExpression
    (expression node (first (slots.getLast?.toList.map due ++
      list gap :: slots.dropLast.map (inPlace .param)))).also .body (bodyFault body)
  | .binary _ _ operator _ _, slots | .logical _ _ operator _ _, slots
  | .assignment _ _ operator _ _, slots => expression node (operation gap operator slots)
  | .unary _ _ operator _, [argument] =>
    expression node (first [argument.asExpression, text .operator gap.text,
      text .start (!Layout.isWord operator && argument.lacksText)])
  | .update _ _ _ leading _, [argument] =>
    expression node (first [argument.asExpression,
      if leading then appended gap.text argument.lacksText
      else appended argument.lacksText gap.text])
  | .conditional .., slots | .member .., slots => expression node (first (slots.map asExpression))
  | .call .., callee :: arguments | .construction .., callee :: arguments =>
    expression node (first [callee.asExpression, list gap, items asExpression arguments])
  | .sequence .., expressions =>
    expression node (first [list gap, items asExpression expressions])
  | .declarator .., [name, initializer] =>
    only .declarator node (first [name.inPlace .binding, initializer.orEmpty asExpression])
  | .variableDeclaration .., declarators =>
    statement node (first (list gap :: declarators.map (inPlace .declarator)))
  | .block .., statements =>
    let inside := first (statements.map asStatement)
    (statement node inside).also .body inside
  | .functionDeclaration _ _ _ body _, slots =>
    (statement node (function gap slots)).also .body (bodyFault body)
  | .interfaceDeclaration .., name :: members =>
    (statement node (first (name.inPlace .name :: members.map (inPlace .member)))).also .body
      (first (members.map asStatement))
  | .returnStatement .., slots => statement node (first (slots.map (orEmpty asExpression)))
  | .throwStatement .., slots => statement node (first (slots.map asExpression))
  | .expressionStatement .., [value] =>
    statement node (first [value.asExpression, text .front value.lacksText])
  | .ifStatement .., [test, consequent, alternate] =>
    statement node
      (first [test.asExpression, consequent.asStatement, alternate.orEmpty asStatement])
  | .whileStatement _ _ inner, [test, body] =>
    (statement node (first [test.asExpression, body.asStatement])).also .body (bodyFault inner)
  | .forStatement _ (.variableDeclaration ..) _ _ inner, [initializer, test, step, body] =>
    (statement node (first [initializer.asStatement, test.orEmpty asExpression,
      step.orEmpty asExpression, body.asStatement])).also .body (bodyFault inner)
  | .forStatement _ _ _ _ inner, [initializer, test, step, body] =>
    (statement node (first [initializer.orEmpty asExpression, test.orEmpty asExpression,
      step.orEmpty asExpression, body.asStatement])).also .body (bodyFault inner)
  | .exportNamed .., slots | .exportDefault .., slots =>
    statement node (first (slots.map asStatement))
  | .breakStatement .., _ | .continueStatement .., _ | .emptyStatement .., _ => statement node none
  | .program .., statements =>
    let inside := first (statements.map asStatement)
    (only .program node (first [list gap, inside])).also .body inside
  | _, _ => expression node none

end Placement

/-- The first reason why a program cannot be printed. -/
def unprintable? (program : Node) : Option Unprintable :=
  (program.fold (Placement.ofSlots .none)).fault .program

end Print

/-- The text of a program, or the first reason why it cannot be printed. -/
def Node.print (layout : Layout) (program : Node) : Except Unprintable Text :=
  match Print.unprintable? program with
  | some e => .error e
  | none => .ok (Print.node layout 0 [] program)

end TypeGloss
