import TypeGloss.Syntax.Fault
import TypeGloss.Token

/-!
# Nesting

How deeply a program may be nested is bounded. Every construct around a place takes some units, and
a place is too deep when the units around it exceed a budget. Reading a tree and working out and
writing its types take different numbers of units. A chain of binary operators takes no units along
its left operands, so that its length does not count.

Literals are given their values while the tree is entered, so a literal without a value and a place
that is too deep are found on one way through the tree, and the first of them is the obstacle. A
node is entered before its slots, and the slots follow in `Node.evaluationOrder`.
-/

namespace TypeGloss

/-- What stops the reading of a tree. -/
inductive Obstacle where
  /-- A literal has no value. -/
  | literal (fault : LiteralFault)
  /-- A place is nested too deeply. -/
  | tooDeep
  deriving DecidableEq, Repr

namespace Nesting

/-- The units for reading a construct. -/
def readingCost : Node → Nat
  | .absent | .program .. | .declarator .. | .variableDeclaration .. | .property .. => 0
  | .array .. | .typeReference .. | .unionType .. | .ifStatement .. => 2
  | .object .. | .typeLiteral .. | .block .. => 3
  | .sequence _ _ expressions => expressions.length
  | _ => 1

/-- The units for typing and writing a construct. -/
def writingCost : Node → Nat
  | .absent | .program .. | .declarator .. | .variableDeclaration .. | .property .. => 0
  | .number .. | .string .. | .boolean .. | .null .. | .identifier .. => 6
  | .array .. | .object .. | .call .. | .construction .. => 5
  | .sequence .. | .block .. => 3
  | _ => 2

/-- The units that reading may take. -/
def readingBudget : Nat := 984

/-- The units that typing and writing may take. -/
def writingBudget : Nat := 990

/-- The places right behind an opening parenthesis, each with the number of parentheses that are
open there. A tree says of a node only whether it stands in parentheses, not in how many. -/
def openings (ts : List Token) : List (Location × Nat) :=
  ((ts.zip (ts.drop 1)).foldl (fun (depth, found) (t, next) =>
    match t.kind with
    | .leftParen | .arrowParen => (depth + 1, (next.loc, depth + 1) :: found)
    | .rightParen => (depth - 1, found)
    | _ => (depth, found)) (0, [])).2

/-- What stands around a place in a tree. -/
structure Surroundings where
  /-- The units of the constructs. -/
  units : Nat
  /-- The parentheses. -/
  parens : Nat
  deriving DecidableEq, Repr

/-- Nothing stands around a program. -/
def Surroundings.outermost : Surroundings := ⟨0, 0⟩

/-- What stands around the slots of a node. -/
def Surroundings.enter (opened : List (Location × Nat)) (node : Node) (around : Surroundings) :
    Surroundings where
  units := around.units + readingCost node
  parens :=
    if node.isWrapped then (opened.lookup node.loc).getD (around.parens + 1) else around.parens

/-- Whether reading has used up its budget. -/
def Surroundings.exceeded (around : Surroundings) : Bool :=
  readingBudget < around.units + around.parens

/-- Whether a left operand continues the chain of its operator. -/
def continuesChain (operand : Node) : Bool :=
  match operand with
  | .binary .. | .logical .. => !operand.isWrapped
  | _ => false

/-- What stands around the left operand of an operator, given what stands around the slots. -/
def Surroundings.left (around inside : Surroundings) (operand : Node) : Surroundings :=
  if continuesChain operand then { inside with units := around.units } else inside

/-- The first obstacle in a tree, given what stands around it. -/
def obstacle? (opened : List (Location × Nat)) (node : Node) : Surroundings → Option Obstacle :=
  node.fold fun node slots around =>
    let inside := around.enter opened node
    if inside.exceeded then some .tooDeep
    else
      match node.ownFault? with
      | some fault => some (.literal fault)
      | none =>
        match node, slots with
        | .binary _ _ _ operand _, [left, right] =>
          (left (around.left inside operand)).or (right inside)
        | .logical _ _ _ operand _, [left, right] =>
          (left (around.left inside operand)).or (right inside)
        | node, slots => (node.evaluationOrder slots).findSome? (· inside)

/-- The first obstacle in the tree of a program with these tokens. -/
def firstObstacle? (ts : List Token) (program : Node) : Option Obstacle :=
  obstacle? (openings ts) program .outermost

/-- The most units along a path for typing and writing. -/
def writingUnits (node : Node) : Nat :=
  node.fold fun node below =>
    let own := writingCost node + (if node.isWrapped then 1 else 0)
    match node, below with
    | .binary .., [left, right] => max left (own + right)
    | .logical .., [left, right] => max left (own + right)
    | _, below => own + below.foldl max 0

/-- Whether a program is too deep to be typed and written. -/
def tooDeepToWrite (program : Node) : Bool := writingBudget < writingUnits program

end Nesting

end TypeGloss
