import TypeGloss.Syntax.Fold

/-!
# Literals without a value

A program whose tokens fit together may still hold a literal that denotes nothing. The first such
literal is reported in the order in which values are worked out: an `else` branch before the test
and the other branch, the arguments of a call before the callee, and everything else from left to
right along the slots.
-/

namespace TypeGloss

namespace Node

/-- The fault of the literal that a node spells itself. -/
def ownFault? : Node → Option LiteralFault
  | .number _ _ raw => Literal.numberFault? raw
  | .string _ _ raw => Literal.stringFault? raw
  | .propertySignature _ (.number raw) _ _ => Literal.numberFault? raw
  | .propertySignature _ (.string raw) _ _ => Literal.stringFault? raw
  | _ => none

/-- The order in which the slots of a node are worked out. -/
def evaluationOrder {α : Type} : Node → List α → List α
  | .ifStatement .., [test, consequent, alternate] => [alternate, test, consequent]
  | .call .., callee :: arguments => arguments ++ [callee]
  | .construction .., callee :: arguments => arguments ++ [callee]
  | _, slots => slots

/-- The first fault of a literal in a tree. -/
def literalFault? (node : Node) : Option LiteralFault :=
  node.fold fun node faults => (node.ownFault? :: node.evaluationOrder faults).findSome? id

end Node

end TypeGloss
