import TypeGloss.Syntax.Fold

/-!
# Traversal

A tree is walked in pre-order: a node before the nodes inside it, and those from left to right. The
walk keeps the nodes still to visit on a stack.
-/

namespace TypeGloss

/-- Visits what is on a stack, and behind each visited thing its children, in front of the rest of
the stack. Every visit costs one unit of `fuel`. -/
def drain {α : Type} (children : α → List α) : (fuel : Nat) → (stack : List α) → List α
  | 0, _ => []
  | _ + 1, [] => []
  | fuel + 1, top :: stack => top :: drain children fuel (children top ++ stack)

namespace Node

/-- The number of nodes in a tree; empty slots do not count. -/
def size (node : Node) : Nat :=
  node.fold fun node sizes => if node.isAbsent then 0 else 1 + sizes.foldr (· + ·) 0

/-- The nodes of a tree in pre-order. -/
def walk (root : Node) : List Node := drain children root.size [root]

end Node

end TypeGloss
