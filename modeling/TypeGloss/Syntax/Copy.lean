import TypeGloss.Syntax.Rebuild
import TypeGloss.Syntax.Walk
import TypeGloss.Table

/-!
# Copying a tree

A tree is copied without recursion. Its nodes are taken in the reverse order of a walk, and each one
is put together anew from the copies of the nodes in its slots. Equal nodes may stand in several
places of a tree, so the copies are kept under the places.
-/

namespace TypeGloss

/-- A node in its place in a tree. -/
structure Occurrence where
  /-- The numbers of the slots on the way from the root. -/
  address : List Nat
  /-- What is there. -/
  node : Node
  deriving Repr

namespace Occurrence

/-- The slots of a node in their places. -/
def slots (o : Occurrence) : List Occurrence :=
  o.node.slots.mapIdx fun i slot => ⟨o.address ++ [i], slot⟩

/-- The nodes directly inside a node, in their places. -/
def children (o : Occurrence) : List Occurrence := o.slots.filter (!·.node.isAbsent)

/-- What a slot is filled with in a copy: nothing if it is empty, and else the copy of its node. -/
def copied? (copies : Table (List Nat) Node) (slot : Occurrence) : Option Node :=
  if slot.node.isAbsent then some slot.node else copies.get? slot.address

/-- The copies with one more, made from those of what is in the node. -/
def copyInto? (copies : Table (List Nat) Node) (o : Occurrence) : Option (Table (List Nat) Node) :=
  (o.slots.mapM (copied? copies)).map fun slots =>
    copies.insert o.address (o.node.withSlots slots)

end Occurrence

namespace Node

/-- The nodes of a tree in pre-order, each in its place. -/
def occurrences (root : Node) : List Occurrence :=
  drain Occurrence.children root.size [⟨[], root⟩]

/-- The copy of a tree, unless the copy of some node is missing when it is looked up. -/
def copy? (root : Node) : Option Node :=
  (root.occurrences.reverse.foldlM Occurrence.copyInto? []).bind (·.get? [])

end Node

end TypeGloss
