import Mathlib.Data.List.Basic
import TypeGloss.Proofs.Traversal

/-!
# Induction on trees

A property of trees that a node has whenever all its slots have it is one of all trees. A walk
visits the nodes of a tree in pre-order, so a property of all visited nodes is one of the whole
tree.
-/

namespace TypeGloss

namespace Node

theorem eq_absent {node : Node} (absent : node.isAbsent = true) : node = .absent := by
  cases node <;> first | rfl | cases absent

theorem sizeOf_lt_of_mem_slots {node slot : Node} (h : slot ∈ node.slots) :
    sizeOf slot < sizeOf node := by
  have inList {nodes : List Node} (h : slot ∈ nodes) : sizeOf slot < sizeOf nodes :=
    List.sizeOf_lt_of_mem h
  cases node <;> simp [slots] at h ⊢ <;> grind

/-- Induction along the slots of nodes. -/
theorem slots_induction {motive : Node → Prop}
    (node : ∀ node : Node, (∀ slot ∈ node.slots, motive slot) → motive node) (root : Node) :
    motive root :=
  node root fun slot h =>
    have := sizeOf_lt_of_mem_slots h
    slots_induction node slot
termination_by sizeOf root

/-- The nodes of a tree in pre-order, by recursion on the tree. -/
def preorder (root : Node) : List Node :=
  root.fold fun node inner => if node.isAbsent then [] else node :: inner.flatten

theorem preorder_eq (root : Node) :
    root.preorder = if root.isAbsent then [] else root :: root.slots.flatMap preorder := by
  rw [preorder, fold_eq, List.flatMap]
  rfl

theorem size_eq_length_preorder (root : Node) : root.size = root.preorder.length := by
  induction root using slots_induction with
  | node root ih =>
    rw [preorder_eq, size, fold_eq]
    split
    · rfl
    · have sizes : root.slots.map (fold fun node sizes =>
          if node.isAbsent then 0 else 1 + sizes.foldr (· + ·) 0) =
          root.slots.map (·.preorder.length) := List.map_congr_left ih
      rw [sizes, List.length_cons, List.length_flatMap, List.sum]
      omega

theorem flatMap_preorder_children (root : Node) :
    root.children.flatMap preorder = root.slots.flatMap preorder := by
  unfold children
  induction root.slots with
  | nil => rfl
  | cons slot slots ih =>
    rw [List.filter_cons]
    cases absent : slot.isAbsent with
    | false => simp [ih]
    | true =>
      have empty : slot.preorder = [] := by rw [preorder_eq, if_pos absent]
      simp [ih, empty]

/-- Working off a tree on top of a stack visits its nodes in pre-order. -/
theorem drained_cons {root : Node} (present : root.isAbsent = false) {stack visited : List Node}
    (rest : Drained children stack visited) :
    Drained children (root :: stack) (root.preorder ++ visited) := by
  induction root using slots_induction generalizing stack visited with
  | node root ih =>
    have front (nodes : List Node) (inside : ∀ node ∈ nodes, node ∈ root.children) :
        Drained children (nodes ++ stack) (nodes.flatMap preorder ++ visited) := by
      induction nodes with
      | nil => exact rest
      | cons node nodes behind =>
        obtain ⟨mem, others⟩ := List.forall_mem_cons.mp inside
        obtain ⟨isSlot, some⟩ := List.mem_filter.mp mem
        rw [List.flatMap_cons, List.append_assoc]
        exact ih node isSlot (by simpa using some) (behind others)
    rw [preorder_eq, if_neg (by simp [present]), ← flatMap_preorder_children]
    exact .visit (front root.children fun _ => id)

theorem drained_preorder {root : Node} (present : root.isAbsent = false) :
    Drained children [root] root.preorder := by
  simpa using drained_cons present .done

/-- A walk visits the nodes of a tree in pre-order. -/
theorem walk_eq_preorder (root : Node) : root.walk = root.preorder := by
  unfold walk
  cases absent : root.isAbsent with
  | true =>
    have empty : root.preorder = [] := by rw [preorder_eq, if_pos absent]
    rw [size_eq_length_preorder, empty]
    rfl
  | false =>
    exact (drained_preorder absent).drain_eq _ (Nat.le_of_eq root.size_eq_length_preorder.symm)

section Map

variable {f : Node → Node} (slots : ∀ node, (f node).slots = node.slots.map f)
  (isAbsent : ∀ node, (f node).isAbsent = node.isAbsent)

include slots isAbsent

private theorem preorder_map (root : Node) : (f root).preorder = root.preorder.map f := by
  induction root using slots_induction with
  | node root ih =>
    rw [preorder_eq, preorder_eq, isAbsent, slots]
    split
    · rfl
    · rw [List.map_cons, List.flatMap_map, List.map_flatMap]
      exact congrArg _ (List.flatMap_congr ih)

/-- A walk through a tree that was changed node by node. -/
theorem walk_map (root : Node) : (f root).walk = root.walk.map f := by
  rw [walk_eq_preorder, walk_eq_preorder, preorder_map slots isAbsent]

end Map

/-- A tree all of whose nodes have a property, empty slots included. -/
inductive Every (p : Node → Prop) : Node → Prop
  | mk {node : Node} (here : p node) (each : ∀ slot ∈ node.slots, Every p slot) : Every p node

theorem Every.here {p : Node → Prop} {node : Node} (every : Every p node) : p node := by
  cases every
  assumption

theorem Every.each {p : Node → Prop} {node : Node} (every : Every p node) :
    ∀ slot ∈ node.slots, Every p slot := by
  cases every
  assumption

theorem Every.imp {p q : Node → Prop} (weaker : ∀ node, p node → q node) {node : Node}
    (every : Every p node) : Every q node := by
  induction every with
  | mk here _ ih => exact .mk (weaker _ here) ih

/-- What holds of every node that a walk visits holds throughout the tree. -/
theorem every_of_walk {p : Node → Prop} (absent : p .absent) (root : Node)
    (visited : ∀ node ∈ root.walk, p node) : root.Every p := by
  rw [walk_eq_preorder] at visited
  induction root using slots_induction with
  | node root ih =>
    rw [preorder_eq] at visited
    cases isAbsent : root.isAbsent with
    | true =>
      obtain rfl := eq_absent isAbsent
      exact .mk absent (by simp [slots])
    | false =>
      rw [if_neg (by simp [isAbsent]), List.forall_mem_cons] at visited
      refine .mk visited.1 fun slot mem => ih slot mem fun node inside => visited.2 node ?_
      exact List.mem_flatMap.mpr ⟨slot, mem, inside⟩

theorem walk_of_every {p : Node → Prop} {root : Node} (every : root.Every p) :
    ∀ node ∈ root.walk, p node := by
  rw [walk_eq_preorder]
  induction every with
  | @mk node here each ih =>
    rw [preorder_eq]
    split
    · simp
    · rw [List.forall_mem_cons]
      refine ⟨here, fun inner mem => ?_⟩
      obtain ⟨slot, isSlot, inside⟩ := List.mem_flatMap.mp mem
      exact ih slot isSlot inner inside

end Node

end TypeGloss
