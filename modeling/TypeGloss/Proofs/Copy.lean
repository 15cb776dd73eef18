import TypeGloss.Proofs.Syntax
import TypeGloss.Syntax.Copy

/-!
# Walking and copying

The stack of a walk empties for every tree, and the nodes come in the order that recursion on the
tree gives. So does the walk of the nodes in their places. Backwards, everything inside a node comes
before it, and when a node is copied there are copies of all that is in it.
-/

namespace TypeGloss

namespace Node

/-- What is found at an address in a tree. -/
def at? (root : Node) (address : List Nat) : Option Node :=
  address.foldlM (fun node i => node.slots[i]?) root

theorem at?_concat (root : Node) (address : List Nat) (i : Nat) :
    root.at? (address ++ [i]) = (root.at? address).bind (·.slots[i]?) := by
  simp [at?, List.foldlM_append]

end Node

namespace Occurrence

theorem map_node_slots (o : Occurrence) : o.slots.map node = o.node.slots := by
  apply List.ext_getElem?
  simp [slots, Function.comp_def]

theorem map_node_children (o : Occurrence) : o.children.map node = o.node.children := by
  rw [children, Node.children, ← map_node_slots, List.filter_map]
  rfl

/-- What is in a node that stands at its address stands at its own address too. -/
theorem at?_children {root : Node} (o : Occurrence) (placed : root.at? o.address = some o.node) :
    ∀ child ∈ o.children, root.at? child.address = some child.node := by
  intro child mem
  obtain ⟨i, within, rfl⟩ := List.mem_mapIdx.mp (List.mem_filter.mp mem).1
  simp [Node.at?_concat, placed]

/-- A node is copied as it is if the nodes in it are. -/
theorem copyInto?_eq {copies : Table (List Nat) Node} {o : Occurrence}
    (inside : ∀ child ∈ o.children, copies.get? child.address = some child.node) :
    copyInto? copies o = some (copies.insert o.address o.node) := by
  have filled : ∀ slot ∈ o.slots, copied? copies slot = some slot.node := by
    intro slot mem
    cases absent : slot.node.isAbsent with
    | true => rw [copied?, if_pos absent]
    | false =>
      rw [copied?, if_neg (by simp [absent])]
      exact inside slot (List.mem_filter.mpr ⟨mem, by simp [absent]⟩)
  have all : o.slots.mapM (copied? copies) = some (o.slots.map node) := by
    revert filled
    induction o.slots with
    | nil => exact fun _ => rfl
    | cons slot slots ih =>
      intro filled
      obtain ⟨here, others⟩ := List.forall_mem_cons.mp filled
      rw [List.mapM_cons, here, ih others]
      rfl
  rw [copyInto?, all, map_node_slots, Option.map_some, Node.withSlots_slots]

/-- Nodes that stand at their addresses are all copied, the last one first, if what is in each of
them comes behind it. -/
theorem foldlM_copyInto? {root : Node} (os : List Occurrence)
    (placed : ∀ o ∈ os, root.at? o.address = some o.node)
    (behind : ∀ before o after, os = before ++ o :: after → ∀ child ∈ o.children, child ∈ after) :
    ∃ copies, os.reverse.foldlM copyInto? [] = some copies ∧
      ∀ o ∈ os, copies.get? o.address = some o.node := by
  induction os with
  | nil => exact ⟨[], rfl, by simp⟩
  | cons first os ih =>
    obtain ⟨here, others⟩ := List.forall_mem_cons.mp placed
    obtain ⟨copies, run, found⟩ := ih others fun before o after split =>
      behind (first :: before) o after (by rw [split, List.cons_append])
    have inside := fun child mem => found child (behind [] first os rfl child mem)
    refine ⟨copies.insert first.address first.node, ?_, fun o mem => ?_⟩
    · rw [List.reverse_cons, List.foldlM_append, run]
      simp [copyInto?_eq inside]
    · rw [Table.get?_insert]
      split
      case isTrue same => exact here.symm.trans (same ▸ placed o mem)
      case isFalse other =>
        rcases List.mem_cons.mp mem with rfl | mem
        · exact absurd rfl other
        · exact found o mem

end Occurrence

namespace Node

/-- The nodes of a tree in their places are its nodes, and working off the stack reaches them. -/
theorem drained_occurrences {root : Node} (present : root.isAbsent = false) :
    Drained Occurrence.children [⟨[], root⟩] root.occurrences ∧
      root.occurrences.map Occurrence.node = root.preorder := by
  have alone : [(⟨[], root⟩ : Occurrence)].map Occurrence.node = [root] := rfl
  obtain ⟨seen, drained, nodes⟩ :=
    (drained_preorder present).lift Occurrence.map_node_children alone
  have length : root.size = seen.length := by
    rw [size_eq_length_preorder, ← nodes, List.length_map]
  rw [occurrences, drained.drain_eq _ (Nat.le_of_eq length.symm)]
  exact ⟨drained, nodes⟩

/-- For every tree, which is any node but an empty slot, the stack of a walk empties, after the
nodes that recursion gives: a node and behind it those of its slots, from left to right and without
the empty ones. In the reverse order, everything in a node comes before the node and its copy is
found by then, so that the whole tree is copied. -/
theorem walk_drained (root : Node) (present : root.isAbsent = false) :
    (∀ visited, Drained children [root] visited ↔ visited = root.walk) ∧
      root.walk = root.preorder ∧
      root.occurrences.map Occurrence.node = root.walk ∧
      (∀ before o after, root.occurrences.reverse = before ++ o :: after →
        (∀ child ∈ o.children, child ∈ before) ∧
        ∃ copies, before.foldlM Occurrence.copyInto? [] = some copies ∧
          ∀ child ∈ o.children, copies.get? child.address = some child.node) ∧
      root.copy? = some root := by
  have drained := drained_preorder present
  obtain ⟨reached, nodes⟩ := drained_occurrences present
  have placed := reached.forall_visited (p := fun o => root.at? o.address = some o.node)
    Occurrence.at?_children (by simp [at?])
  have behind : ∀ before o after, root.occurrences = before ++ o :: after →
      ∀ child ∈ o.children, child ∈ after :=
    fun _ _ _ split _ mem => reached.children_behind split mem
  refine ⟨fun visited => ?_, root.walk_eq_preorder, ?_, fun before o after split => ?_, ?_⟩
  · rw [walk_eq_preorder]
    exact ⟨drained.unique, fun same => same ▸ drained⟩
  · rw [nodes, walk_eq_preorder]
  · have split : root.occurrences = after.reverse ++ o :: before.reverse := by
      simpa using congrArg List.reverse split
    have earlier := behind _ _ _ split
    obtain ⟨copies, run, found⟩ := Occurrence.foldlM_copyInto? before.reverse
      (fun o mem => placed o (by simp [split, List.mem_reverse.mp mem]))
      fun first inner rest same =>
        behind (after.reverse ++ o :: first) inner rest (by rw [split, same]; simp)
    rw [List.reverse_reverse] at run
    exact ⟨fun child mem => List.mem_reverse.mp (earlier child mem), copies, run,
      fun child mem => found child (earlier child mem)⟩
  · obtain ⟨copies, run, found⟩ := Occurrence.foldlM_copyInto? root.occurrences placed behind
    rw [copy?, run]
    exact found ⟨[], root⟩ (reached.mem_visited List.mem_cons_self)

/-- In `[, null]` the hole is passed over, and it is there again in the copy. -/
theorem walk_drained_hole :
    (Node.array .synthetic false [.absent, .null .synthetic false]).isAbsent = false ∧
      Drained children [.array .synthetic false [.absent, .null .synthetic false]]
        [.array .synthetic false [.absent, .null .synthetic false], .null .synthetic false] ∧
      (Node.array .synthetic false [.absent, .null .synthetic false]).copy? =
        some (.array .synthetic false [.absent, .null .synthetic false]) := by
  obtain ⟨ends, -, -, -, copied⟩ :=
    walk_drained (.array .synthetic false [.absent, .null .synthetic false]) rfl
  exact ⟨rfl, (ends _).mpr rfl, copied⟩

end Node

end TypeGloss
