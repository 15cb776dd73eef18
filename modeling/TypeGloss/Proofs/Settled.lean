import TypeGloss.Check
import TypeGloss.Proofs.Pieces
import TypeGloss.Proofs.Refill
import TypeGloss.Proofs.Rendered

/-!
# Keys as they are read back

A created key is any text, and it is printed as a word or as a quoted string. The settled form of a
tree has the keys that are read back where its keys were printed. It is printed as the tree itself,
and nothing but its keys differs.
-/

namespace TypeGloss

/-- The key that is read back where a key is printed. -/
def MemberKey.settled (key : MemberKey) : MemberKey :=
  if Key.isPlain key.text then .name key.text else .string (Key.render key.text)

theorem MemberKey.text_settled (key : MemberKey) : key.settled.text = key.text := by
  unfold MemberKey.settled
  cases plain : Key.isPlain key.text with
  | true => rfl
  | false => exact MemberKey.text_string_render plain

namespace Node

/-- A member of a type body with its settled key. -/
def rekey : Node → Node
  | .propertySignature loc key type optional => .propertySignature loc key.settled type optional
  | node => node

/-- The tree with its settled keys. -/
def settled (root : Node) : Node := root.fold fun node slots => rekey (node.withSlots slots)

theorem settled_eq (node : Node) : node.settled = rekey (node.mapSlots settled) := by
  rw [settled, fold_eq]
  rfl

theorem slots_settled (node : Node) : node.settled.slots = node.slots.map settled := by
  rw [settled_eq, ← slots_mapSlots]
  cases node.mapSlots settled <;> rfl

/-- Nodes that differ only in what they hold: the printer takes them for the same kind of part. -/
structure Looks (a b : Node) : Prop where
  isAbsent : a.isAbsent = b.isAbsent
  isType : a.isType = b.isType
  isBlock : Print.isBlock a = Print.isBlock b
  isBareObject : Print.isBareObject a = Print.isBareObject b
  startsAmbiguously : Print.startsAmbiguously a = Print.startsAmbiguously b
  sealed : Pieces.sealed a = Pieces.sealed b
  unionMember : Pieces.unionMember a = Pieces.unionMember b
  arrayElement : Pieces.arrayElement a = Pieces.arrayElement b
  nameOf : Pieces.nameOf a = Pieces.nameOf b
  key : Pieces.key a = Pieces.key b

theorem looks_rekey (node : Node) : Looks (rekey node) node := by
  cases node <;> exact ⟨rfl, rfl, rfl, rfl, rfl, rfl, rfl, rfl, rfl, rfl⟩

theorem looks_withSlots (node : Node) (slots : List Node) : Looks (node.withSlots slots) node := by
  unfold withSlots
  repeat' split
  all_goals exact ⟨rfl, rfl, rfl, rfl, rfl, rfl, rfl, rfl, rfl, rfl⟩

theorem looks_settled (node : Node) : Looks node.settled node := by
  rw [settled_eq]
  have rekeyed := looks_rekey (node.mapSlots settled)
  have refilled := looks_withSlots node (node.slots.map settled)
  exact ⟨rekeyed.isAbsent.trans refilled.isAbsent, rekeyed.isType.trans refilled.isType,
    rekeyed.isBlock.trans refilled.isBlock, rekeyed.isBareObject.trans refilled.isBareObject,
    rekeyed.startsAmbiguously.trans refilled.startsAmbiguously,
    rekeyed.sealed.trans refilled.sealed, rekeyed.unionMember.trans refilled.unionMember,
    rekeyed.arrayElement.trans refilled.arrayElement, rekeyed.nameOf.trans refilled.nameOf,
    rekeyed.key.trans refilled.key⟩

end Node

namespace Pieces

theorem arrayItems_settled (elements : List Node) (items : List (List Piece)) :
    arrayItems (elements.map Node.settled) items = arrayItems elements items := by
  have shape (elements : List Node) : arrayItems elements items =
      if elements.getLast?.any Node.isAbsent then items ++ [[]] else items := by
    unfold arrayItems
    cases elements.getLast? with
    | none => rfl
    | some last => cases last <;> rfl
  rw [shape, shape, List.getLast?_map, Option.any_map]
  simp only [(Node.looks_settled _).isAbsent]

/-- Trees that are printed alike, also as names with types and as blocks. -/
structure Same (layout : Layout) (a b : Node) : Prop where
  node : ∀ depth, node layout depth a = node layout depth b
  binding : ∀ depth, binding layout depth a = binding layout depth b
  blockOf : ∀ depth, blockOf layout depth a = blockOf layout depth b

/-- The settled form of a tree is printed as the tree itself. -/
theorem same_settled (layout : Layout) (root : Node) : Same layout root.settled root := by
  induction root using Node.slots_induction with
  | node root ih =>
    rw [Node.settled_eq]
    generalize isSlots : root.slots = slots at ih
    have nodeSame (slot : Node) (mem : slot ∈ slots) := (ih slot mem).node
    have bindingSame (slot : Node) (mem : slot ∈ slots) := (ih slot mem).binding
    have blockSame (slot : Node) (mem : slot ∈ slots) := (ih slot mem).blockOf
    have nodesSame (ns : List Node) (mem : ∀ n ∈ ns, n ∈ slots) (depth : Nat) :
        ns.map (node layout depth ∘ Node.settled) = ns.map (node layout depth) :=
      List.map_congr_left fun n inside => nodeSame n (mem n inside) depth
    have bindingsSame (ns : List Node) (mem : ∀ n ∈ ns, n ∈ slots) (depth : Nat) :
        ns.map (binding layout depth ∘ Node.settled) = ns.map (binding layout depth) :=
      List.map_congr_left fun n inside => bindingSame n (mem n inside) depth
    have looks (n : Node) := Node.looks_settled n
    clear ih
    refine ⟨fun depth => ?_, fun depth => ?_, fun depth => ?_⟩
    · cases root <;> simp only [Node.slots] at isSlots <;> subst isSlots <;>
        simp (disch := simp +contextual) [Node.mapSlots, Node.slots, Node.withSlots, Node.rekey,
          node, nodesSame, nodeSame, bindingsSame, bindingSame, blockSame, function, functionName,
          ascription, valuePart, body, elsePart, headerPart, beforeElse, block, memberHead,
          arrayItems_settled, MemberKey.text_settled, List.zipWith_map_left,
          List.zipWith_map_right, List.zipWith_self, (looks _).isAbsent, (looks _).isType,
          (looks _).isBlock, (looks _).isBareObject, (looks _).startsAmbiguously, (looks _).sealed,
          (looks _).unionMember, (looks _).arrayElement, (looks _).nameOf, (looks _).key]
    · cases root <;> simp only [Node.slots] at isSlots <;> subst isSlots <;>
        simp (disch := simp +contextual) [Node.mapSlots, Node.slots, Node.withSlots, Node.rekey,
          binding, nodeSame, bindingSame, ascription, valuePart, (looks _).isAbsent]
    · cases root <;> simp only [Node.slots] at isSlots <;> subst isSlots <;>
        simp (disch := simp +contextual) [Node.mapSlots, Node.slots, Node.withSlots, Node.rekey,
          blockOf, nodesSame, block, List.zipWith_map_left, List.zipWith_map_right,
          List.zipWith_self, (looks _).sealed]

end Pieces

end TypeGloss
