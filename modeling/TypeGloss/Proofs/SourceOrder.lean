import Mathlib.Data.List.Perm.Basic
import TypeGloss.Proofs.Resolution
import TypeGloss.Proofs.TokenOrder

/-!
# Walks and the order of the source

A walk visits the body of a function before its result type, though the result type is written
first. With these two exchanged, the nodes of a program that is read stand in the order of the
source. So a walk follows the source just when no function of the program has a result type: the
brace of a body stands strictly behind the type before it.
-/

namespace TypeGloss

namespace Node

variable {α β : Type}

/-- The type that is written as the result of a function. -/
def resultType : Node → Node
  | .functionExpression _ _ _ _ _ result | .functionDeclaration _ _ _ _ result => result
  | _ => .absent

/-- What is listed for the slots of a node, in the order in which the slots are written: a result
type comes before the body, which is the slot before it. -/
def arranged (node : Node) (parts : List α) : List α :=
  if node.resultType.isAbsent then parts
  else
    match parts.reverse with
    | result :: body :: rest => rest.reverse ++ [result, body]
    | _ => parts

/-- The nodes of a tree in the order in which they are written. -/
def written (root : Node) : List Node :=
  root.fold fun node inner => if node.isAbsent then [] else node :: (node.arranged inner).flatten

/-- Nodes in the order of their places. -/
def InOrder (nodes : List Node) : Prop :=
  nodes.Pairwise fun earlier later => earlier.loc ≤ later.loc

instance (nodes : List Node) : Decidable (InOrder nodes) :=
  inferInstanceAs (Decidable (nodes.Pairwise _))

/-- The mark of a node. -/
def mark : Node → Mark
  | .block loc _ => .block loc
  | node => .place node.loc

theorem loc_mark (node : Node) : node.mark.loc = node.loc := by
  cases node <;> rfl

theorem arranged_append {node : Node} (typed : node.resultType.isAbsent = false) (front : List α)
    (body result : α) : node.arranged (front ++ [body, result]) = front ++ [result, body] := by
  simp [arranged, typed]

theorem map_arranged (f : α → β) (node : Node) (parts : List α) :
    (node.arranged parts).map f = node.arranged (parts.map f) := by
  unfold arranged
  split
  · rfl
  · rw [← List.map_reverse]
    rcases parts.reverse with _ | ⟨result, _ | ⟨body, rest⟩⟩ <;> simp

theorem arranged_perm (node : Node) (parts : List α) : (node.arranged parts).Perm parts := by
  unfold arranged
  split
  · rfl
  · split
    case h_1 result body rest reversed =>
      rw [List.reverse_eq_iff.mp reversed, List.reverse_cons, List.reverse_cons,
        List.append_assoc]
      exact .append_left _ (.swap body result [])
    case h_2 => rfl

theorem written_eq (root : Node) :
    root.written =
      if root.isAbsent then [] else root :: (root.arranged root.slots).flatMap written := by
  rw [written, fold_eq, List.flatMap, map_arranged]
  rfl

/-- The nodes that are written are those that a walk visits. -/
theorem written_perm (root : Node) : root.written.Perm root.preorder := by
  induction root using slots_induction with
  | node root ih =>
    rw [written_eq, preorder_eq]
    split
    · rfl
    · have each : ∀ slot ∈ root.arranged root.slots, slot.written.Perm slot.preorder :=
        fun slot mem => ih slot ((arranged_perm root _).subset mem)
      exact ((arranged_perm root root.slots).flatMap each).cons root

theorem written_eq_preorder {root : Node} (untyped : root.Every (·.resultType.isAbsent = true)) :
    root.written = root.preorder := by
  induction untyped with
  | @mk node here _ ih =>
    rw [written_eq, preorder_eq, arranged, if_pos here, List.flatMap_congr ih]

theorem trailAll_eq (nodes : List Node) : trailAll nodes = nodes.flatMap trail := by
  induction nodes with
  | nil => rfl
  | cons node rest ih => rw [trailAll, ih, List.flatMap_cons]

theorem trail_eq (root : Node) :
    root.trail =
      if root.isAbsent then [] else root.mark :: (root.arranged root.slots).flatMap trail := by
  cases root with
  | functionExpression loc wrapped name params body result
  | functionDeclaration loc name params body result =>
    rw [if_neg (by simp [isAbsent])]
    cases absent : result.isAbsent with
    | true =>
      obtain rfl := eq_absent absent
      simp [mark, arranged, resultType, absent, slots, trailAll_eq, Node.loc]
    | false => simp [mark, arranged, resultType, absent, slots, trailAll_eq, Node.loc]
  | _ => simp [mark, arranged, resultType, slots, trailAll_eq, isAbsent, loc]

theorem trail_eq_map_written (root : Node) : root.trail = root.written.map mark := by
  induction root using slots_induction with
  | node root ih =>
    rw [trail_eq, written_eq]
    split
    · rfl
    · rw [List.map_cons, List.map_flatMap, List.flatMap_congr fun slot mem =>
        ih slot ((arranged_perm root _).subset mem)]

/-- What lists at each node at least what is listed for its slots does so for all nodes of a
tree. -/
theorem sublist_of_mem_preorder {list : Node → List α}
    (slot : ∀ root : Node, root.isAbsent = false →
      ∀ slot ∈ root.slots, (list slot).Sublist (list root))
    {root node : Node} (mem : node ∈ root.preorder) : (list node).Sublist (list root) := by
  induction root using slots_induction with
  | node root ih =>
    rw [preorder_eq] at mem
    split at mem
    case isTrue => cases mem
    case isFalse present =>
      rcases List.mem_cons.mp mem with rfl | inner
      · exact .refl _
      · obtain ⟨part, isSlot, inside⟩ := List.mem_flatMap.mp inner
        exact (ih part isSlot inside).trans (slot root (by simpa using present) part isSlot)

theorem preorder_sublist {root node : Node} (mem : node ∈ root.preorder) :
    node.preorder.Sublist root.preorder := by
  refine sublist_of_mem_preorder (fun root present slot isSlot => ?_) mem
  rw [preorder_eq root, if_neg (by simp [present])]
  exact (List.sublist_flatten_of_mem (List.mem_map_of_mem isSlot)).cons root

theorem trail_sublist {root node : Node} (mem : node ∈ root.preorder) :
    node.trail.Sublist root.trail := by
  refine sublist_of_mem_preorder (fun root present slot isSlot => ?_) mem
  have isPart : slot ∈ root.arranged root.slots := (arranged_perm root _).symm.subset isSlot
  rw [trail_eq root, if_neg (by simp [present])]
  exact (List.sublist_flatten_of_mem (List.mem_map_of_mem isPart)).cons root.mark

/-- A function with a result type has a block for its body, in the slot before the type. -/
def TypesBlock (node : Node) : Prop :=
  node.resultType.isAbsent = false →
    ∃ front loc statements, node.slots = front ++ [.block loc statements, node.resultType]

theorem typesBlock_of_fits {R : Prop} {form : Grammar.Form} {node : Node}
    (fits : Grammar.Fits (.source R) form node) : node.Every TypesBlock := by
  have other {node : Node} (none : node.resultType = .absent) : node.TypesBlock := by
    rw [TypesBlock, none]
    nofun
  have part (node : Node) (isPart : Grammar.isTypePart node = true) : node.TypesBlock :=
    other (by cases node <;> first | rfl | cases isPart)
  refine fits.every (.of_isTypePart part ?_) fun {form node} fits => ?_
  · rintro _ (_ | _ | _) <;> exact other rfl
  · induction fits with
    | @wrapped _ _ _ e _ _ ih => cases e <;> exact ih
    | function _ _ _ block | declaredFunction _ _ block =>
      cases block
      exact fun _ => ⟨_ :: _, _, _, rfl⟩
    | given _ ih | declaredVariables _ ih | initializerVariables _ ih | initializerExpression _ ih
    | declared _ ih | blockStatement _ ih => exact ih
    | binary level => cases level <;> exact other rfl
    | param bound => cases bound <;> exact other rfl
    | interface allowed => cases allowed; exact other rfl
    | _ => exact other rfl

theorem singleton_sublist_preorder {node : Node} (present : node.isAbsent = false) :
    [node].Sublist node.preorder := by
  rw [preorder_eq, if_neg (by simp [present])]
  simp

theorem singleton_sublist_trail {node : Node} (present : node.isAbsent = false) :
    [node.mark].Sublist node.trail := by
  rw [trail_eq, if_neg (by simp [present])]
  simp

/-- A walk visits the body of a function before the result type, which is written first. -/
theorem TypesBlock.crosses {node : Node} (types : node.TypesBlock)
    (typed : node.resultType.isAbsent = false) :
    ∃ body : Node, [body, node.resultType].Sublist node.preorder ∧
      [node.resultType.mark, .block body.loc].Sublist node.trail.tail := by
  obtain ⟨front, loc, statements, parts⟩ := types typed
  have present : node.isAbsent = false := by cases node <;> first | rfl | cases typed
  have block : (Node.block loc statements).isAbsent = false := rfl
  refine ⟨.block loc statements, ?_, ?_⟩
  · rw [preorder_eq, if_neg (by simp [present]), parts, List.flatMap_append, List.flatMap_cons,
      List.flatMap_singleton]
    exact .cons _ (.trans ((singleton_sublist_preorder block).append
      (singleton_sublist_preorder typed)) (List.sublist_append_right ..))
  · rw [trail_eq, if_neg (by simp [present]), parts, arranged_append typed, List.tail_cons,
      List.flatMap_append, List.flatMap_cons, List.flatMap_singleton]
    exact .trans ((singleton_sublist_trail typed).append (singleton_sublist_trail block))
      (List.sublist_append_right ..)

end Node

namespace Source

open Node (InOrder)

variable {dialect : Dialect} {source : Text} {ts : List Token} {program : Node}

/-- The places of a program that is read: behind its start, those of its tokens. -/
theorem Reads.trail_before (reads : Reads dialect source ts program) :
    program.trail.tail.Pairwise Mark.Before ∧
      program.trail.Pairwise fun earlier later => earlier.loc ≤ later.loc := by
  obtain ⟨marks, own, retraces⟩ := Parse.read?_trail reads.parsed
  obtain ⟨ascends, behind⟩ := Token.refine_ascends reads.scanned
  have inner : marks.Pairwise Mark.Before := retraces.pairwise (fun _ => le_rfl) ascends
  rw [own]
  exact ⟨inner, List.pairwise_cons.mpr ⟨fun mark mem => behind mark (retraces.subset mem),
    inner.imp Mark.Before.le⟩⟩

theorem Reads.written_inOrder (reads : Reads dialect source ts program) :
    InOrder program.written := by
  have ascends := reads.trail_before.2
  rw [Node.trail_eq_map_written, List.pairwise_map] at ascends
  simp only [Node.loc_mark] at ascends
  exact ascends

/-- A result type is out of order. -/
theorem Reads.untyped_of_inOrder (reads : Reads dialect source ts program)
    (inOrder : InOrder program.walk) :
    ∀ node ∈ program.walk, node.resultType.isAbsent = true := by
  intro node mem
  have types := Node.walk_of_every (Node.typesBlock_of_fits reads.fits) node mem
  rw [Node.walk_eq_preorder] at inOrder mem
  by_contra typed
  obtain ⟨body, visited, written⟩ := types.crosses (by simpa using typed)
  have visits : InOrder [body, node.resultType] :=
    inOrder.sublist (visited.trans (Node.preorder_sublist mem))
  have writes := reads.trail_before.1.sublist (written.trans (Node.trail_sublist mem).tail)
  rw [InOrder, List.pairwise_pair] at visits
  rw [List.pairwise_pair] at writes
  have earlier : node.resultType.mark.loc < body.loc := writes
  rw [Node.loc_mark] at earlier
  exact not_le_of_gt earlier visits

theorem firstTypeSyntax?_eq (program : Node) :
    firstTypeSyntax? program = program.walk.find? Node.isTyped := by
  rw [firstTypeSyntax?]
  congr 1
  funext node
  cases node <;> simp [Node.isTyped, Node.isType, Node.interfaceName?]

/-- Among nodes in order, no later one that is searched for stands before the first. -/
theorem le_of_find? {nodes : List Node} (inOrder : InOrder nodes) {test : Node → Bool}
    {first : Node} (found : nodes.find? test = some first) :
    ∀ node ∈ nodes, test node = true → first.loc ≤ node.loc := by
  obtain ⟨-, before, behind, rfl, others⟩ := List.find?_eq_some_iff_append.mp found
  intro node mem isFound
  rcases List.mem_append.mp mem with early | late
  · have other := others node early
    simp [isFound] at other
  · rcases List.mem_cons.mp late with rfl | late
    · exact le_rfl
    · exact (List.pairwise_cons.mp (List.pairwise_append.mp inOrder).2.1).1 node late

/-- A program that is read has its nodes in the order of the source, once the result type of each
function is put before the body. A walk, which visits the body first, follows the source just when
no function has a result type. Then the first type syntax of the walk is also the first in the
source. -/
theorem walk_inOrder_iff (read : Source.read dialect source = .ok program) :
    program.written.Perm program.walk ∧ InOrder program.written ∧
      (InOrder program.walk ↔ ∀ node ∈ program.walk, node.resultType.isAbsent = true) ∧
      ((∀ node ∈ program.walk, node.resultType.isAbsent = true) →
        ∀ first, firstTypeSyntax? program = some first →
          ∀ node ∈ program.walk, node.isTyped = true → first.loc ≤ node.loc) := by
  obtain ⟨ts, reads⟩ := reads_of_read read
  have inOrder (untyped : ∀ node ∈ program.walk, node.resultType.isAbsent = true) :
      InOrder program.walk := by
    have every := Node.every_of_walk (p := (·.resultType.isAbsent = true)) rfl program untyped
    rw [Node.walk_eq_preorder, ← Node.written_eq_preorder every]
    exact reads.written_inOrder
  refine ⟨?_, reads.written_inOrder, ⟨reads.untyped_of_inOrder, inOrder⟩, ?_⟩
  · rw [Node.walk_eq_preorder]
    exact program.written_perm
  · intro untyped first found
    rw [firstTypeSyntax?_eq] at found
    exact le_of_find? (inOrder untyped) found

/-- A function with a result type in a program with other types. -/
theorem walk_inOrder_iff_types :
    ∃ program, Source.read .typescript "let x:string\nfunction f(a:x[]):number\x7breturn 1\x7d" =
        .ok program ∧
      InOrder program.written ∧
      (InOrder program.walk ↔ ∀ node ∈ program.walk, node.resultType.isAbsent = true) := by
  obtain ⟨program, read⟩ : ∃ program, Source.read .typescript
      "let x:string\nfunction f(a:x[]):number\x7breturn 1\x7d" = .ok program := ⟨_, rfl⟩
  obtain ⟨-, written, walked, -⟩ := walk_inOrder_iff read
  exact ⟨program, read, written, walked⟩

/-- A result type is visited behind the body, which is written behind it. -/
theorem walk_inOrder_result :
    ∃ program, Source.read .typescript "function f(): number \x7b return 1; \x7d" = .ok program ∧
      ¬InOrder program.walk := by
  refine ⟨.program ⟨1, 1⟩ [.functionDeclaration ⟨1, 1⟩ (.identifier ⟨1, 10⟩ false "f" .absent) []
    (.block ⟨1, 22⟩ [.returnStatement ⟨1, 24⟩ (.number ⟨1, 31⟩ false "1")])
    (.keywordType ⟨1, 15⟩ "number")], rfl, ?_⟩
  decide +kernel

end Source

end TypeGloss
