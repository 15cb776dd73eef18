import TypeGloss.Print.Placement
import TypeGloss.Syntax.Rebuild

/-!
# Printing drafts

A draft is printed as its tree is, with a word for each text that is left out. In the header of a
loop this word takes no blank before it. Such a part is printed as a type, which takes none either:
no type is left where an expression is due when nothing is wrong with the tree.
-/

namespace TypeGloss

namespace Print

mutual

/-- The faults of a node and what is in it, given what is left out. -/
def placement : Gaps → Node → Placement
  | .node own inner, node => .ofSlots own node (placements inner node.slots)

/-- The faults of nodes, given what is left out of each. -/
def placements : List Gaps → List Node → List Placement
  | gaps :: rest, node :: nodes => placement gaps node :: placements rest nodes
  | _, nodes => nodes.map (Node.fold (Placement.ofSlots .none))

end

/-- A part in the header of a loop, and the word for it if its text is left out. -/
def headerWord (gaps : Gaps) (part : Node) : Node :=
  if (Placement.ofSlots gaps.own part []).lacksText then .keywordType part.loc Draft.missingText
  else part

mutual

/-- The tree to be printed, given what is left out. -/
def filled : Gaps → Node → Node
  | .node _ inner, node =>
    match node.withSlots (allFilled inner node.slots), inner with
    | .forStatement loc initializer test step body, [_, ofTest, ofStep, _] =>
      .forStatement loc initializer (headerWord ofTest test) (headerWord ofStep step) body
    | node, _ => node

/-- The trees to be printed, given what is left out of each. -/
def allFilled : List Gaps → List Node → List Node
  | gaps :: rest, node :: nodes => filled gaps node :: allFilled rest nodes
  | _, nodes => nodes

end

end Print

/-- The text of the program of a draft, or the first reason why it cannot be printed. -/
def Draft.print (layout : Layout) (draft : Draft) : Except Unprintable Text :=
  match (Print.placement draft.gaps draft.tree).fault .program with
  | some e => .error e
  | none => .ok (Print.node layout 0 [] (Print.filled draft.gaps draft.tree))

end TypeGloss
