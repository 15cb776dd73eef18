import TypeGloss.Syntax.Node

/-!
# Drafts

A draft is a program that is handed over as a tree instead of being read from a source text. Its
nodes may stand anywhere, and each may leave out its text or its list of slots. The tree of a draft
holds `missingText` and empty lists in their stead, and the gaps tell them from what is really there.
-/

namespace TypeGloss

/-- What a node leaves out. No node has more than one text and one list of its own. -/
structure Gap where
  /-- Whether the text is left out. -/
  text : Bool
  /-- Whether the list is left out. -/
  list : Bool
  deriving DecidableEq, Repr

/-- The node is complete. -/
def Gap.none : Gap := ⟨false, false⟩

/-- What a tree leaves out. -/
inductive Gaps where
  /-- What a node leaves out, and what the trees in its slots leave out. -/
  | node (own : Gap) (slots : List Gaps)

/-- What the node at the root leaves out. -/
def Gaps.own : Gaps → Gap
  | .node own _ => own

/-- A tree that leaves nothing out. -/
def Gaps.none : Gaps := .node .none []

instance : Inhabited Gaps := ⟨.none⟩

/-- A tree with what it leaves out. -/
structure Draft where
  /-- The tree, with the gaps filled. -/
  tree : Node
  /-- What was left out. -/
  gaps : Gaps

/-- The word for a text that is left out. -/
def Draft.missingText : Text := "None"

end TypeGloss
