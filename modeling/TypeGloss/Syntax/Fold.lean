import TypeGloss.Syntax.Node

/-!
# Folding a tree

A function on trees that depends on a node and on the results for its slots is given once for all
kinds of nodes: `fold f node` is `f node` at the results for the slots of the node, in their order.
-/

namespace TypeGloss

namespace Node

variable {α : Type}

mutual

/-- The value of a tree, from the values of the slots of each node. -/
def fold (f : Node → List α → α) : Node → α
  | .typeReference loc name arguments =>
    f (.typeReference loc name arguments) (foldAll f arguments)
  | .unionType loc members => f (.unionType loc members) (foldAll f members)
  | .arrayType loc element => f (.arrayType loc element) [fold f element]
  | .propertySignature loc key type optional =>
    f (.propertySignature loc key type optional) [fold f type]
  | .typeLiteral loc members => f (.typeLiteral loc members) (foldAll f members)
  | .functionType loc params result =>
    f (.functionType loc params result) (foldAll f params ++ [fold f result])
  | .identifier loc wrapped name typing =>
    f (.identifier loc wrapped name typing) [fold f typing]
  | .array loc wrapped elements => f (.array loc wrapped elements) (foldAll f elements)
  | .property loc key value shorthand =>
    f (.property loc key value shorthand) [fold f key, fold f value]
  | .object loc wrapped properties => f (.object loc wrapped properties) (foldAll f properties)
  | .defaultParam loc target value =>
    f (.defaultParam loc target value) [fold f target, fold f value]
  | .functionExpression loc wrapped name params body result =>
    f (.functionExpression loc wrapped name params body result)
      (fold f name :: foldAll f params ++ [fold f body, fold f result])
  | .arrowFunction loc wrapped params body =>
    f (.arrowFunction loc wrapped params body) (foldAll f params ++ [fold f body])
  | .unary loc wrapped operator argument =>
    f (.unary loc wrapped operator argument) [fold f argument]
  | .update loc wrapped operator leading argument =>
    f (.update loc wrapped operator leading argument) [fold f argument]
  | .binary loc wrapped operator left right =>
    f (.binary loc wrapped operator left right) [fold f left, fold f right]
  | .logical loc wrapped operator left right =>
    f (.logical loc wrapped operator left right) [fold f left, fold f right]
  | .assignment loc wrapped operator left right =>
    f (.assignment loc wrapped operator left right) [fold f left, fold f right]
  | .conditional loc wrapped test consequent alternate =>
    f (.conditional loc wrapped test consequent alternate)
      [fold f test, fold f consequent, fold f alternate]
  | .call loc wrapped callee arguments =>
    f (.call loc wrapped callee arguments) (fold f callee :: foldAll f arguments)
  | .construction loc wrapped callee arguments =>
    f (.construction loc wrapped callee arguments) (fold f callee :: foldAll f arguments)
  | .member loc wrapped value selector computed =>
    f (.member loc wrapped value selector computed) [fold f value, fold f selector]
  | .sequence loc wrapped expressions =>
    f (.sequence loc wrapped expressions) (foldAll f expressions)
  | .declarator loc name initializer =>
    f (.declarator loc name initializer) [fold f name, fold f initializer]
  | .variableDeclaration loc keyword declarators =>
    f (.variableDeclaration loc keyword declarators) (foldAll f declarators)
  | .block loc body => f (.block loc body) (foldAll f body)
  | .functionDeclaration loc name params body result =>
    f (.functionDeclaration loc name params body result)
      (fold f name :: foldAll f params ++ [fold f body, fold f result])
  | .interfaceDeclaration loc name members =>
    f (.interfaceDeclaration loc name members) (fold f name :: foldAll f members)
  | .returnStatement loc argument => f (.returnStatement loc argument) [fold f argument]
  | .throwStatement loc argument => f (.throwStatement loc argument) [fold f argument]
  | .expressionStatement loc expression =>
    f (.expressionStatement loc expression) [fold f expression]
  | .ifStatement loc test consequent alternate =>
    f (.ifStatement loc test consequent alternate)
      [fold f test, fold f consequent, fold f alternate]
  | .whileStatement loc test body => f (.whileStatement loc test body) [fold f test, fold f body]
  | .forStatement loc initializer test step body =>
    f (.forStatement loc initializer test step body)
      [fold f initializer, fold f test, fold f step, fold f body]
  | .exportNamed loc declaration => f (.exportNamed loc declaration) [fold f declaration]
  | .exportDefault loc declaration => f (.exportDefault loc declaration) [fold f declaration]
  | .program loc body => f (.program loc body) (foldAll f body)
  | .absent => f .absent []
  | .keywordType loc keyword => f (.keywordType loc keyword) []
  | .number loc wrapped raw => f (.number loc wrapped raw) []
  | .string loc wrapped raw => f (.string loc wrapped raw) []
  | .boolean loc wrapped value => f (.boolean loc wrapped value) []
  | .null loc wrapped => f (.null loc wrapped) []
  | .template loc wrapped raw => f (.template loc wrapped raw) []
  | .this loc wrapped => f (.this loc wrapped) []
  | .breakStatement loc => f (.breakStatement loc) []
  | .continueStatement loc => f (.continueStatement loc) []
  | .emptyStatement loc => f (.emptyStatement loc) []

/-- The values of a list of trees. -/
def foldAll (f : Node → List α → α) : List Node → List α
  | [] => []
  | node :: rest => fold f node :: foldAll f rest

end

/-- The values of a list of trees are the values of its members. -/
@[simp] theorem foldAll_eq_map (f : Node → List α → α) (nodes : List Node) :
    foldAll f nodes = nodes.map (fold f) := by
  induction nodes with
  | nil => rfl
  | cons node rest ih => rw [foldAll, ih, List.map_cons]

/-- The value of a tree is determined by the values of its slots. -/
theorem fold_eq (f : Node → List α → α) (node : Node) :
    fold f node = f node (node.slots.map (fold f)) := by
  cases node <;> simp [fold, slots]

end Node

end TypeGloss
