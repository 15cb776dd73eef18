import TypeGloss.Syntax.Fold

/-!
# Rebuilding a node

A node can be given other slots. With its own slots it stays as it is.
-/

namespace TypeGloss

namespace Node

/-- The node with other slots, which are as many as it has and in the same order. -/
def withSlots : Node → List Node → Node
  | .typeReference loc name _, arguments => .typeReference loc name arguments
  | .unionType loc _, members => .unionType loc members
  | .arrayType loc _, [element] => .arrayType loc element
  | .propertySignature loc key _ optional, [type] => .propertySignature loc key type optional
  | .typeLiteral loc _, members => .typeLiteral loc members
  | .functionType loc params result, slots =>
    match slots.drop params.length with
    | [newResult] => .functionType loc (slots.take params.length) newResult
    | _ => .functionType loc params result
  | .identifier loc wrapped name _, [typing] => .identifier loc wrapped name typing
  | .array loc wrapped _, elements => .array loc wrapped elements
  | .property loc _ _ shorthand, [key, value] => .property loc key value shorthand
  | .object loc wrapped _, properties => .object loc wrapped properties
  | .defaultParam loc _ _, [target, value] => .defaultParam loc target value
  | .functionExpression loc wrapped name params body result, slots =>
    match slots.take 1, slots.drop 1 with
    | [newName], rest =>
      match rest.drop params.length with
      | [newBody, newResult] =>
        .functionExpression loc wrapped newName (rest.take params.length) newBody newResult
      | _ => .functionExpression loc wrapped name params body result
    | _, _ => .functionExpression loc wrapped name params body result
  | .arrowFunction loc wrapped params body, slots =>
    match slots.drop params.length with
    | [newBody] => .arrowFunction loc wrapped (slots.take params.length) newBody
    | _ => .arrowFunction loc wrapped params body
  | .unary loc wrapped operator _, [argument] => .unary loc wrapped operator argument
  | .update loc wrapped operator leading _, [argument] =>
    .update loc wrapped operator leading argument
  | .binary loc wrapped operator _ _, [left, right] => .binary loc wrapped operator left right
  | .logical loc wrapped operator _ _, [left, right] => .logical loc wrapped operator left right
  | .assignment loc wrapped operator _ _, [left, right] =>
    .assignment loc wrapped operator left right
  | .conditional loc wrapped _ _ _, [test, consequent, alternate] =>
    .conditional loc wrapped test consequent alternate
  | .call loc wrapped _ _, callee :: arguments => .call loc wrapped callee arguments
  | .construction loc wrapped _ _, callee :: arguments =>
    .construction loc wrapped callee arguments
  | .member loc wrapped _ _ computed, [value, selector] =>
    .member loc wrapped value selector computed
  | .sequence loc wrapped _, expressions => .sequence loc wrapped expressions
  | .declarator loc _ _, [name, initializer] => .declarator loc name initializer
  | .variableDeclaration loc keyword _, declarators =>
    .variableDeclaration loc keyword declarators
  | .block loc _, body => .block loc body
  | .functionDeclaration loc name params body result, slots =>
    match slots.take 1, slots.drop 1 with
    | [newName], rest =>
      match rest.drop params.length with
      | [newBody, newResult] =>
        .functionDeclaration loc newName (rest.take params.length) newBody newResult
      | _ => .functionDeclaration loc name params body result
    | _, _ => .functionDeclaration loc name params body result
  | .interfaceDeclaration loc _ _, name :: members => .interfaceDeclaration loc name members
  | .returnStatement loc _, [argument] => .returnStatement loc argument
  | .throwStatement loc _, [argument] => .throwStatement loc argument
  | .expressionStatement loc _, [expression] => .expressionStatement loc expression
  | .ifStatement loc _ _ _, [test, consequent, alternate] =>
    .ifStatement loc test consequent alternate
  | .whileStatement loc _ _, [test, body] => .whileStatement loc test body
  | .forStatement loc _ _ _ _, [initializer, test, step, body] =>
    .forStatement loc initializer test step body
  | .exportNamed loc _, [declaration] => .exportNamed loc declaration
  | .exportDefault loc _, [declaration] => .exportDefault loc declaration
  | .program loc _, body => .program loc body
  | node, _ => node

/-- A node with its own slots is the node. -/
@[simp] theorem withSlots_slots (node : Node) : node.withSlots node.slots = node := by
  cases node <;> simp [withSlots, slots]

end Node

end TypeGloss
