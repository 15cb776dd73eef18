import TypeGloss.Print.Node
import TypeGloss.Proofs.Syntax

/-!
# Chains of operators

A chain is printed from its leftmost operand on, and the links passed on the way down to it are
attached one after the other. `Print.Plain` is the printer without this: it prints the operands of
every operator by recursion and puts the operator between their texts. Whether a blank is needed
before an operator depends on the text that is there so far, but the two printers have the same text
there, however long the chain is and wherever its operands stand in parentheses.
-/

namespace TypeGloss

namespace Node

/-- Whether the text of a node can be prolonged by links: whether it is an expression. -/
def carriesLinks : Node → Bool
  | .identifier .. | .number .. | .string .. | .boolean .. | .null .. | .template .. | .this ..
  | .array .. | .object .. | .functionExpression .. | .arrowFunction .. | .unary .. | .update ..
  | .binary .. | .logical .. | .assignment .. | .conditional .. | .call .. | .construction ..
  | .member .. | .sequence .. => true
  | _ => false

/-- Whether the chain of a binary operator starts with an expression. -/
def leadsChain : Node → Bool
  | .binary _ _ _ left _ | .logical _ _ _ left _ => left.carriesLinks
  | _ => true

end Node

namespace Print

namespace Plain

mutual

/-- The text of a node inside `depth` blocks. -/
def node (layout : Layout) (depth : Nat) : Node → Text
  | .absent => ""
  | .keywordType _ keyword => keyword
  | .typeReference _ name arguments =>
    if arguments.isEmpty then name
    else name ++ "<" ++ layout.commas (nodes layout depth arguments) ++ ">"
  | .unionType _ members =>
    Text.join (layout.space ++ "|" ++ layout.space)
      (members.zipWith unionMember (nodes layout depth members))
  | .arrayType _ element => arrayElement element (node layout depth element) ++ "[]"
  | .propertySignature _ key type optional =>
    memberHead key optional ++ ":" ++ layout.space ++ node layout depth type
  | .typeLiteral _ members => typeLiteral layout (nodes layout depth members)
  | .functionType _ params result =>
    Layout.parens (layout.commas (bindings layout depth params)) ++ layout.space ++ "=>" ++
      layout.space ++ node layout depth result
  | .identifier _ isWrapped name _ => Layout.wrapped isWrapped name
  | .number _ isWrapped raw => Layout.wrapped isWrapped raw
  | .string _ isWrapped raw => Layout.wrapped isWrapped raw
  | .boolean _ isWrapped value =>
    Layout.wrapped isWrapped (if value then "true" else "false")
  | .null _ isWrapped => Layout.wrapped isWrapped "null"
  | .template _ isWrapped raw => Layout.wrapped isWrapped raw
  | .this _ isWrapped => Layout.wrapped isWrapped "this"
  | .array _ isWrapped elements =>
    Layout.wrapped isWrapped
      ("[" ++ layout.commas (arrayItems elements (nodes layout depth elements)) ++ "]")
  | .property _ key value shorthand =>
    let text := node layout depth value
    if shorthand then text else keyText key ++ ":" ++ layout.space ++ text
  | .object _ isWrapped properties =>
    Layout.wrapped isWrapped <|
      if properties.isEmpty then "\x7b\x7d"
      else "\x7b" ++ layout.space ++ layout.commas (nodes layout depth properties) ++
        layout.space ++ "\x7d"
  | .defaultParam _ target value =>
    binding layout depth target ++ valuePart layout value (node layout depth value)
  | .functionExpression _ isWrapped name params body result =>
    Layout.wrapped isWrapped <|
      functionText layout name (bindings layout depth params)
        (ascription layout result (node layout depth result)) (blockOf layout depth body)
  | .arrowFunction _ isWrapped params body =>
    Layout.wrapped isWrapped <|
      Layout.parens (layout.commas (bindings layout depth params)) ++ layout.space ++ "=>" ++
        layout.space ++ Layout.wrapped (isBareObject body) (node layout depth body)
  | .unary _ isWrapped operator argument =>
    Layout.wrapped isWrapped (Layout.before operator (node layout depth argument))
  | .update _ isWrapped operator leading argument =>
    let text := node layout depth argument
    Layout.wrapped isWrapped (if leading then operator ++ text else text ++ operator)
  | .binary _ isWrapped operator left right =>
    Layout.wrapped isWrapped
      (layout.between (node layout depth left) operator (node layout depth right))
  | .logical _ isWrapped operator left right =>
    Layout.wrapped isWrapped
      (layout.between (node layout depth left) operator (node layout depth right))
  | .assignment _ isWrapped operator left right =>
    Layout.wrapped isWrapped
      (layout.between (node layout depth left) operator (node layout depth right))
  | .conditional _ isWrapped test consequent alternate =>
    Layout.wrapped isWrapped <|
      node layout depth test ++ layout.space ++ "?" ++ layout.space ++
        node layout depth consequent ++ layout.space ++ ":" ++ layout.space ++
        node layout depth alternate
  | .call _ isWrapped callee arguments =>
    Layout.wrapped isWrapped <|
      node layout depth callee ++ Layout.parens (layout.commas (nodes layout depth arguments))
  | .construction _ isWrapped callee arguments =>
    Layout.wrapped isWrapped <|
      "new " ++ node layout depth callee ++
        Layout.parens (layout.commas (nodes layout depth arguments))
  | .member _ isWrapped value selector computed =>
    let selected := node layout depth selector
    Layout.wrapped isWrapped <|
      node layout depth value ++ (if computed then "[" ++ selected ++ "]" else "." ++ selected)
  | .sequence _ isWrapped expressions =>
    Layout.wrapped isWrapped (layout.commas (nodes layout depth expressions))
  | .declarator _ name initializer =>
    binding layout depth name ++ valuePart layout initializer (node layout depth initializer)
  | .variableDeclaration _ keyword declarators =>
    keyword ++ " " ++ layout.commas (nodes layout depth declarators)
  | .block _ statements => block layout depth statements (nodes layout (depth + 1) statements)
  | .functionDeclaration _ name params body result =>
    functionText layout name (bindings layout depth params)
      (ascription layout result (node layout depth result)) (blockOf layout depth body)
  | .interfaceDeclaration _ name members =>
    "interface " ++ nameOf name ++ layout.space ++
      layout.braced depth ((nodes layout (depth + 1) members).map terminated)
  | .returnStatement _ argument =>
    if argument.isAbsent then "return;" else "return " ++ node layout depth argument ++ ";"
  | .throwStatement _ argument => "throw " ++ node layout depth argument ++ ";"
  | .breakStatement _ => "break;"
  | .continueStatement _ => "continue;"
  | .emptyStatement _ => ";"
  | .expressionStatement _ expression =>
    Layout.wrapped (startsAmbiguously expression) (node layout depth expression) ++ ";"
  | .ifStatement _ test consequent alternate =>
    "if" ++ layout.space ++ Layout.parens (node layout depth test) ++
      body layout false consequent (node layout depth consequent) ++
      elsePart layout depth consequent alternate (node layout depth alternate)
  | .whileStatement _ test statement =>
    "while" ++ layout.space ++ Layout.parens (node layout depth test) ++
      body layout false statement (node layout depth statement)
  | .forStatement _ initializer test step statement =>
    "for" ++ layout.space ++
      Layout.parens (loopHeader (node layout depth initializer)
        (headerPart layout test (node layout depth test))
        (headerPart layout step (node layout depth step))) ++
      body layout false statement (node layout depth statement)
  | .exportNamed _ declaration =>
    "export " ++ sealed declaration (node layout depth declaration)
  | .exportDefault _ declaration =>
    "export default " ++ sealed declaration (node layout depth declaration)
  | .program _ statements =>
    let lines := statements.zipWith sealed (nodes layout depth statements)
    match layout with
    | .compact => lines.flatten
    | .pretty => lines.flatMap (· ++ "\n")

/-- The text of a name with its type, of a parameter, or of a declarator. -/
def binding (layout : Layout) (depth : Nat) : Node → Text
  | .identifier _ _ name type => name ++ ascription layout type (node layout depth type)
  | .defaultParam _ target value =>
    binding layout depth target ++ valuePart layout value (node layout depth value)
  | _ => ""

/-- The statements of any node as a block. A node without statements gives an empty block. -/
def blockOf (layout : Layout) (depth : Nat) : Node → Text
  | .block _ statements | .interfaceDeclaration _ _ statements | .program _ statements =>
    block layout depth statements (nodes layout (depth + 1) statements)
  | _ => "\x7b\x7d"

/-- The texts of nodes. -/
def nodes (layout : Layout) (depth : Nat) : List Node → List Text
  | [] => []
  | first :: rest => node layout depth first :: nodes layout depth rest

/-- The texts of parameters. -/
def bindings (layout : Layout) (depth : Nat) : List Node → List Text
  | [] => []
  | first :: rest => binding layout depth first :: bindings layout depth rest

end

end Plain

@[simp] theorem attach_nil (layout : Layout) (t : Text) : attach layout [] t = t := rfl

/-- What the two printers say of a node: an expression has the links behind its plain text, and any
other node leaves them out. -/
structure Unchained (n : Node) : Prop where
  node : ∀ layout depth links, Print.node layout depth links n =
    attach layout (if n.carriesLinks then links else []) (Plain.node layout depth n)
  binding : ∀ layout depth, Print.binding layout depth n = Plain.binding layout depth n
  blockOf : ∀ layout depth, Print.blockOf layout depth n = Plain.blockOf layout depth n

theorem Unchained.text {n : Node} (unchained : Unchained n) (layout : Layout) (depth : Nat) :
    Print.node layout depth [] n = Plain.node layout depth n := by
  rw [unchained.node]
  split <;> rfl

section Parts

theorem nodes_eq_plain {ns : List Node} (each : ∀ n ∈ ns, Unchained n) (layout : Layout)
    (depth : Nat) : nodes layout depth ns = Plain.nodes layout depth ns := by
  induction ns with
  | nil => rfl
  | cons n ns ih =>
    obtain ⟨here, others⟩ := List.forall_mem_cons.mp each
    rw [nodes, Plain.nodes, here.text, ih others]

theorem bindings_eq_plain {ns : List Node} (each : ∀ n ∈ ns, Unchained n) (layout : Layout)
    (depth : Nat) : bindings layout depth ns = Plain.bindings layout depth ns := by
  induction ns with
  | nil => rfl
  | cons n ns ih =>
    obtain ⟨here, others⟩ := List.forall_mem_cons.mp each
    rw [bindings, Plain.bindings, here.binding, ih others]

variable {root : Node} (each : ∀ slot ∈ root.slots, Unchained slot) (layout : Layout) (depth : Nat)

include each

theorem binding_eq_plain : binding layout depth root = Plain.binding layout depth root := by
  cases root with
  | identifier loc isWrapped t typing =>
    rw [binding, Plain.binding, (each typing (by simp [Node.slots])).text]
  | defaultParam loc target value =>
    rw [binding, Plain.binding, (each target (by simp [Node.slots])).binding,
      (each value (by simp [Node.slots])).text]
  | _ => rfl

theorem blockOf_eq_plain : blockOf layout depth root = Plain.blockOf layout depth root := by
  cases root with
  | block loc statements | interfaceDeclaration loc name statements | program loc statements =>
    rw [blockOf, Plain.blockOf, nodes_eq_plain fun n mem => each n (by simp [Node.slots, mem])]
  | _ => rfl

theorem node_eq_attach (starts : root.leadsChain = true) (links : List Link) :
    node layout depth links root =
      attach layout (if root.carriesLinks then links else []) (Plain.node layout depth root) := by
  cases root with
  | binary loc isWrapped operator left right | logical loc isWrapped operator left right =>
    have first := (each left (by simp [Node.slots])).node
    have second := (each right (by simp [Node.slots])).text
    have carries : left.carriesLinks = true := starts
    rw [node, first, first, second, if_pos carries, if_pos carries]
    cases isWrapped <;> rfl
  | program loc statements =>
    have given := nodes_eq_plain fun n (mem : n ∈ statements) => each n mem
    cases layout <;> simp [node, Plain.node, Node.carriesLinks, given]
  | _ =>
    -- Any other node is printed from the texts of its slots by both printers alike.
    clear starts
    simp_all [node, Plain.node, Node.slots, operand, Node.carriesLinks, nodes_eq_plain,
      bindings_eq_plain, Unchained.text, Unchained.binding, Unchained.blockOf]

end Parts

theorem unchained (root : Node) (chained : root.Every (·.leadsChain = true)) :
    Unchained root := by
  induction root using Node.slots_induction with
  | node root ih =>
    obtain ⟨starts, inside⟩ := chained
    have each : ∀ slot ∈ root.slots, Unchained slot := fun slot mem => ih slot mem (inside slot mem)
    exact ⟨(node_eq_attach each · · starts), binding_eq_plain each, blockOf_eq_plain each⟩

/-- Printing chains link by link gives the text of plain recursion, in every layout and at every
depth, for all trees in which only expressions stand to the left of an operator. An expression that
is reached with links still to attach has its own plain text in front of them. -/
theorem node_eq_plain (layout : Layout) (depth : Nat) {expression : Node}
    (chained : expression.Every (·.leadsChain = true)) :
    node layout depth [] expression = Plain.node layout depth expression ∧
      ∀ links, expression.carriesLinks = true →
        node layout depth links expression =
          attach layout links (Plain.node layout depth expression) := by
  have plain := unchained expression chained
  refine ⟨plain.text layout depth, fun links carries => ?_⟩
  rw [plain.node, if_pos carries]

/-- The expression `(a - -b) + +c && d`: a link stands in parentheses, there are signs that would
run together, and a logical operator continues the chain. -/
def signs : Node :=
  .logical .synthetic false "&&"
    (.binary .synthetic false "+"
      (.binary .synthetic true "-" (.identifier .synthetic false "a" .absent)
        (.unary .synthetic false "-" (.identifier .synthetic false "b" .absent)))
      (.unary .synthetic false "+" (.identifier .synthetic false "c" .absent)))
    (.identifier .synthetic false "d" .absent)

theorem node_eq_plain_signs :
    signs.Every (·.leadsChain = true) ∧ node .compact 0 [] signs = "(a- -b)+ +c&&d" ∧
      Plain.node .compact 0 signs = "(a- -b)+ +c&&d" := by
  have chained : signs.Every (·.leadsChain = true) :=
    Node.every_of_walk (p := (·.leadsChain = true)) rfl signs (by decide)
  have text : node .compact 0 [] signs = "(a- -b)+ +c&&d" := by decide +kernel
  exact ⟨chained, text, (node_eq_plain .compact 0 chained).1.symm.trans text⟩

end Print

end TypeGloss
