import TypeGloss.Proofs.Chains
import TypeGloss.Proofs.Pieces

/-!
# The text of the pieces

The pieces of a tree make up the text that plain recursion prints, and so the text of the tree.
-/

namespace TypeGloss

namespace Pieces

@[simp] theorem text_space (layout : Layout) : text (space layout) = layout.space := by
  cases layout <;> rfl

@[simp] theorem text_indent (depth : Nat) : text (indent depth) = Layout.indent depth := by
  induction depth with
  | zero => rfl
  | succ depth ih =>
    have next : indent (depth + 1) = .blank :: .blank :: indent depth := rfl
    rw [next, text_cons, text_cons, ih]
    rfl

@[simp] theorem text_parens (ps : List Piece) : text (parens ps) = Layout.parens (text ps) := by
  simp [parens, Layout.parens, leftParen, rightParen]

@[simp] theorem text_wrapped (isWrapped : Bool) (ps : List Piece) :
    text (wrapped isWrapped ps) = Layout.wrapped isWrapped (text ps) := by
  cases isWrapped <;> simp [wrapped, Layout.wrapped]

@[simp] theorem text_join (separator : List Piece) (items : List (List Piece)) :
    text (join separator items) = Text.join (text separator) (items.map text) := by
  induction items with
  | nil => rfl
  | cons first rest ih =>
    cases rest with
    | nil => rfl
    | cons second rest =>
      simp only [join, text_append, ih, List.map_cons, Text.join]

@[simp] theorem text_commas (layout : Layout) (items : List (List Piece)) :
    text (commas layout items) = layout.commas (items.map text) := by
  simp [commas, Layout.commas, comma]

@[simp] theorem text_flatten (items : List (List Piece)) :
    text items.flatten = (items.map text).flatten := by
  induction items with
  | nil => rfl
  | cons first rest ih => simp [ih]

@[simp] theorem text_braced (layout : Layout) (depth : Nat) (lines : List (List Piece)) :
    text (braced layout depth lines) = layout.braced depth (lines.map text) := by
  cases lines with
  | nil => rfl
  | cons first rest =>
    cases layout with
    | compact => simp [braced, Layout.braced, leftBrace, rightBrace]
    | pretty =>
      simp [braced, Layout.braced, leftBrace, rightBrace, newline, Function.comp_def,
        Text.ofString]

@[simp] theorem text_operator (sign : Text) : text (operator sign) = sign := by
  unfold operator
  split
  · rename_i same; subst same; rfl
  split
  · rename_i same; subst same; rfl
  · simp

@[simp] theorem text_blankIf (needed : Bool) :
    text (blankIf needed) = if needed then " " else "" := by
  cases needed <;> rfl

@[simp] theorem text_between (layout : Layout) (left : List Piece) (sign : Text)
    (right : List Piece) :
    text (between layout left sign right) = layout.between (text left) sign (text right) := by
  unfold between Layout.between
  split <;> simp

@[simp] theorem text_before (sign : Text) (argument : List Piece) :
    text (before sign argument) = Layout.before sign (text argument) := by
  unfold before Layout.before
  split <;> simp_all [Text.ofString]

@[simp] theorem text_sealed (statement : Node) (ps : List Piece) :
    text (sealed statement ps) = Print.sealed statement (text ps) := by
  cases statement <;> simp [sealed, Print.sealed, semicolon]

@[simp] theorem map_text_sealed (statements : List Node) (lines : List (List Piece)) :
    (statements.zipWith sealed lines).map text =
      statements.zipWith Print.sealed (lines.map text) := by
  rw [List.map_zipWith, List.zipWith_map_right]
  simp

@[simp] theorem text_block (layout : Layout) (depth : Nat) (statements : List Node)
    (lines : List (List Piece)) :
    text (block layout depth statements lines) =
      Print.block layout depth statements (lines.map text) := by
  rw [block, Print.block, text_braced, map_text_sealed]

@[simp] theorem text_body (layout : Layout) (afterWord : Bool) (statement : Node)
    (ps : List Piece) :
    text (body layout afterWord statement ps) =
      Print.body layout afterWord statement (text ps) := by
  unfold body Print.body
  split
  · simp
  · split <;> simp_all [Text.ofString]

@[simp] theorem text_elsePart (layout : Layout) (depth : Nat) (consequent alternate : Node)
    (ps : List Piece) :
    text (elsePart layout depth consequent alternate ps) =
      Print.elsePart layout depth consequent alternate (text ps) := by
  unfold elsePart Print.elsePart
  split
  · rfl
  · cases layout with
    | compact =>
      simp [beforeElse, Print.beforeElse, keyword, Keyword.spelling, Text.ofString]
    | pretty =>
      simp only [beforeElse, Print.beforeElse]
      split <;> simp [keyword, Keyword.spelling, newline]

@[simp] theorem text_ascription (layout : Layout) (type : Node) (ps : List Piece) :
    text (ascription layout type ps) = Print.ascription layout type (text ps) := by
  unfold ascription Print.ascription
  split <;> simp [colon, Text.ofString]

@[simp] theorem text_valuePart (layout : Layout) (value : Node) (ps : List Piece) :
    text (valuePart layout value ps) = Print.valuePart layout value (text ps) := by
  unfold valuePart Print.valuePart
  split <;> simp [assign, Text.ofString]

@[simp] theorem text_nameOf (node : Node) : text (nameOf node) = Print.nameOf node := by
  cases node <;> simp [nameOf, Print.nameOf, name, Text.ofString]

@[simp] theorem text_key (node : Node) : text (key node) = Print.keyText node := by
  cases node <;> simp [key, Print.keyText, name, Text.ofString]

@[simp] theorem text_function (layout : Layout) (node : Node) (params : List (List Piece))
    (result block : List Piece) :
    text (function layout node params result block) =
      Print.functionText layout node (params.map text) (text result) (text block) := by
  unfold function Print.functionText functionName Print.functionName
  split <;> simp [keyword, Keyword.spelling]

@[simp] theorem map_text_arrayItems (elements : List Node) (items : List (List Piece)) :
    (arrayItems elements items).map text = Print.arrayItems elements (items.map text) := by
  unfold arrayItems Print.arrayItems
  split <;> simp_all

@[simp] theorem text_memberHead (key : MemberKey) (optional : Bool) :
    text (memberHead key optional) = Print.memberHead key optional := by
  have keyed : text (memberKey key.text) = Key.render key.text := by
    unfold memberKey Key.render
    split
    · split
      · rename_i ends
        have last := List.dropLast_append_getLast? _ (Option.mem_def.mpr ends)
        simp [name, newline]
        exact last
      · simp [name]
    · simp
  unfold memberHead Print.memberHead
  rw [text_append, keyed]
  split <;> simp [question, Text.ofString]

@[simp] theorem text_typeLiteral (layout : Layout) (members : List (List Piece)) :
    text (typeLiteral layout members) = Print.typeLiteral layout (members.map text) := by
  cases members with
  | nil => rfl
  | cons first rest =>
    cases layout with
    | compact =>
      simp [typeLiteral, Print.typeLiteral, leftBrace, rightBrace, terminated, Print.terminated,
        semicolon, Function.comp_def]
    | pretty =>
      simp [typeLiteral, Print.typeLiteral, leftBrace, rightBrace, semicolon, Text.ofString]

@[simp] theorem map_text_terminated (items : List (List Piece)) :
    (items.map terminated).map text = (items.map text).map Print.terminated := by
  simp [terminated, Print.terminated, semicolon, Function.comp_def]

@[simp] theorem text_unionMember (type : Node) (ps : List Piece) :
    text (unionMember type ps) = Print.unionMember type (text ps) := by
  cases type <;> simp [unionMember, Print.unionMember]

@[simp] theorem text_arrayElement (type : Node) (ps : List Piece) :
    text (arrayElement type ps) = Print.arrayElement type (text ps) := by
  cases type <;> simp [arrayElement, Print.arrayElement]

@[simp] theorem text_headerPart (layout : Layout) (part : Node) (ps : List Piece) :
    text (headerPart layout part ps) = Print.headerPart layout part (text ps) := by
  unfold headerPart Print.headerPart
  split <;> simp_all

@[simp] theorem text_loopHeader (initializer test step : List Piece) :
    text (loopHeader initializer test step) =
      Print.loopHeader (text initializer) (text test) (text step) := by
  simp [loopHeader, Print.loopHeader, semicolon]

open Print (Plain.node Plain.binding Plain.blockOf Plain.nodes Plain.bindings)

mutual

/-- The pieces of a node make up its text. -/
theorem text_node (layout : Layout) (depth : Nat) (n : Node) :
    text (node layout depth n) = Plain.node layout depth n := by
  cases n with
  | absent | breakStatement | continueStatement | emptyStatement => rfl
  | keywordType loc word => simp [node, Plain.node, name]
  | typeReference loc t arguments =>
    rw [node, Plain.node, ← text_nodes layout depth arguments]
    split <;> simp [name]
  | unionType loc members =>
    simp [node, Plain.node, ← text_nodes layout depth members, List.zipWith_map_right,
      Function.comp_def]
  | arrayType loc element =>
    simp [node, Plain.node, text_node layout depth element, leftBracket, rightBracket,
      Text.ofString]
  | propertySignature loc key type optional =>
    simp [node, Plain.node, text_node layout depth type, colon]
  | typeLiteral loc members => simp [node, Plain.node, ← text_nodes layout depth members]
  | functionType loc params result =>
    simp [node, Plain.node, ← text_bindings layout depth params, text_node layout depth result,
      arrow]
  | identifier loc isWrapped t typing => simp [node, Plain.node, name]
  | number loc isWrapped raw | string loc isWrapped raw | template loc isWrapped raw =>
    simp [node, Plain.node]
  | boolean loc isWrapped value =>
    cases value <;> simp [node, Plain.node, keyword, Keyword.spelling]
  | null loc isWrapped | this loc isWrapped => simp [node, Plain.node, keyword, Keyword.spelling]
  | array loc isWrapped elements =>
    simp [node, Plain.node, ← text_nodes layout depth elements, leftBracket, rightBracket]
  | property loc propertyKey value shorthand =>
    cases shorthand <;> simp [node, Plain.node, text_node layout depth value, colon]
  | object loc isWrapped properties =>
    rw [node, Plain.node, ← text_nodes layout depth properties, text_wrapped]
    split <;> simp [leftBrace, rightBrace, Text.ofString]
  | defaultParam loc target value | declarator loc target value =>
    simp [node, Plain.node, text_binding layout depth target, text_node layout depth value]
  | functionExpression loc isWrapped name params body result =>
    simp [node, Plain.node, ← text_bindings layout depth params, text_node layout depth result,
      text_blockOf layout depth body]
  | functionDeclaration loc name params body result =>
    simp [node, Plain.node, ← text_bindings layout depth params, text_node layout depth result,
      text_blockOf layout depth body]
  | arrowFunction loc isWrapped params body =>
    simp [node, Plain.node, ← text_bindings layout depth params, text_node layout depth body,
      arrow]
  | unary loc isWrapped sign argument =>
    simp [node, Plain.node, text_node layout depth argument]
  | update loc isWrapped sign leading argument =>
    cases leading <;> simp [node, Plain.node, text_node layout depth argument]
  | binary loc isWrapped sign left right | logical loc isWrapped sign left right
  | assignment loc isWrapped sign left right =>
    simp [node, Plain.node, text_node layout depth left, text_node layout depth right]
  | conditional loc isWrapped test consequent alternate =>
    simp [node, Plain.node, text_node layout depth test, text_node layout depth consequent,
      text_node layout depth alternate, question, colon]
  | call loc isWrapped callee arguments | construction loc isWrapped callee arguments =>
    simp [node, Plain.node, text_node layout depth callee, ← text_nodes layout depth arguments,
      keyword, Keyword.spelling, Text.ofString]
  | member loc isWrapped value selector computed =>
    cases computed <;>
      simp [node, Plain.node, text_node layout depth value, text_node layout depth selector,
        leftBracket, rightBracket, dot]
  | sequence loc isWrapped expressions =>
    simp [node, Plain.node, ← text_nodes layout depth expressions]
  | variableDeclaration loc word declarators =>
    simp [node, Plain.node, ← text_nodes layout depth declarators, name]
  | block loc statements => simp [node, Plain.node, ← text_nodes layout (depth + 1) statements]
  | interfaceDeclaration loc name members =>
    rw [node, Plain.node, ← text_nodes layout (depth + 1) members, ← map_text_terminated]
    simp [keyword, Keyword.spelling, Text.ofString]
  | returnStatement loc argument =>
    rw [node, Plain.node, ← text_node layout depth argument]
    split <;> simp [keyword, Keyword.spelling, semicolon, Text.ofString]
  | throwStatement loc argument =>
    simp [node, Plain.node, text_node layout depth argument, keyword, Keyword.spelling, semicolon,
      Text.ofString]
  | expressionStatement loc expression =>
    simp [node, Plain.node, text_node layout depth expression, semicolon]
  | ifStatement loc test consequent alternate =>
    simp [node, Plain.node, text_node layout depth test, text_node layout depth consequent,
      text_node layout depth alternate, keyword, Keyword.spelling]
  | whileStatement loc test body =>
    simp [node, Plain.node, text_node layout depth test, text_node layout depth body, keyword,
      Keyword.spelling]
  | forStatement loc initializer test step body =>
    simp [node, Plain.node, text_node layout depth initializer, text_node layout depth test,
      text_node layout depth step, text_node layout depth body, keyword, Keyword.spelling]
  | exportNamed loc declaration | exportDefault loc declaration =>
    simp [node, Plain.node, text_node layout depth declaration, keyword, Keyword.spelling,
      Text.ofString]
  | program loc statements =>
    simp only [node, Plain.node, ← text_nodes layout depth statements, ← map_text_sealed]
    cases layout
    · exact text_flatten _
    · simp [List.flatMap, newline]

theorem text_binding (layout : Layout) (depth : Nat) (n : Node) :
    text (binding layout depth n) = Plain.binding layout depth n := by
  cases n with
  | identifier loc isWrapped t typing =>
    simp [binding, Plain.binding, text_node layout depth typing, name]
  | defaultParam loc target value =>
    simp [binding, Plain.binding, text_binding layout depth target, text_node layout depth value]
  | _ => rfl

theorem text_blockOf (layout : Layout) (depth : Nat) (n : Node) :
    text (blockOf layout depth n) = Plain.blockOf layout depth n := by
  cases n with
  | block loc statements | interfaceDeclaration loc name statements | program loc statements =>
    simp [blockOf, Plain.blockOf, ← text_nodes layout (depth + 1) statements]
  | _ => rfl

theorem text_nodes (layout : Layout) (depth : Nat) (ns : List Node) :
    (nodes layout depth ns).map text = Plain.nodes layout depth ns := by
  cases ns with
  | nil => rfl
  | cons n ns =>
    rw [nodes, List.map_cons, text_node layout depth n, text_nodes layout depth ns]
    rfl

theorem text_bindings (layout : Layout) (depth : Nat) (ns : List Node) :
    (bindings layout depth ns).map text = Plain.bindings layout depth ns := by
  cases ns with
  | nil => rfl
  | cons n ns =>
    rw [bindings, List.map_cons, text_binding layout depth n, text_bindings layout depth ns]
    rfl

end

end Pieces

namespace Print

/-- A node whose pieces make up its text in every layout. -/
structure Pieced (n : Node) : Prop where
  text : ∀ layout depth, Print.node layout depth [] n = Pieces.text (Pieces.node layout depth n)

/-- The pieces of a tree make up its text. -/
theorem pieced (root : Node) (chained : root.Every (·.leadsChain = true)) : Pieced root :=
  ⟨fun layout depth => by rw [(unchained root chained).text, Pieces.text_node]⟩

end Print

end TypeGloss
