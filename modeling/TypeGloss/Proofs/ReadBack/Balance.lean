import TypeGloss.Proofs.Pieces
import TypeGloss.Proofs.Marks

/-!
# Balanced parentheses

In the pieces of a tree every parenthesis that opens is closed. So a look ahead for the parenthesis
that closes an earlier one passes over them.
-/

namespace TypeGloss

namespace Pieces

open Token (closesIntoArrow)

/-- Pieces with balanced parentheses. -/
def Balanced (ps : List Piece) : Prop :=
  ∀ depth rest, closesIntoArrow depth (tokens ps ++ rest) = closesIntoArrow depth rest

variable {ps qs : List Piece}

@[simp] theorem Balanced.nil : Balanced [] := fun _ _ => rfl

@[simp] theorem balanced_append (first : Balanced ps) : Balanced (ps ++ qs) ↔ Balanced qs := by
  simp only [Balanced, tokens_append, List.append_assoc, first _ _]

@[simp] theorem balanced_blank : Balanced (.blank :: ps) ↔ Balanced ps := .rfl

@[simp] theorem balanced_token {kind : TokenKind} {t : Text} (noLeft : kind ≠ .leftParen)
    (noRight : kind ≠ .rightParen) : Balanced (.token kind t :: ps) ↔ Balanced ps := by
  have step (depth : Nat) (rest : List Token) : closesIntoArrow depth (.plain kind t :: rest) =
      closesIntoArrow depth rest := by
    cases depth <;> simp [Token.closesIntoArrow, Token.plain, noLeft, noRight]
  simp only [Balanced, tokens_token, List.cons_append, step]

/-- The look ahead from a parenthesis finds the one that closes it. -/
theorem Balanced.closesIntoArrow (inner : Balanced ps) (t : Text) (rest : List Token) :
    closesIntoArrow 0 (tokens ps ++ .plain .rightParen t :: rest) = Token.arrowFollows rest := by
  rw [inner]
  rfl

@[simp] theorem Balanced.parens (inner : Balanced ps) : Balanced (parens ps) := by
  intro depth rest
  simp only [Pieces.parens, leftParen, rightParen, tokens_token, List.cons_append, tokens_append,
    List.append_assoc, tokens_nil, List.nil_append, Token.closesIntoArrow, Token.plain, if_true]
  rw [inner]
  rfl

@[simp] theorem Balanced.wrapped (isWrapped : Bool) (inner : Balanced ps) :
    Balanced (wrapped isWrapped ps) := by
  cases isWrapped
  · exact inner
  · exact inner.parens

theorem wordKind_ne_paren (t : Text) : wordKind t ≠ .leftParen ∧ wordKind t ≠ .rightParen := by
  unfold wordKind
  cases Keyword.ofSpelling? t <;> simp

@[simp] theorem balanced_name (t : Text) : Balanced (name t :: ps) ↔ Balanced ps :=
  balanced_token (wordKind_ne_paren t).1 (wordKind_ne_paren t).2

@[simp] theorem balanced_keyword (word : Keyword) : Balanced (keyword word :: ps) ↔ Balanced ps :=
  balanced_token (by simp) (by simp)

@[simp] theorem Balanced.space (layout : Layout) : Balanced (space layout) := by
  cases layout <;> simp [Pieces.space]

@[simp] theorem Balanced.indent (depth : Nat) : Balanced (indent depth) := by
  unfold Pieces.indent
  induction 2 * depth with
  | zero => exact .nil
  | succ n ih => exact ih

@[simp] theorem Balanced.blankIf (needed : Bool) : Balanced (blankIf needed) := by
  cases needed <;> simp [Pieces.blankIf]

@[simp] theorem Balanced.join {separator : List Piece} {items : List (List Piece)}
    (separates : Balanced separator) (each : ∀ ps ∈ items, Balanced ps) :
    Balanced (join separator items) := by
  induction items with
  | nil => exact .nil
  | cons first rest ih =>
    obtain ⟨firstBalanced, restBalanced⟩ := List.forall_mem_cons.mp each
    cases rest with
    | nil => exact firstBalanced
    | cons second rest =>
      rw [join_cons_cons]
      simp [firstBalanced, separates, ih restBalanced]

@[simp] theorem Balanced.flatten {items : List (List Piece)} (each : ∀ ps ∈ items, Balanced ps) :
    Balanced items.flatten := by
  induction items with
  | nil => exact .nil
  | cons first rest ih =>
    obtain ⟨firstBalanced, restBalanced⟩ := List.forall_mem_cons.mp each
    exact (balanced_append firstBalanced).mpr (ih restBalanced)

@[simp] theorem Balanced.commas (layout : Layout) {items : List (List Piece)}
    (each : ∀ ps ∈ items, Balanced ps) : Balanced (commas layout items) :=
  .join (by simp [comma]) each

@[simp] theorem Balanced.braced (layout : Layout) (depth : Nat) {lines : List (List Piece)}
    (each : ∀ ps ∈ lines, Balanced ps) : Balanced (braced layout depth lines) := by
  have indented : ∀ ps ∈ lines.map (Pieces.indent (depth + 1) ++ ·), Balanced ps := by
    intro ps mem
    obtain ⟨line, isLine, rfl⟩ := List.mem_map.mp mem
    simp [each line isLine]
  have inLines : Balanced lines.flatten := .flatten each
  have feed : Balanced [newline] := by simp [newline]
  unfold Pieces.braced
  split
  · simp [leftBrace, rightBrace]
  · cases layout
    · simp [leftBrace, rightBrace, inLines]
    · have joined := Balanced.join feed indented
      have ending : Balanced (newline :: Pieces.indent depth ++ [rightBrace]) := by
        simp [newline, rightBrace]
      have opening : Balanced [leftBrace, newline] := by simp [leftBrace, newline]
      have all := (balanced_append opening).mpr ((balanced_append joined).mpr ending)
      simpa using all

theorem operatorKind_ne_paren (operator : Text) :
    operatorKind operator ≠ .leftParen ∧ operatorKind operator ≠ .rightParen := by
  have signs : ∀ sign ∈ Lexeme.longSigns ++ Lexeme.doubleSigns ++ Lexeme.singleOperators,
      sign.2 ≠ .leftParen ∧ sign.2 ≠ .rightParen := by decide
  unfold operatorKind
  cases found : (Lexeme.longSigns ++ Lexeme.doubleSigns ++ Lexeme.singleOperators).find? fun sign =>
    decide (sign.1 = operator) with
  | none => exact wordKind_ne_paren operator
  | some sign => exact signs sign (List.mem_of_find?_eq_some found)

@[simp] theorem Balanced.operator (sign : Text) : Balanced (operator sign) := by
  unfold Pieces.operator
  have kind := operatorKind_ne_paren sign
  split
  · simp [assign]
  · split <;> simp [assign, kind]

@[simp] theorem Balanced.between (layout : Layout) (sign : Text) (left : Balanced ps)
    (right : Balanced qs) : Balanced (between layout ps sign qs) := by
  unfold Pieces.between
  split <;> simp [left, right]

@[simp] theorem Balanced.before (sign : Text) (argument : Balanced ps) :
    Balanced (before sign ps) := by
  simp [Pieces.before, argument]

@[simp] theorem Balanced.sealed (statement : Node) (inner : Balanced ps) :
    Balanced (sealed statement ps) := by
  unfold Pieces.sealed
  split <;> simp [inner, semicolon]

theorem Balanced.lines {statements : List Node} {pieces : Node → List Piece}
    (each : ∀ ps ∈ statements.map pieces, Balanced ps) :
    ∀ ps ∈ statements.zipWith Pieces.sealed (statements.map pieces), Balanced ps := by
  rw [List.zipWith_map_right, List.zipWith_self]
  exact List.forall_mem_map.mpr fun n mem => .sealed n (List.forall_mem_map.mp each n mem)

@[simp] theorem Balanced.body (layout : Layout) (afterWord : Bool) (statement : Node)
    (inner : Balanced ps) : Balanced (body layout afterWord statement ps) := by
  unfold Pieces.body
  split <;> simp [inner]

@[simp] theorem Balanced.elsePart (layout : Layout) (depth : Nat) (consequent alternate : Node)
    (inner : Balanced ps) : Balanced (elsePart layout depth consequent alternate ps) := by
  unfold Pieces.elsePart Pieces.beforeElse
  cases layout <;> simp only <;> split <;> try split
  all_goals simp [inner, newline]

@[simp] theorem Balanced.ascription (layout : Layout) (type : Node) (inner : Balanced ps) :
    Balanced (ascription layout type ps) := by
  unfold Pieces.ascription
  split <;> simp [inner, colon]

@[simp] theorem Balanced.valuePart (layout : Layout) (value : Node) (inner : Balanced ps) :
    Balanced (valuePart layout value ps) := by
  unfold Pieces.valuePart
  split <;> simp [inner, assign]

@[simp] theorem Balanced.nameOf (node : Node) : Balanced (nameOf node) := by
  unfold Pieces.nameOf
  split <;> simp

@[simp] theorem Balanced.key (node : Node) : Balanced (key node) := by
  unfold Pieces.key
  split <;> simp

@[simp] theorem Balanced.functionName (layout : Layout) (node : Node) :
    Balanced (functionName layout node) := by
  unfold Pieces.functionName
  split <;> simp

@[simp] theorem Balanced.function (layout : Layout) (node : Node) {params : List (List Piece)}
    {result block : List Piece} (each : ∀ ps ∈ params, Balanced ps) (typed : Balanced result)
    (inside : Balanced block) : Balanced (function layout node params result block) := by
  have list := Balanced.parens (.commas layout each)
  simp [Pieces.function, list, typed, inside]

theorem Balanced.arrayItems (elements : List Node) {items : List (List Piece)}
    (each : ∀ ps ∈ items, Balanced ps) : ∀ ps ∈ arrayItems elements items, Balanced ps := by
  unfold Pieces.arrayItems
  split
  · intro ps mem
    rcases List.mem_append.mp mem with mem | mem
    · exact each ps mem
    · obtain rfl := List.mem_singleton.mp mem
      exact .nil
  · exact each

@[simp] theorem Balanced.memberHead (key : MemberKey) (optional : Bool) :
    Balanced (memberHead key optional) := by
  unfold Pieces.memberHead memberKey
  split
  · split <;> cases optional <;> simp [newline, question]
  · cases optional <;> simp [question]

@[simp] theorem Balanced.typeLiteral (layout : Layout) {members : List (List Piece)}
    (each : ∀ ps ∈ members, Balanced ps) : Balanced (typeLiteral layout members) := by
  have ended : ∀ ps ∈ members.map terminated, Balanced ps := by
    intro ps mem
    obtain ⟨member, isMember, rfl⟩ := List.mem_map.mp mem
    simp [terminated, semicolon, each member isMember]
  have inLine : Balanced (members.map terminated).flatten := .flatten ended
  have joined : Balanced (Pieces.join [semicolon, .blank] members) :=
    .join (by simp [semicolon]) each
  unfold Pieces.typeLiteral
  split
  · simp [leftBrace, rightBrace]
  · cases layout
    · simp [leftBrace, rightBrace, inLine]
    · simp [leftBrace, rightBrace, joined]

@[simp] theorem Balanced.unionMember (type : Node) (inner : Balanced ps) :
    Balanced (unionMember type ps) := by
  unfold Pieces.unionMember
  split <;> simp [inner]

@[simp] theorem Balanced.arrayElement (type : Node) (inner : Balanced ps) :
    Balanced (arrayElement type ps) := by
  unfold Pieces.arrayElement
  split <;> simp [inner]

@[simp] theorem Balanced.headerPart (layout : Layout) (part : Node) (inner : Balanced ps) :
    Balanced (headerPart layout part ps) := by
  unfold Pieces.headerPart
  split <;> simp [inner]

@[simp] theorem Balanced.loopHeader {initializer test step : List Piece}
    (initial : Balanced initializer) (condition : Balanced test) (increment : Balanced step) :
    Balanced (loopHeader initializer test step) := by
  simp [Pieces.loopHeader, initial, condition, increment, semicolon]

mutual

/-- The parentheses of a node are balanced. -/
theorem balanced_node (layout : Layout) (depth : Nat) (n : Node) :
    Balanced (node layout depth n) := by
  cases n with
  | absent | keywordType | identifier | number | string | template | boolean | null | this
  | breakStatement | continueStatement | emptyStatement =>
    simp [node, semicolon]
  | typeReference loc t arguments =>
    have given := Balanced.commas layout (balanced_nodes layout depth arguments)
    simp only [node, nodes_eq_map]
    split <;> simp [given]
  | unionType loc members =>
    have each := List.forall_mem_map.mp (balanced_nodes layout depth members)
    simp only [node, nodes_eq_map, List.zipWith_map_right, List.zipWith_self]
    exact .join (by simp) (List.forall_mem_map.mpr fun n mem => .unionMember n (each n mem))
  | arrayType loc element =>
    simp [node, balanced_node layout depth element, leftBracket, rightBracket]
  | propertySignature loc key type optional =>
    simp [node, balanced_node layout depth type, colon]
  | typeLiteral loc members =>
    simp only [node, nodes_eq_map]
    exact .typeLiteral layout (balanced_nodes layout depth members)
  | functionType loc params result =>
    have given := Balanced.parens (.commas layout (balanced_bindings layout depth params))
    simp [node, given, balanced_node layout depth result, arrow]
  | array loc isWrapped elements =>
    have given := Balanced.commas layout
      (.arrayItems elements (balanced_nodes layout depth elements))
    simp only [node, nodes_eq_map]
    exact .wrapped isWrapped (by simp [given, leftBracket, rightBracket])
  | property loc key value shorthand =>
    cases shorthand <;> simp [node, balanced_node layout depth value, colon]
  | object loc isWrapped properties =>
    have given := Balanced.commas layout (balanced_nodes layout depth properties)
    simp only [node, nodes_eq_map]
    refine .wrapped isWrapped ?_
    split <;> simp [given, leftBrace, rightBrace]
  | defaultParam loc target value | declarator loc target value =>
    simp [node, balanced_binding layout depth target, balanced_node layout depth value]
  | functionExpression loc isWrapped name params body result =>
    simp only [node, bindings_eq_map]
    exact .wrapped isWrapped (.function layout name (balanced_bindings layout depth params)
      (.ascription layout result (balanced_node layout depth result))
      (balanced_blockOf layout depth body))
  | functionDeclaration loc name params body result =>
    simp only [node, bindings_eq_map]
    exact .function layout name (balanced_bindings layout depth params)
      (.ascription layout result (balanced_node layout depth result))
      (balanced_blockOf layout depth body)
  | arrowFunction loc isWrapped params body =>
    have given := Balanced.parens (.commas layout (balanced_bindings layout depth params))
    simp only [node, bindings_eq_map]
    exact .wrapped isWrapped (by simp [given, balanced_node layout depth body, arrow])
  | unary loc isWrapped sign argument => simp [node, balanced_node layout depth argument]
  | update loc isWrapped sign leading argument =>
    cases leading <;> simp [node, balanced_node layout depth argument]
  | binary loc isWrapped sign left right | logical loc isWrapped sign left right
  | assignment loc isWrapped sign left right =>
    simp [node, balanced_node layout depth left, balanced_node layout depth right]
  | conditional loc isWrapped test consequent alternate =>
    simp [node, balanced_node layout depth test, balanced_node layout depth consequent,
      balanced_node layout depth alternate, question, colon]
  | call loc isWrapped callee arguments | construction loc isWrapped callee arguments =>
    have given := Balanced.parens (.commas layout (balanced_nodes layout depth arguments))
    simp only [node, nodes_eq_map]
    exact .wrapped isWrapped (by simp [given, balanced_node layout depth callee])
  | member loc isWrapped value selector computed =>
    cases computed <;>
      simp [node, balanced_node layout depth value, balanced_node layout depth selector,
        leftBracket, rightBracket, dot]
  | sequence loc isWrapped expressions =>
    simp only [node, nodes_eq_map]
    exact .wrapped isWrapped (.commas layout (balanced_nodes layout depth expressions))
  | variableDeclaration loc word declarators =>
    simp [node, Balanced.commas layout (balanced_nodes layout depth declarators)]
  | block loc statements =>
    simp only [node, nodes_eq_map]
    exact .braced layout depth (.lines (balanced_nodes layout (depth + 1) statements))
  | interfaceDeclaration loc name members =>
    have each := List.forall_mem_map.mp (balanced_nodes layout (depth + 1) members)
    have lines : Balanced (braced layout depth
        (members.map (terminated ∘ node layout (depth + 1)))) :=
      .braced layout depth (List.forall_mem_map.mpr fun n mem => by
        simp [terminated, semicolon, each n mem])
    simp [node, lines]
  | returnStatement loc argument =>
    rw [node]
    split <;> simp [balanced_node layout depth argument, semicolon]
  | throwStatement loc argument => simp [node, balanced_node layout depth argument, semicolon]
  | expressionStatement loc expression =>
    simp [node, balanced_node layout depth expression, semicolon]
  | ifStatement loc test consequent alternate =>
    simp [node, balanced_node layout depth test, balanced_node layout depth consequent,
      balanced_node layout depth alternate]
  | whileStatement loc test body =>
    simp [node, balanced_node layout depth test, balanced_node layout depth body]
  | forStatement loc initializer test step body =>
    have header := Balanced.loopHeader (balanced_node layout depth initializer)
      (.headerPart layout test (balanced_node layout depth test))
      (.headerPart layout step (balanced_node layout depth step))
    simp [node, header, balanced_node layout depth body]
  | exportNamed loc declaration | exportDefault loc declaration =>
    simp [node, balanced_node layout depth declaration]
  | program loc statements =>
    have lines := Balanced.lines (balanced_nodes layout depth statements)
    cases layout
    · simp only [node, nodes_eq_map]
      exact .flatten lines
    · simp only [node, nodes_eq_map, List.flatMap]
      exact .flatten (List.forall_mem_map.mpr fun line isLine => by
        simp [lines line isLine, newline])

theorem balanced_binding (layout : Layout) (depth : Nat) (n : Node) :
    Balanced (binding layout depth n) := by
  cases n with
  | identifier loc isWrapped t typing => simp [binding, balanced_node layout depth typing]
  | defaultParam loc target value =>
    simp [binding, balanced_binding layout depth target, balanced_node layout depth value]
  | _ => exact .nil

theorem balanced_blockOf (layout : Layout) (depth : Nat) (n : Node) :
    Balanced (blockOf layout depth n) := by
  cases n with
  | block loc statements | interfaceDeclaration loc name statements | program loc statements =>
    simp only [blockOf, nodes_eq_map]
    exact .braced layout depth (.lines (balanced_nodes layout (depth + 1) statements))
  | _ => simp [blockOf, leftBrace, rightBrace]

theorem balanced_nodes (layout : Layout) (depth : Nat) (ns : List Node) :
    ∀ ps ∈ ns.map (node layout depth), Balanced ps := by
  cases ns with
  | nil => simp
  | cons n ns =>
    exact List.forall_mem_cons.mpr ⟨balanced_node layout depth n, balanced_nodes layout depth ns⟩

theorem balanced_bindings (layout : Layout) (depth : Nat) (ns : List Node) :
    ∀ ps ∈ ns.map (binding layout depth), Balanced ps := by
  cases ns with
  | nil => simp
  | cons n ns =>
    exact List.forall_mem_cons.mpr
      ⟨balanced_binding layout depth n, balanced_bindings layout depth ns⟩

end

end Pieces

end TypeGloss
