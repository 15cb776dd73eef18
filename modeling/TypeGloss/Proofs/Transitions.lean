import TypeGloss.Parse.Program

/-!
# What a token leads to

For each function of the parser a relation lists by name what it makes of a token: the frames that
take the token, its kind, and the state behind it. Invariants of the parser go through these lists
and do not open the functions.
-/

namespace TypeGloss

namespace Parse

theorem of_ite_some {α : Type} {p : Prop} [Decidable p] {a b : α}
    (chosen : (if p then some a else none) = some b) : p ∧ a = b := by
  split at chosen
  case isTrue holds => exact ⟨holds, Option.some.inj chosen⟩
  case isFalse => cases chosen

/-- A choice between a state and what another function makes of the token. -/
theorem of_ite_some_else {α : Type} {p : Prop} [Decidable p] {a b : α} {other : Option α}
    (chosen : (if p then some a else other) = some b) : p ∧ a = b ∨ ¬p ∧ other = some b := by
  split at chosen
  case isTrue holds => exact .inl ⟨holds, Option.some.inj chosen⟩
  case isFalse fails => exact .inr ⟨fails, chosen⟩

/-- The kinds of the words that declare variables. -/
def declarationKinds : List TokenKind := [.keyword .varKw, .keyword .letKw, .keyword .constKw]

/-- The kinds of the signs and words before a single operand. -/
def unaryKinds : List TokenKind :=
  [.additive, .bang, .tilde, .keyword .typeofKw, .keyword .voidKw, .keyword .deleteKw]

section Lists

inductive EndDeclarator (t : Token) (node : Node) : List Frame → State → Prop
  | next {loc keyword done frames} (kind : t.kind = .comma) :
      EndDeclarator t node (.declarators loc keyword done :: frames)
        ⟨.declaratorName, .declarators loc keyword (node :: done) :: frames⟩
  | header {loc keyword done forLoc frames} (kind : t.kind = .terminator) :
      EndDeclarator t node (.declarators loc keyword done :: .forInit forLoc :: frames)
        ⟨.operand, .forTest forLoc (.variableDeclaration loc keyword (node :: done).reverse) ::
          frames⟩
  | statement {loc keyword done frames} (kind : t.kind = .terminator)
      (noHeader : ∀ forLoc below, frames ≠ .forInit forLoc :: below) :
      EndDeclarator t node (.declarators loc keyword done :: frames)
        ⟨.finished (.variableDeclaration loc keyword (node :: done).reverse) false, frames⟩

inductive EndParam (t : Token) (node : Node) : List Frame → State → Prop
  | next {owner done frames} (kind : t.kind = .comma) :
      EndParam t node (.paramList owner done :: frames)
        ⟨.paramName false, .paramList owner (node :: done) :: frames⟩
  | last {owner done frames} (kind : t.kind = .rightParen) :
      EndParam t node (.paramList owner done :: frames)
        (endParams owner (node :: done).reverse frames)

inductive EndProperty (t : Token) (node : Node) : List Frame → State → Prop
  | next {loc done frames} (kind : t.kind = .comma) :
      EndProperty t node (.properties loc done :: frames)
        ⟨.property, .properties loc (node :: done) :: frames⟩
  | last {loc done frames} (kind : t.kind = .rightBrace) :
      EndProperty t node (.properties loc done :: frames)
        (operandState (.object loc false (node :: done).reverse) loc .callable frames)

/-- A value that ends where its property, declarator or parameter ends. -/
inductive EndValue (t : Token) (node : Node) : List Frame → State → Prop
  | property {loc key frames s}
      (ended : endProperty t (.property loc key node false) frames = some s) :
      EndValue t node (.propertyValue loc key :: frames) s
  | declarator {name typing frames s}
      (ended : endDeclarator t (declaratorNode name typing node) frames = some s) :
      EndValue t node (.declaratorValue name typing :: frames) s
  | param {name typing frames s} (ended : endParam t (paramNode name typing node) frames = some s) :
      EndValue t node (.paramDefault name typing :: frames) s

inductive EndMembers : List Frame → State → Prop
  | literal {loc done frames} :
      EndMembers (.members loc .literal done :: frames)
        ⟨.typeOperator ⟨.typeLiteral loc done.reverse, loc, none⟩, frames⟩
  | interface {braceLoc loc name done frames} :
      EndMembers (.members braceLoc (.interface loc name) done :: frames)
        ⟨.finished (.interfaceDeclaration loc name done.reverse) false, frames⟩

inductive EndMember (t : Token) (node : Node) : List Frame → State → Prop
  | next {loc owner done frames} (kind : t.kind = .comma ∨ t.kind = .terminator) :
      EndMember t node (.members loc owner done :: frames)
        ⟨.member, .members loc owner (node :: done) :: frames⟩
  | last {loc owner done frames s} (kind : t.kind = .rightBrace)
      (ended : endMembers (.members loc owner (node :: done) :: frames) = some s) :
      EndMember t node (.members loc owner done :: frames) s

variable {t : Token} {node : Node} {frames : List Frame} {s : State}

theorem endDeclarator_cases (ended : endDeclarator t node frames = some s) :
    EndDeclarator t node frames s := by
  unfold endDeclarator at ended
  split at ended
  case h_2 => cases ended
  split at ended <;> cases ended
  case h_1 kind => exact .next kind
  case h_2 kind => unfold endDeclarators; split <;> constructor <;> assumption

theorem endParam_cases (ended : endParam t node frames = some s) : EndParam t node frames s := by
  unfold endParam at ended
  split at ended
  case h_1 => split at ended <;> cases ended <;> constructor <;> assumption
  case h_2 => cases ended

theorem endProperty_cases (ended : endProperty t node frames = some s) :
    EndProperty t node frames s := by
  unfold endProperty at ended
  split at ended
  case h_1 => split at ended <;> cases ended <;> constructor <;> assumption
  case h_2 => cases ended

theorem endMembers_cases (ended : endMembers frames = some s) : EndMembers frames s := by
  unfold endMembers at ended
  split at ended <;> cases ended <;> constructor

theorem endMember_cases (ended : endMember t node frames = some s) :
    EndMember t node frames s := by
  unfold endMember at ended
  split at ended
  case h_2 => cases ended
  split at ended
  case h_3 kind => exact .last kind ended
  all_goals cases ended
  case h_1 kind => exact .next (.inl kind)
  case h_2 kind => exact .next (.inr kind)

end Lists

section Types

inductive DeliverType (t : Token) (type : Node) : List Frame → State → Prop
  | group {loc frames} (kind : t.kind = .rightParen) :
      DeliverType t type (.typeGroup loc :: frames) ⟨.typeOperator ⟨type, loc, none⟩, frames⟩
  | argument {loc name done frames} (kind : t.kind = .comma) :
      DeliverType t type (.typeArguments loc name done :: frames)
        ⟨.typeOperand, .typeArguments loc name (type :: done) :: frames⟩
  | arguments {loc name done frames} (kind : t.kind = .greater) :
      DeliverType t type (.typeArguments loc name done :: frames)
        ⟨.typeOperator ⟨namedType loc name (type :: done).reverse, loc, none⟩, frames⟩
  | member {loc key optional frames s}
      (ended : endMember t (.propertySignature loc key type optional) frames = some s) :
      DeliverType t type (.memberType loc key optional :: frames) s
  | typeParam {name loc done frames} (kind : t.kind = .comma) :
      DeliverType t type (.typeParam name :: .typeParamList loc done :: frames)
        ⟨.typeParamName false, .typeParamList loc (identifier name type :: done) :: frames⟩
  | typeParams {name loc done frames} (kind : t.kind = .rightParen) :
      DeliverType t type (.typeParam name :: .typeParamList loc done :: frames)
        ⟨.typeArrow loc (identifier name type :: done).reverse, frames⟩
  | declaratorValue {name frames} (kind : t.kind = .assign) :
      DeliverType t type (.declaratorType name :: frames)
        ⟨.operand, .declaratorValue name type :: frames⟩
  | declarator {name frames s}
      (ended : endDeclarator t (declaratorNode name type .absent) frames = some s) :
      DeliverType t type (.declaratorType name :: frames) s
  | paramDefault {name frames} (kind : t.kind = .assign) :
      DeliverType t type (.paramType name :: frames) ⟨.operand, .paramDefault name type :: frames⟩
  | param {name frames s} (ended : endParam t (paramNode name type .absent) frames = some s) :
      DeliverType t type (.paramType name :: frames) s
  | result {header params frames s} (opened : openBody t header params type frames = some s) :
      DeliverType t type (.resultType header params :: frames) s

inductive TypeStart (t : Token) (frames : List Frame) : State → Prop
  | name (kind : t.kind = .name) :
      TypeStart t frames
        ⟨.typeOperator ⟨namedType t.loc t.text [], t.loc, some t.text⟩, frames⟩
  | word (kind : t.kind = .keyword .nullKw ∨ t.kind = .keyword .voidKw) :
      TypeStart t frames ⟨.typeOperator ⟨.keywordType t.loc t.text, t.loc, none⟩, frames⟩
  | literal (kind : t.kind = .objectBrace) :
      TypeStart t frames ⟨.member, .members t.loc .literal [] :: frames⟩
  | params (kind : t.kind = .arrowParen) :
      TypeStart t frames ⟨.typeParamName true, .typeParamList t.loc [] :: frames⟩
  | group (kind : t.kind = .leftParen) :
      TypeStart t frames ⟨.typeOperand, .typeGroup t.loc :: frames⟩

inductive TypeNext (t : Token) (x : TypeOperand) : List Frame → State → Prop
  | array {frames} (kind : t.kind = .leftBracket) : TypeNext t x frames ⟨.arrayEnd x, frames⟩
  | arguments {name frames} (kind : t.kind = .less) (named : x.bare = some name) :
      TypeNext t x frames ⟨.typeOperand, .typeArguments x.start name [] :: frames⟩
  | member {start done frames} (kind : t.kind = .bar) :
      TypeNext t x (.union start done :: frames)
        ⟨.typeOperand, .union start (x.node :: done) :: frames⟩
  | union {frames} (kind : t.kind = .bar) :
      TypeNext t x frames ⟨.typeOperand, .union x.start [x.node] :: frames⟩
  | ends {frames s} (delivered : deliverType t (Frame.closeType x.node frames).1
      (Frame.closeType x.node frames).2 = some s) : TypeNext t x frames s

inductive TypeParamStart (t : Token) : Bool → List Frame → State → Prop
  | name {isFirst frames} (kind : t.kind = .name) :
      TypeParamStart t isFirst frames ⟨.typeParamColon t, frames⟩
  | none {loc done frames} (kind : t.kind = .rightParen) :
      TypeParamStart t true (.typeParamList loc done :: frames)
        ⟨.typeArrow loc done.reverse, frames⟩

inductive MemberStart (t : Token) (frames : List Frame) : State → Prop
  | name (kind : t.kind = .name) : MemberStart t frames ⟨.memberKey t.loc (.name t.text), frames⟩
  | string (kind : t.kind = .string) :
      MemberStart t frames ⟨.memberKey t.loc (.string t.text), frames⟩
  | number (kind : t.kind = .number) :
      MemberStart t frames ⟨.memberKey t.loc (.number t.text), frames⟩
  | none {s} (kind : t.kind = .rightBrace) (ended : endMembers frames = some s) :
      MemberStart t frames s

inductive MemberNext (t : Token) (loc : Location) (key : MemberKey) (frames : List Frame) :
    State → Prop
  | optional (kind : t.kind = .question) : MemberNext t loc key frames ⟨.memberColon loc key, frames⟩
  | required (kind : t.kind = .colon) :
      MemberNext t loc key frames ⟨.typeOperand, .memberType loc key false :: frames⟩

variable {t : Token} {frames : List Frame} {s : State}

theorem deliverType_cases {type : Node} (delivered : deliverType t type frames = some s) :
    DeliverType t type frames s := by
  unfold deliverType at delivered
  split at delivered
  case h_1 =>
    obtain ⟨kind, rfl⟩ := of_ite_some delivered
    exact .group kind
  case h_2 => split at delivered <;> cases delivered <;> constructor <;> assumption
  case h_3 => exact .member delivered
  case h_4 =>
    dsimp only at delivered
    split at delivered <;> cases delivered <;> constructor <;> assumption
  case h_5 =>
    obtain ⟨kind, rfl⟩ | ⟨-, ended⟩ := of_ite_some_else delivered
    · exact .declaratorValue kind
    · exact .declarator ended
  case h_6 =>
    obtain ⟨kind, rfl⟩ | ⟨-, ended⟩ := of_ite_some_else delivered
    · exact .paramDefault kind
    · exact .param ended
  case h_7 => exact .result delivered
  case h_8 => cases delivered

theorem typeStart_cases (started : typeStart t frames = some s) : TypeStart t frames s := by
  unfold typeStart at started
  split at started <;> cases started
  case h_2 kind => exact .word (.inl kind)
  case h_3 kind => exact .word (.inr kind)
  all_goals
    constructor
    assumption

theorem typeNext_cases {x : TypeOperand} (next : typeNext t x frames = some s) :
    TypeNext t x frames s := by
  unfold typeNext at next
  split at next
  case h_3 => split at next <;> cases next <;> constructor <;> assumption
  case h_4 => exact .ends next
  all_goals
    cases next
    constructor <;> assumption

theorem typeParamStart_cases {isFirst : Bool} (started : typeParamStart t isFirst frames = some s) :
    TypeParamStart t isFirst frames s := by
  unfold typeParamStart at started
  split at started
  case h_2 kind =>
    obtain ⟨rfl, rfl⟩ := of_ite_some started
    exact .none kind
  all_goals cases started <;> constructor <;> assumption

theorem memberStart_cases (started : memberStart t frames = some s) : MemberStart t frames s := by
  unfold memberStart at started
  split at started
  case h_4 kind => exact .none kind started
  all_goals cases started <;> constructor <;> assumption

theorem memberNext_cases {loc : Location} {key : MemberKey}
    (next : memberNext t loc key frames = some s) : MemberNext t loc key frames s := by
  unfold memberNext at next
  split at next <;> cases next <;> constructor <;> assumption

end Types

section Expressions

/-- Tokens that are an operand. -/
inductive AtomToken (t : Token) : Node → Grip → Prop
  | name (kind : t.kind = .name) : AtomToken t (identifier t .absent) .name
  | number (kind : t.kind = .number) : AtomToken t (.number t.loc false t.text) .callable
  | string (kind : t.kind = .string) : AtomToken t (.string t.loc false t.text) .callable
  | template (kind : t.kind = .template) : AtomToken t (.template t.loc false t.text) .callable
  | true (kind : t.kind = .keyword .trueKw) : AtomToken t (.boolean t.loc false true) .callable
  | false (kind : t.kind = .keyword .falseKw) : AtomToken t (.boolean t.loc false false) .callable
  | null (kind : t.kind = .keyword .nullKw) : AtomToken t (.null t.loc false) .callable
  | this (kind : t.kind = .keyword .thisKw) : AtomToken t (.this t.loc false) .callable

/-- Tokens that open an operand anywhere. -/
inductive OpeningToken (t : Token) : Focus → List Frame → Prop
  | group (kind : t.kind = .leftParen) : OpeningToken t .operand [.group t.loc]
  | array (kind : t.kind = .leftBracket) : OpeningToken t .operand [.elements t.loc []]
  | object (kind : t.kind = .objectBrace) : OpeningToken t .property [.properties t.loc []]
  | function (kind : t.kind = .functionExpr) : OpeningToken t (.functionName t.loc true) []
  | construction (kind : t.kind = .keyword .newKw) : OpeningToken t (.newName t.loc) []
  | unary (kind : t.kind ∈ unaryKinds) : OpeningToken t .operand [.unary t.loc t.text]
  | update (kind : t.kind = .incDec) : OpeningToken t .operand [.update t.loc t.text]

/-- Tokens that stand in the place of an operand that is left out. -/
inductive Omission (t : Token) : List Frame → State → Prop
  | arguments {start callee isNew frames} (kind : t.kind = .rightParen) :
      Omission t (.arguments start callee isNew [] :: frames)
        (operandState (callNode isNew start callee []) start .callable frames)
  | hole {loc done frames} (kind : t.kind = .comma) :
      Omission t (.elements loc done :: frames)
        ⟨.operand, .elements loc (.absent :: done) :: frames⟩
  | array {loc done frames} (kind : t.kind = .rightBracket) :
      Omission t (.elements loc done :: frames)
        (operandState (.array loc false done.reverse) loc .callable frames)
  | value {loc frames} (kind : t.kind = .terminator) :
      Omission t (.returned loc :: frames) ⟨.finished (.returnStatement loc .absent) false, frames⟩
  | initializer {loc frames} (kind : t.kind = .terminator) :
      Omission t (.forInit loc :: frames) ⟨.operand, .forTest loc .absent :: frames⟩
  | declaration {loc frames} (kind : t.kind ∈ declarationKinds) :
      Omission t (.forInit loc :: frames)
        ⟨.declaratorName, .declarators t.loc t.text [] :: .forInit loc :: frames⟩
  | test {loc initializer frames} (kind : t.kind = .terminator) :
      Omission t (.forTest loc initializer :: frames)
        ⟨.operand, .forStep loc initializer .absent :: frames⟩
  | step {loc initializer test frames} (kind : t.kind = .rightParen) :
      Omission t (.forStep loc initializer test :: frames)
        ⟨.statement, .forBody loc initializer test .absent :: frames⟩

inductive OperandStart (t : Token) (frames : List Frame) : State → Prop
  | atom {node grip} (found : AtomToken t node grip) :
      OperandStart t frames (operandState node t.loc grip frames)
  | opening {focus opened} (found : OpeningToken t focus opened) :
      OperandStart t frames ⟨focus, opened ++ frames⟩
  | arrow (kind : t.kind = .arrowParen) (free : Frame.awaitsOperand frames = false) :
      OperandStart t frames ⟨.paramName true, .paramList (.arrow t.loc) [] :: frames⟩
  | omission {s} (found : Omission t frames s) : OperandStart t frames s

inductive DeliverItem (t : Token) (node : Node) (start : Location) : List Frame → State → Prop
  | sequence {seqStart done frames} :
      DeliverItem t node start (.sequence seqStart done :: frames)
        ⟨.operand, .sequence seqStart (node :: done) :: frames⟩
  | argument {callStart callee isNew done frames} :
      DeliverItem t node start (.arguments callStart callee isNew done :: frames)
        ⟨.operand, .arguments callStart callee isNew (node :: done) :: frames⟩
  | element {loc done frames} :
      DeliverItem t node start (.elements loc done :: frames)
        ⟨.operand, .elements loc (node :: done) :: frames⟩
  | value {frames s} (ended : EndValue t node frames s) : DeliverItem t node start frames s
  | first {frame frames} (accepts : frame.acceptsSequence = true) :
      DeliverItem t node start (frame :: frames)
        ⟨.operand, .sequence start [node] :: frame :: frames⟩

inductive DeliverLast (t : Token) (node : Node) (start : Location) : List Frame → State → Prop
  | consequent {testStart test frames} (kind : t.kind = .colon) :
      DeliverLast t node start (.conditionThen testStart test :: frames)
        ⟨.operand, .conditionElse testStart test node :: frames⟩
  | group {loc frames} (kind : t.kind = .rightParen) :
      DeliverLast t node start (.group loc :: frames) (operandState node.wrap loc .callable frames)
  | index {valueStart value frames} (kind : t.kind = .rightBracket) :
      DeliverLast t node start (.index valueStart value :: frames)
        (operandState (.member valueStart false value node true) valueStart .callable frames)
  | arguments {callStart callee isNew done frames} (kind : t.kind = .rightParen) :
      DeliverLast t node start (.arguments callStart callee isNew done :: frames)
        (operandState (callNode isNew callStart callee (node :: done).reverse) callStart .callable
          frames)
  | array {loc done frames} (kind : t.kind = .rightBracket) :
      DeliverLast t node start (.elements loc done :: frames)
        (operandState (.array loc false (node :: done).reverse) loc .callable frames)
  | ifTest {loc frames} (kind : t.kind = .rightParen) :
      DeliverLast t node start (.ifTest loc :: frames) ⟨.statement, .thenBranch loc node :: frames⟩
  | whileTest {loc frames} (kind : t.kind = .rightParen) :
      DeliverLast t node start (.whileTest loc :: frames)
        ⟨.statement, .whileBody loc node :: frames⟩
  | forStep {loc initializer test frames} (kind : t.kind = .rightParen) :
      DeliverLast t node start (.forStep loc initializer test :: frames)
        ⟨.statement, .forBody loc initializer test node :: frames⟩
  | forInit {loc frames} (kind : t.kind = .terminator) :
      DeliverLast t node start (.forInit loc :: frames) ⟨.operand, .forTest loc node :: frames⟩
  | forTest {loc initializer frames} (kind : t.kind = .terminator) :
      DeliverLast t node start (.forTest loc initializer :: frames)
        ⟨.operand, .forStep loc initializer node :: frames⟩
  | expression {frames} (kind : t.kind = .terminator) :
      DeliverLast t node start (.expression :: frames)
        ⟨.finished (.expressionStatement start node) false, frames⟩
  | returned {loc frames} (kind : t.kind = .terminator) :
      DeliverLast t node start (.returned loc :: frames)
        ⟨.finished (.returnStatement loc node) false, frames⟩
  | thrown {loc frames} (kind : t.kind = .terminator) :
      DeliverLast t node start (.thrown loc :: frames)
        ⟨.finished (.throwStatement loc node) false, frames⟩
  | value {frames s} (ended : EndValue t node frames s) : DeliverLast t node start frames s

inductive Suffix (t : Token) (x : Operand) (frames : List Frame) : State → Prop
  | call (kind : t.kind = .leftParen) :
      Suffix t x frames ⟨.operand, .arguments x.start x.node false [] :: frames⟩
  | member (kind : t.kind = .dot) : Suffix t x frames ⟨.selector x, frames⟩
  | index (kind : t.kind = .leftBracket) :
      Suffix t x frames ⟨.operand, .index x.start x.node :: frames⟩
  | update (kind : t.kind = .incDec) :
      Suffix t x frames
        (operandState (.update x.start false t.text false x.node) x.start .operand frames)

/-- Signs behind an operand that bind something to it or to its names. -/
inductive BindingSign (t : Token) (x : Operand) (frames : List Frame) : State → Prop
  | assignment (kind : t.kind = .assign ∨ t.kind = .compoundAssign) :
      BindingSign t x frames ⟨.operand, .assigned x.start x.node t.text :: frames⟩
  | arrow (kind : t.kind = .arrow) (isName : x.grip = .name) :
      BindingSign t x frames ⟨.arrowBody x.start [x.node], frames⟩

inductive InfixNext (t : Token) (x : Operand) (frames : List Frame) : State → Prop
  | comparison {level left} (found : Level.ofKind? t.kind = some level)
      (kind : t.kind = .less ∨ t.kind = .greater)
      (closed : Frame.closeTighter level x.node x.start frames = left) :
      InfixNext t x frames ⟨.comparison ⟨left.1, left.2.1, .operand⟩ t.text, left.2.2⟩
  | operator {level left} (found : Level.ofKind? t.kind = some level)
      (kind : ¬(t.kind = .less ∨ t.kind = .greater))
      (closed : Frame.closeTighter level x.node x.start frames = left) :
      InfixNext t x frames ⟨.operand, .rightOf left.2.1 left.1 t.text level :: left.2.2⟩
  | question {test} (kind : t.kind = .question)
      (closed : Frame.closeTighter .orElse x.node x.start frames = test) :
      InfixNext t x frames ⟨.operand, .conditionThen test.2.1 test.1 :: test.2.2⟩
  | ends {s} (ended : expressionEnd t x frames = some s) : InfixNext t x frames s

inductive OperatorNext (t : Token) (x : Operand) (frames : List Frame) (s : State) : Prop
  | ends (grip : x.grip = .complete) (ended : expressionEnd t x frames = some s)
  | operator (grip : x.grip ≠ .complete) (next : InfixNext t x frames s)
  | suffix (grip : x.grip = .callable ∨ x.grip = .name) (found : Suffix t x frames s)
  | binding (grip : x.grip = .callable ∨ x.grip = .name)
      (free : Frame.awaitsOperand frames = false) (found : BindingSign t x frames s)

inductive NewNext (t : Token) (loc : Location) (callee : Node) (frames : List Frame) : State → Prop
  | member (kind : t.kind = .dot) : NewNext t loc callee frames ⟨.newSelector loc callee, frames⟩
  | arguments (kind : t.kind = .leftParen) :
      NewNext t loc callee frames ⟨.operand, .arguments loc callee true [] :: frames⟩

inductive PropertyStart (t : Token) : List Frame → State → Prop
  | name {frames} (kind : t.kind = .name) : PropertyStart t frames ⟨.propertyName t, frames⟩
  | string {frames} (kind : t.kind = .string) :
      PropertyStart t frames ⟨.propertyColon (.string t.loc false t.text), frames⟩
  | number {frames} (kind : t.kind = .number) :
      PropertyStart t frames ⟨.propertyColon (.number t.loc false t.text), frames⟩
  | none {loc done frames} (kind : t.kind = .rightBrace) :
      PropertyStart t (.properties loc done :: frames)
        (operandState (.object loc false done.reverse) loc .callable frames)

variable {t : Token} {node : Node} {frames : List Frame} {s : State} {x : Operand}

theorem atom?_cases {grip : Grip} (found : atom? t = some (node, grip)) :
    AtomToken t node grip := by
  unfold atom? at found
  split at found <;> cases found <;> constructor <;> assumption

theorem opening?_cases {focus : Focus} {opened : List Frame}
    (found : opening? t = some (focus, opened)) : OpeningToken t focus opened := by
  unfold opening? at found
  split at found <;> cases found
  case h_6 | h_7 | h_8 | h_9 | h_10 | h_11 =>
    rename_i kind
    exact .unary (by rw [kind]; decide)
  all_goals
    constructor
    assumption

theorem omission?_cases (found : omission? t frames = some s) : Omission t frames s := by
  unfold omission? at found
  split at found
  case h_2 => split at found <;> cases found <;> constructor <;> assumption
  case h_4 =>
    split at found <;> cases found
    case h_1 kind => exact .initializer kind
    all_goals
      rename_i kind
      exact .declaration (by rw [kind]; decide)
  case h_7 => cases found
  all_goals
    obtain ⟨kind, rfl⟩ := of_ite_some found
    constructor
    exact kind

theorem operandStart_cases (started : operandStart t frames = some s) :
    OperandStart t frames s := by
  unfold operandStart at started
  split at started
  case h_1 found =>
    obtain rfl := Option.some.inj started
    exact .atom (atom?_cases found)
  case h_2 =>
  split at started
  case h_1 found =>
    obtain rfl := Option.some.inj started
    exact .opening (opening?_cases found)
  case h_2 =>
  split at started
  case isTrue kind =>
    split at started
    case isTrue => cases started
    case isFalse free =>
      obtain rfl := Option.some.inj started
      exact .arrow kind (Bool.not_eq_true _ ▸ free)
  case isFalse => exact .omission (omission?_cases started)

theorem deliverItem_cases {start : Location}
    (delivered : deliverItem t node start frames = some s) :
    DeliverItem t node start frames s := by
  unfold deliverItem at delivered
  split at delivered
  case h_4 => exact .value (.property delivered)
  case h_5 => exact .value (.declarator delivered)
  case h_6 => exact .value (.param delivered)
  case h_7 =>
    obtain ⟨accepts, rfl⟩ := of_ite_some delivered
    exact .first accepts
  all_goals cases delivered <;> constructor

theorem deliverLast_cases {start : Location}
    (delivered : deliverLast t node start frames = some s) :
    DeliverLast t node start frames s := by
  unfold deliverLast at delivered
  split at delivered
  case h_6 => exact .value (.property delivered)
  case h_7 => exact .value (.declarator delivered)
  case h_8 => exact .value (.param delivered)
  case h_17 => cases delivered
  all_goals
    obtain ⟨kind, rfl⟩ := of_ite_some delivered
    constructor
    exact kind

theorem suffix?_cases (found : suffix? t x frames = some s) : Suffix t x frames s := by
  unfold suffix? at found
  split at found <;> cases found <;> constructor <;> assumption

theorem binding?_cases (found : binding? t x frames = some s) : BindingSign t x frames s := by
  unfold binding? at found
  split at found
  case h_3 kind =>
    obtain ⟨isName, rfl⟩ := of_ite_some found
    exact .arrow kind isName
  all_goals cases found
  case h_1 kind => exact .assignment (.inl kind)
  case h_2 kind => exact .assignment (.inr kind)

theorem infixNext_cases (next : infixNext t x frames = some s) : InfixNext t x frames s := by
  unfold infixNext at next
  split at next
  case h_1 level found =>
    simp only at next
    split at next <;> cases next
    case isTrue kind => exact .comparison found kind rfl
    case isFalse kind => exact .operator found kind rfl
  case h_2 =>
    obtain ⟨kind, rfl⟩ | ⟨-, ended⟩ := of_ite_some_else next
    · exact .question kind rfl
    · exact .ends ended

theorem operatorNext_cases (next : operatorNext t x frames = some s) :
    OperatorNext t x frames s := by
  unfold operatorNext at next
  split at next
  case h_1 grip => exact .ends grip next
  case h_2 grip => exact .operator (by simp [grip]) (infixNext_cases next)
  all_goals
    rename_i grip
    split at next
    case h_1 found => exact .suffix (by simp [grip]) (suffix?_cases (found.trans next))
    case h_2 =>
    split at next
    case h_1 found =>
      split at found
      case isTrue => cases found
      case isFalse free =>
        exact .binding (by simp [grip]) (Bool.not_eq_true _ ▸ free)
          (binding?_cases (found.trans next))
    case h_2 => exact .operator (by simp [grip]) (infixNext_cases next)

theorem newNext_cases {loc : Location} {callee : Node}
    (next : newNext t loc callee frames = some s) : NewNext t loc callee frames s := by
  unfold newNext at next
  split at next <;> cases next <;> constructor <;> assumption

theorem propertyStart_cases (started : propertyStart t frames = some s) :
    PropertyStart t frames s := by
  unfold propertyStart at started
  split at started <;> cases started <;> constructor <;> assumption

end Expressions

section Statements

/-- What a block completes when its brace is closed. -/
inductive EndBlock (body : Node) : List Frame → State → Prop
  | expression {header params result frames} (isExpression : header.isExpression = true) :
      EndBlock body (.functionBody header params result :: frames)
        (operandState (header.node params body result) header.loc .callable frames)
  | declaration {header params result frames} (isExpression : header.isExpression = false) :
      EndBlock body (.functionBody header params result :: frames)
        ⟨.finished (header.node params body result) false, frames⟩
  | arrow {start params frames} :
      EndBlock body (.arrowBlock start params :: frames)
        (operandState (.arrowFunction start false params body) start .complete frames)
  | statement {frames} (noFunction : ∀ header params result below,
        frames ≠ .functionBody header params result :: below)
      (noArrow : ∀ start params below, frames ≠ .arrowBlock start params :: below) :
      EndBlock body frames ⟨.finished body false, frames⟩

inductive StatementStart (t : Token) : List Frame → State → Prop
  | declaration {frames} (kind : t.kind ∈ declarationKinds) :
      StatementStart t frames ⟨.declaratorName, .declarators t.loc t.text [] :: frames⟩
  | function {frames} (kind : t.kind = .keyword .functionKw) :
      StatementStart t frames ⟨.functionName t.loc false, frames⟩
  | interface {frames} (kind : t.kind = .keyword .interfaceKw) :
      StatementStart t frames ⟨.interfaceName t.loc, frames⟩
  | exported {frames} (kind : t.kind = .keyword .exportKw) :
      StatementStart t frames ⟨.exported t.loc false, frames⟩
  | returned {frames} (kind : t.kind = .keyword .returnKw) :
      StatementStart t frames ⟨.operand, .returned t.loc :: frames⟩
  | thrown {frames} (kind : t.kind = .keyword .throwKw) :
      StatementStart t frames ⟨.operand, .thrown t.loc :: frames⟩
  | breaks {frames} (kind : t.kind = .keyword .breakKw) :
      StatementStart t frames ⟨.terminator (.breakStatement t.loc), frames⟩
  | continues {frames} (kind : t.kind = .keyword .continueKw) :
      StatementStart t frames ⟨.terminator (.continueStatement t.loc), frames⟩
  | ifHeader {frames} (kind : t.kind = .keyword .ifKw) :
      StatementStart t frames ⟨.headerOpen .ifWord t.loc, frames⟩
  | whileHeader {frames} (kind : t.kind = .keyword .whileKw) :
      StatementStart t frames ⟨.headerOpen .whileWord t.loc, frames⟩
  | forHeader {frames} (kind : t.kind = .keyword .forKw) :
      StatementStart t frames ⟨.headerOpen .forWord t.loc, frames⟩
  | block {frames} (kind : t.kind = .leftBrace) :
      StatementStart t frames ⟨.statement, .block t.loc [] :: frames⟩
  | blockEnd {loc done frames s} (kind : t.kind = .rightBrace)
      (ends : EndBlock (.block loc done.reverse) frames s) :
      StatementStart t (.block loc done :: frames) s
  | empty {frames} (kind : t.kind = .terminator) :
      StatementStart t frames ⟨.finished (.emptyStatement t.loc) t.text.isEmpty, frames⟩
  | expression {frames s} (started : operandStart t (.expression :: frames) = some s) :
      StatementStart t frames s

inductive StatementNext (t : Token) (node : Node) (silent : Bool) (frames : List Frame) :
    State → Prop
  | alternate {attached} (kind : t.kind = .keyword .elseKw)
      (isAttached : Frame.attachElse node frames = some attached) :
      StatementNext t node silent frames ⟨.statement, attached⟩
  | next {settled s} (isSettled : Frame.settle node silent frames = some settled)
      (started : statementStart t settled = some s) : StatementNext t node silent frames s

inductive DeclaratorNext (t name : Token) (frames : List Frame) : State → Prop
  | typed (kind : t.kind = .colon) :
      DeclaratorNext t name frames ⟨.typeOperand, .declaratorType name :: frames⟩
  | value (kind : t.kind = .assign) :
      DeclaratorNext t name frames ⟨.operand, .declaratorValue name .absent :: frames⟩
  | ends {s} (noColon : t.kind ≠ .colon)
      (ended : endDeclarator t (declaratorNode name .absent .absent) frames = some s) :
      DeclaratorNext t name frames s

inductive ParamStart (t : Token) : Bool → List Frame → State → Prop
  | name {isFirst frames} (kind : t.kind = .name) : ParamStart t isFirst frames ⟨.param t, frames⟩
  | none {owner done frames} (kind : t.kind = .rightParen) :
      ParamStart t true (.paramList owner done :: frames) (endParams owner done.reverse frames)

inductive ParamNext (t name : Token) (frames : List Frame) : State → Prop
  | typed (kind : t.kind = .colon) :
      ParamNext t name frames ⟨.typeOperand, .paramType name :: frames⟩
  | value (kind : t.kind = .assign) :
      ParamNext t name frames ⟨.operand, .paramDefault name .absent :: frames⟩
  | ends {s} (noColon : t.kind ≠ .colon)
      (ended : endParam t (paramNode name .absent .absent) frames = some s) :
      ParamNext t name frames s

inductive ExportStart (t : Token) (loc : Location) (frames : List Frame) : Bool → State → Prop
  | default (kind : t.kind = .keyword .defaultKw) :
      ExportStart t loc frames false ⟨.exported loc true, frames⟩
  | function {isDefault} (kind : t.kind = .keyword .functionKw) :
      ExportStart t loc frames isDefault
        ⟨.functionName t.loc false, .exported loc isDefault :: frames⟩
  | declaration {isDefault} (kind : t.kind ∈ declarationKinds) :
      ExportStart t loc frames isDefault
        ⟨.declaratorName, .declarators t.loc t.text [] :: .exported loc isDefault :: frames⟩

/-- States that complete a program, and the program. -/
inductive Finish : State → Node → Prop
  | statement {done} : Finish ⟨.statement, [.program done]⟩ (.program .first done.reverse)
  | finished {node silent frames done}
      (isSettled : Frame.settle node silent frames = some [.program done]) :
      Finish ⟨.finished node silent, frames⟩ (.program .first done.reverse)

variable {t : Token} {node : Node} {frames : List Frame} {s : State}

theorem endBlock_cases (body : Node) (frames : List Frame) :
    EndBlock body frames (endBlock body frames) := by
  unfold endBlock
  split
  case h_1 header params result frames =>
    dsimp only
    split
    case isTrue isExpression => exact .expression isExpression
    case isFalse isExpression => exact .declaration (Bool.not_eq_true _ ▸ isExpression)
  case h_2 => exact .arrow
  case h_3 noFunction noArrow => exact .statement noFunction noArrow

theorem statementStart_cases (started : statementStart t frames = some s) :
    StatementStart t frames s := by
  unfold statementStart at started
  split at started
  case h_15 kind =>
    split at started <;> cases started
    exact .blockEnd kind (endBlock_cases ..)
  case h_17 => exact .expression started
  all_goals cases started
  case h_1 kind | h_2 kind | h_3 kind => exact .declaration (by rw [kind]; decide)
  all_goals
    constructor
    assumption

theorem statementNext_cases {silent : Bool} (next : statementNext t node silent frames = some s) :
    StatementNext t node silent frames s := by
  unfold statementNext at next
  split at next
  case isTrue kind =>
    obtain ⟨attached, isAttached, rfl⟩ := Option.map_eq_some_iff.mp next
    exact .alternate kind isAttached
  case isFalse =>
    split at next
    case h_1 isSettled => exact .next isSettled next
    case h_2 => cases next

theorem declaratorNext_cases {name : Token} (next : declaratorNext t name frames = some s) :
    DeclaratorNext t name frames s := by
  unfold declaratorNext at next
  split at next
  case h_3 noColon noAssign => exact .ends noColon next
  all_goals
    cases next
    constructor
    assumption

theorem paramStart_cases {isFirst : Bool} (started : paramStart t isFirst frames = some s) :
    ParamStart t isFirst frames s := by
  unfold paramStart at started
  split at started
  case h_2 kind =>
    obtain ⟨rfl, rfl⟩ := of_ite_some started
    exact .none kind
  all_goals cases started <;> constructor <;> assumption

theorem paramNext_cases {name : Token} (next : paramNext t name frames = some s) :
    ParamNext t name frames s := by
  unfold paramNext at next
  split at next
  case h_3 noColon noAssign => exact .ends noColon next
  all_goals
    cases next
    constructor
    assumption

theorem exportStart_cases {loc : Location} {isDefault : Bool}
    (started : exportStart t loc isDefault frames = some s) :
    ExportStart t loc frames isDefault s := by
  unfold exportStart at started
  split at started
  case h_1 kind =>
    cases isDefault with
    | true => cases started
    | false => cases started; exact .default kind
  all_goals cases started
  case h_2 kind => exact .function kind
  all_goals
    rename_i kind
    exact .declaration (by rw [kind]; decide)

theorem finish?_cases {program : Node} (finished : finish? s = some program) :
    Finish s program := by
  obtain ⟨focus, frames⟩ := s
  unfold finish? at finished
  dsimp only at finished
  split at finished <;> cases finished
  case h_1 done complete =>
    cases focus with
    | statement => cases complete; exact .statement
    | finished node silent => exact .finished complete
    | _ => cases complete

end Statements

end Parse

end TypeGloss
