import TypeGloss.Proofs.Lawful
import TypeGloss.Proofs.TypeTree

/-!
# Every tree that is read fits the grammar

The parser keeps an invariant: the frames fit into each other, and what they hold fits their slots.
Each frame waits for a part of a certain form, and a finished part that fits this form makes the
frame a finished part of the form for which the frame below it waits.
-/

namespace TypeGloss

open Lexeme (IsName IsNumber IsString IsTemplate isWordText)
open Grammar (Form Opening Fits Binder ResultSlot NameSlot Key SpelledKey TypeSlot)

namespace Parse

/-- What a frame waits for. -/
inductive Hole where
  | expression
  | type
  | statement
  /-- A declaration that is exported. -/
  | declared
  /-- The members of a type body. -/
  | member
  /-- The parameters of a function type. -/
  | typeParam
  | property
  | declarator
  | param
  /-- The block of a function. -/
  | body
  deriving DecidableEq, Repr

namespace Frame

/-- What a frame waits for. -/
def hole : Frame → Hole
  | .unary .. | .update .. | .rightOf .. | .conditionElse .. | .assigned .. | .arrowResult ..
  | .conditionThen .. | .sequence .. | .group .. | .index .. | .arguments .. | .elements ..
  | .propertyValue .. | .declaratorValue .. | .paramDefault .. | .expression | .returned ..
  | .thrown .. | .ifTest .. | .whileTest .. | .forInit .. | .forTest .. | .forStep .. => .expression
  | .union .. | .functionResult .. | .typeGroup .. | .typeArguments .. | .memberType ..
  | .typeParam .. | .declaratorType .. | .paramType .. | .resultType .. => .type
  | .program .. | .block .. | .thenBranch .. | .elseBranch .. | .whileBody .. | .forBody .. =>
    .statement
  | .exported .. => .declared
  | .members .. => .member
  | .typeParamList .. => .typeParam
  | .properties .. => .property
  | .declarators .. => .declarator
  | .paramList .. => .param
  | .functionBody .. | .arrowBlock .. => .body

/-- How tightly an expression has to bind to stand in a frame. -/
def tightness : Frame → Nat
  | .unary .. | .update .. => 8
  | .rightOf _ _ _ level => level.rank + 3
  | .group .. | .index .. | .expression | .returned .. | .thrown .. | .ifTest .. | .whileTest ..
  | .forInit .. | .forTest .. | .forStep .. => 0
  | _ => 1

/-- What an expression in a frame must not start with. -/
def opening : Frame → Opening
  | .update .. | .expression | .forTest .. | .forStep .. => .noObjectOrFunction
  | .arrowResult .. => .noObject
  | _ => .any

end Frame

/-- Frames the innermost of which waits for a certain part. -/
def Awaits (hole : Hole) : List Frame → Prop
  | [] => False
  | frame :: _ => frame.hole = hole

/-- How tightly an expression has to bind to stand in the innermost frame. -/
def tightnessOf : List Frame → Nat
  | [] => 0
  | frame :: _ => frame.tightness

/-- What an expression in the innermost frame must not start with. -/
def openingOf : List Frame → Opening
  | [] => .any
  | frame :: _ => frame.opening

/-- Whether a colon follows the expression in the innermost frame and all that ends with it. -/
def colonFollows : List Frame → Bool
  | .conditionThen .. :: _ => true
  | .unary .. :: frames | .update .. :: frames | .rightOf .. :: frames
  | .conditionElse .. :: frames | .assigned .. :: frames | .arrowResult .. :: frames =>
    colonFollows frames
  | _ => false

/-- Whether a sequence may stand in the innermost frame. -/
def takesSequence : List Frame → Bool
  | [] => false
  | frame :: _ => frame.acceptsSequence

/-- Where a function may stand: an expression where one may start with a function, a declaration
where a statement or something to be exported is due. -/
def FunctionPlace (isExpression : Bool) (frames : List Frame) : Prop :=
  if isExpression then Awaits .expression frames ∧ (openingOf frames).allowsFunction = true
  else Awaits .statement frames ∨ Awaits .declared frames

/-- What is known of a function before its parameters are. -/
def HeaderSound (header : Header) (frames : List Frame) : Prop :=
  NameSlot header.name ∧ FunctionPlace header.isExpression frames

/-- The type syntax that is read. -/
abbrev IsTypeTree : TypeSlot → Node → Prop := Grammar.TypeTree (isWordText · = true) SpelledKey

/-- The name of an interface that is read. -/
def IsInterfaceName (node : Node) : Prop :=
  ∃ loc name, node = .identifier loc false name .absent ∧ isWordText name = true

section Invariant

variable (R : Prop)

/-- What a frame holds, and that it stands in the right place, given the frames below it. -/
def Frame.Sound (frames : List Frame) : Frame → Prop
  | .unary _ operator =>
    Awaits .expression frames ∧ tightnessOf frames ≤ 8 ∧ operator ∈ Grammar.unarySigns
  | .update _ operator =>
    Awaits .expression frames ∧ tightnessOf frames ≤ 8 ∧ operator ∈ Grammar.updateSigns
  | .rightOf _ left operator level =>
    Awaits .expression frames ∧ tightnessOf frames ≤ level.rank + 2 ∧
      operator ∈ Grammar.levelSigns level ∧
      Fits (.source R) (.expression (level.rank + 2) (openingOf frames) false) left
  | .conditionElse _ test consequent =>
    Awaits .expression frames ∧ tightnessOf frames ≤ 1 ∧
      Fits (.source R) (.expression 2 (openingOf frames) false) test ∧
      Fits (.source R) (.expression 1 .any true) consequent
  | .assigned _ target operator =>
    Awaits .expression frames ∧ tightnessOf frames ≤ 1 ∧ operator ∈ Grammar.assignSigns ∧
      Fits (.source R) (.expression 10 (openingOf frames) false) target
  | .arrowResult _ params | .arrowBlock _ params =>
    Awaits .expression frames ∧ tightnessOf frames ≤ 1 ∧ ∀ p ∈ params, Fits (.source R) .param p
  | .conditionThen _ test =>
    Awaits .expression frames ∧ tightnessOf frames ≤ 1 ∧
      Fits (.source R) (.expression 2 (openingOf frames) false) test
  | .sequence _ done =>
    Awaits .expression frames ∧ takesSequence frames = true ∧
      ∃ first others, done.reverse = first :: others ∧
        Fits (.source R) (.expression 1 (openingOf frames) false) first ∧
        ∀ e ∈ others, Fits (.source R) (.expression 1 .any false) e
  | .group _ => Awaits .expression frames
  | .index _ value =>
    Awaits .expression frames ∧
      Fits (.source R) (.expression 10 (openingOf frames) false) value
  | .arguments _ callee isNew done =>
    Awaits .expression frames ∧
      Fits (.source R)
        (if isNew then .callee else .expression 10 (openingOf frames) false) callee ∧
      ∀ a ∈ done, Fits (.source R) (.expression 1 .any false) a
  | .elements _ done =>
    Awaits .expression frames ∧ ∀ e ∈ done, Fits (.source R) (.optional 1 .any) e
  | .properties _ done =>
    Awaits .expression frames ∧ (openingOf frames).allowsObject = true ∧
      ∀ p ∈ done, Fits (.source R) .property p
  | .propertyValue _ key => Awaits .property frames ∧ Key key
  | .typeGroup _ => Awaits .type frames
  | .union _ done => Awaits .type frames ∧ ∀ m ∈ done, IsTypeTree .type m
  | .typeArguments _ name done =>
    Awaits .type frames ∧ isWordText name = true ∧ ∀ a ∈ done, IsTypeTree .type a
  | .functionResult _ params | .typeParamList _ params =>
    Awaits .type frames ∧ ∀ p ∈ params, IsTypeTree .binding p
  | .members _ owner done =>
    (match owner with
      | .literal => Awaits .type frames
      | .interface _ name => Awaits .statement frames ∧ IsInterfaceName name) ∧
      ∀ m ∈ done, IsTypeTree .signature m
  | .memberType _ key _ => Awaits .member frames ∧ SpelledKey key
  | .typeParam name => Awaits .typeParam frames ∧ isWordText name.text = true
  | .declarators _ keyword done =>
    (Awaits .statement frames ∨ Awaits .declared frames ∨
        ∃ loc below, frames = .forInit loc :: below) ∧
      keyword ∈ Grammar.declarationWords ∧ ∀ d ∈ done, Fits (.source R) .declarator d
  | .declaratorType name => Awaits .declarator frames ∧ isWordText name.text = true
  | .declaratorValue name typing =>
    Awaits .declarator frames ∧ Binder (.source R) (identifier name typing)
  | .paramList owner done =>
    (match owner with
      | .function header => HeaderSound header frames
      | .arrow _ => Awaits .expression frames ∧ tightnessOf frames ≤ 1) ∧
      ∀ p ∈ done, Fits (.source R) .param p
  | .paramType name => Awaits .param frames ∧ isWordText name.text = true
  | .paramDefault name typing =>
    Awaits .param frames ∧ Binder (.source R) (identifier name typing)
  | .resultType header params =>
    HeaderSound header frames ∧ ∀ p ∈ params, Fits (.source R) .param p
  | .functionBody header params result =>
    HeaderSound header frames ∧ (∀ p ∈ params, Fits (.source R) .param p) ∧
      ResultSlot (.source R) result
  | .program done => frames = [] ∧ ∀ s ∈ done, Fits (.source R) (.statement false) s
  | .block _ done =>
    (Awaits .statement frames ∨ Awaits .body frames) ∧
      ∀ s ∈ done, Fits (.source R) (.statement false) s
  | .expression | .returned _ | .thrown _ | .ifTest _ | .whileTest _ | .forInit _ | .exported .. =>
    Awaits .statement frames
  | .thenBranch _ test | .whileBody _ test =>
    Awaits .statement frames ∧ Fits (.source R) (.expression 0 .any false) test
  | .elseBranch _ test consequent =>
    Awaits .statement frames ∧ Fits (.source R) (.expression 0 .any false) test ∧
      Fits (.source R) (.statement true) consequent
  | .forTest _ initializer =>
    Awaits .statement frames ∧ Fits (.source R) .initializer initializer
  | .forStep _ initializer test =>
    Awaits .statement frames ∧ Fits (.source R) .initializer initializer ∧
      Fits (.source R) (.optional 0 .noObjectOrFunction) test
  | .forBody _ initializer test step =>
    Awaits .statement frames ∧ Fits (.source R) .initializer initializer ∧
      Fits (.source R) (.optional 0 .noObjectOrFunction) test ∧
      Fits (.source R) (.optional 0 .noObjectOrFunction) step

/-- Frames that fit into each other. -/
def FramesSound : List Frame → Prop
  | [] => True
  | frame :: frames => frame.Sound R frames ∧ FramesSound frames

/-- What the kind before an operand says about the frame in which the operand stands. -/
structure Leads (frames : List Frame) (last : Option TokenKind) : Prop where
  object : ∀ k, last = some k → k.precedesExpression = true ∨ k = .bar →
    (openingOf frames).allowsObject = true
  function : ∀ k, last = some k → k.precedesExpression = true ∨ k = .arrow →
    (openingOf frames).allowsFunction = true
  noPoint : last ≠ some .dot
  /-- Before a colon, only two operators can have a reserved word behind them. -/
  key : colonFollows frames = true → ∀ k, last = some k → Token.precedesKey k = false ∧
    (Token.endsTypeOnly k = true →
      (∃ loc below, frames = .unary loc Grammar.voidWord :: below) ∨
      ∃ start left below, frames = .rightOf start left Grammar.greaterSign .relational :: below)

/-- What the kind before a statement is not. -/
structure StatementLead (last : Option TokenKind) : Prop where
  expression : ∀ k, last = some k → k.precedesExpression = false
  other : ∀ k, last = some k → k ≠ .bar ∧ k ≠ .arrow ∧ k ≠ .dot

/-- How tightly an expression with a grip binds. -/
def Grip.tightness : Grip → Nat
  | .name | .callable => 10
  | .operand => 9
  | .complete => 1

/-- What is known of an expression that was read. It fits its place, or it is a reserved word before
a colon. -/
def Operand.Sound (x : Operand) (frames : List Frame) (rest : List Token) : Prop :=
  (Fits (.source R) (.expression x.grip.tightness (openingOf frames) false) x.node ∧
    (x.grip = .complete → tightnessOf frames ≤ 1) ∧
    (x.grip = .name → Binder (.source R) x.node)) ∨
  (R ∧ (∃ t, rest.head? = some t ∧ t.kind = .colon) ∧
    (∃ loc name, x.node = .identifier loc false name .absent ∧ isWordText name = true) ∧
    ((∃ loc below, frames = .unary loc Grammar.voidWord :: below) ∨
      ∃ start left below, frames = .rightOf start left Grammar.greaterSign .relational :: below))

/-- What is known of a name before it is known whether it has an annotation. -/
def NameSound (name : Token) (rest : List Token) : Prop :=
  isWordText name.text = true ∧ (IsName name.text ∨ Token.keyFollows rest = true)

/-- What is known where something is due, given the kind before and the tokens behind. -/
def Focus.Sound (last : Option TokenKind) (rest : List Token) (frames : List Frame) : Focus → Prop
  | .statement => Awaits .statement frames ∧ StatementLead last
  | .finished node _ =>
    StatementLead last ∧
      ((Awaits .statement frames ∧ Fits (.source R) (.statement true) node) ∨
        (Awaits .declared frames ∧ Fits (.source R) .declared node))
  | .operand => Awaits .expression frames ∧ Leads frames last
  | .operator x => Awaits .expression frames ∧ x.Sound R frames rest
  | .comparison left sign =>
    Awaits .expression frames ∧ tightnessOf frames ≤ 5 ∧
      Fits (.source R) (.expression 5 (openingOf frames) false) left.node ∧
      ((last = some .less ∧ sign = "<") ∨ (last = some .greater ∧ sign = ">"))
  | .selector x =>
    Awaits .expression frames ∧ Fits (.source R) (.expression 10 (openingOf frames) false) x.node
  | .newName _ => Awaits .expression frames ∧ last = some (.keyword .newKw)
  | .newCallee _ callee | .newSelector _ callee =>
    Awaits .expression frames ∧ Fits (.source R) .callee callee
  | .property => Awaits .property frames ∧ last ≠ some .dot
  | .propertyName name => Awaits .property frames ∧ NameSound name rest
  | .propertyColon key => Awaits .property frames ∧ Key key
  | .arrowSign _ params =>
    Awaits .expression frames ∧ tightnessOf frames ≤ 1 ∧ ∀ p ∈ params, Fits (.source R) .param p
  | .arrowBody _ params =>
    Awaits .expression frames ∧ tightnessOf frames ≤ 1 ∧ (∀ p ∈ params, Fits (.source R) .param p) ∧
      last = some .arrow
  | .typeOperand => Awaits .type frames
  | .typeOperator x =>
    Awaits .type frames ∧ IsTypeTree .type x.node ∧
      ∀ name, x.bare = some name → isWordText name = true
  | .arrayEnd x => Awaits .type frames ∧ IsTypeTree .type x.node
  | .typeArrow _ params => Awaits .type frames ∧ ∀ p ∈ params, IsTypeTree .binding p
  | .typeParamName _ => Awaits .typeParam frames
  | .typeParamColon name => Awaits .typeParam frames ∧ isWordText name.text = true
  | .member => Awaits .member frames
  | .memberKey _ key | .memberColon _ key => Awaits .member frames ∧ SpelledKey key
  | .declaratorName => Awaits .declarator frames ∧ last ≠ some .dot
  | .declarator name => Awaits .declarator frames ∧ NameSound name rest
  | .functionName _ isExpression =>
    FunctionPlace isExpression frames ∧
      (last = some (.keyword .functionKw) ∨ last = some .functionExpr)
  | .functionParams header => HeaderSound header frames
  | .paramName _ => Awaits .param frames ∧ last ≠ some .dot
  | .param name => Awaits .param frames ∧ NameSound name rest
  | .functionTail header params =>
    HeaderSound header frames ∧ ∀ p ∈ params, Fits (.source R) .param p
  | .interfaceBody _ name => Awaits .statement frames ∧ IsInterfaceName name
  | .interfaceName _ | .headerOpen .. | .exported .. => Awaits .statement frames
  | .terminator node => Awaits .statement frames ∧ Fits (.source R) (.statement true) node

/-- What is known between two tokens. -/
def State.Sound (last : Option TokenKind) (rest : List Token) (s : State) : Prop :=
  FramesSound R s.frames ∧ s.focus.Sound R last rest s.frames

end Invariant

end Parse

end TypeGloss
