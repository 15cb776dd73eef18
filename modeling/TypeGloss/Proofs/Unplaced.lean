import TypeGloss.Proofs.Syntax
import TypeGloss.Source.Read

/-!
# Locations do not matter

The unplaced form of a token, a tree or a parser state has the same synthetic location everywhere.
The parser never looks at a location, so it reads the unplaced form of tokens as the unplaced form
of what it reads from the tokens themselves. Trees are equal up to locations when their unplaced
forms are equal.
-/

namespace TypeGloss

namespace Node

mutual

/-- The tree with a synthetic location at every node. -/
@[simp] def unplaced : Node → Node
  | .absent => .absent
  | .keywordType _ keyword => .keywordType .synthetic keyword
  | .typeReference _ name arguments => .typeReference .synthetic name (unplacedAll arguments)
  | .unionType _ members => .unionType .synthetic (unplacedAll members)
  | .arrayType _ element => .arrayType .synthetic (unplaced element)
  | .propertySignature _ key type optional =>
    .propertySignature .synthetic key (unplaced type) optional
  | .typeLiteral _ members => .typeLiteral .synthetic (unplacedAll members)
  | .functionType _ params result => .functionType .synthetic (unplacedAll params) (unplaced result)
  | .identifier _ wrapped name typing => .identifier .synthetic wrapped name (unplaced typing)
  | .number _ wrapped raw => .number .synthetic wrapped raw
  | .string _ wrapped raw => .string .synthetic wrapped raw
  | .boolean _ wrapped value => .boolean .synthetic wrapped value
  | .null _ wrapped => .null .synthetic wrapped
  | .template _ wrapped raw => .template .synthetic wrapped raw
  | .this _ wrapped => .this .synthetic wrapped
  | .array _ wrapped elements => .array .synthetic wrapped (unplacedAll elements)
  | .property _ key value shorthand =>
    .property .synthetic (unplaced key) (unplaced value) shorthand
  | .object _ wrapped properties => .object .synthetic wrapped (unplacedAll properties)
  | .defaultParam _ target value => .defaultParam .synthetic (unplaced target) (unplaced value)
  | .functionExpression _ wrapped name params body result =>
    .functionExpression .synthetic wrapped (unplaced name) (unplacedAll params) (unplaced body)
      (unplaced result)
  | .arrowFunction _ wrapped params body =>
    .arrowFunction .synthetic wrapped (unplacedAll params) (unplaced body)
  | .unary _ wrapped operator argument => .unary .synthetic wrapped operator (unplaced argument)
  | .update _ wrapped operator leading argument =>
    .update .synthetic wrapped operator leading (unplaced argument)
  | .binary _ wrapped operator left right =>
    .binary .synthetic wrapped operator (unplaced left) (unplaced right)
  | .logical _ wrapped operator left right =>
    .logical .synthetic wrapped operator (unplaced left) (unplaced right)
  | .assignment _ wrapped operator left right =>
    .assignment .synthetic wrapped operator (unplaced left) (unplaced right)
  | .conditional _ wrapped test consequent alternate =>
    .conditional .synthetic wrapped (unplaced test) (unplaced consequent) (unplaced alternate)
  | .call _ wrapped callee arguments =>
    .call .synthetic wrapped (unplaced callee) (unplacedAll arguments)
  | .construction _ wrapped callee arguments =>
    .construction .synthetic wrapped (unplaced callee) (unplacedAll arguments)
  | .member _ wrapped value selector computed =>
    .member .synthetic wrapped (unplaced value) (unplaced selector) computed
  | .sequence _ wrapped expressions => .sequence .synthetic wrapped (unplacedAll expressions)
  | .declarator _ name initializer => .declarator .synthetic (unplaced name) (unplaced initializer)
  | .variableDeclaration _ keyword declarators =>
    .variableDeclaration .synthetic keyword (unplacedAll declarators)
  | .block _ body => .block .synthetic (unplacedAll body)
  | .functionDeclaration _ name params body result =>
    .functionDeclaration .synthetic (unplaced name) (unplacedAll params) (unplaced body)
      (unplaced result)
  | .interfaceDeclaration _ name members =>
    .interfaceDeclaration .synthetic (unplaced name) (unplacedAll members)
  | .returnStatement _ argument => .returnStatement .synthetic (unplaced argument)
  | .throwStatement _ argument => .throwStatement .synthetic (unplaced argument)
  | .breakStatement _ => .breakStatement .synthetic
  | .continueStatement _ => .continueStatement .synthetic
  | .emptyStatement _ => .emptyStatement .synthetic
  | .expressionStatement _ expression => .expressionStatement .synthetic (unplaced expression)
  | .ifStatement _ test consequent alternate =>
    .ifStatement .synthetic (unplaced test) (unplaced consequent) (unplaced alternate)
  | .whileStatement _ test body => .whileStatement .synthetic (unplaced test) (unplaced body)
  | .forStatement _ initializer test step body =>
    .forStatement .synthetic (unplaced initializer) (unplaced test) (unplaced step) (unplaced body)
  | .exportNamed _ declaration => .exportNamed .synthetic (unplaced declaration)
  | .exportDefault _ declaration => .exportDefault .synthetic (unplaced declaration)
  | .program _ body => .program .synthetic (unplacedAll body)

/-- The unplaced forms of trees. -/
def unplacedAll : List Node → List Node
  | [] => []
  | node :: rest => unplaced node :: unplacedAll rest

end

@[simp] theorem unplacedAll_eq_map (nodes : List Node) :
    unplacedAll nodes = nodes.map unplaced := by
  induction nodes with
  | nil => rfl
  | cons node rest ih => rw [unplacedAll, ih, List.map_cons]

@[simp] theorem isAbsent_unplaced (node : Node) : node.unplaced.isAbsent = node.isAbsent := by
  cases node <;> rfl

@[simp] theorem loc_unplaced (node : Node) : node.unplaced.loc = .synthetic := by
  cases node <;> rfl

@[simp] theorem unplaced_unplaced (root : Node) : root.unplaced.unplaced = root.unplaced := by
  induction root using slots_induction with
  | node root ih => cases root <;> simp_all [slots]

@[simp] theorem wrap_unplaced (node : Node) : node.unplaced.wrap = node.wrap.unplaced := by
  cases node <;> rfl

end Node

/-- The token with a synthetic location. -/
def Token.unplaced (t : Token) : Token := { t with loc := .synthetic }

@[simp] theorem Token.unplaced_kind (t : Token) : t.unplaced.kind = t.kind := rfl

@[simp] theorem Token.unplaced_text (t : Token) : t.unplaced.text = t.text := rfl

@[simp] theorem Token.unplaced_loc (t : Token) : t.unplaced.loc = .synthetic := rfl

@[simp] theorem Token.unplaced_retype (t : Token) (kind : TokenKind) :
    (t.retype kind).unplaced = t.unplaced.retype kind := rfl

namespace Parse

/-- The operand with synthetic locations. -/
@[simp] def Operand.unplaced (x : Operand) : Operand := ⟨x.node.unplaced, .synthetic, x.grip⟩

/-- The type with synthetic locations. -/
@[simp] def TypeOperand.unplaced (x : TypeOperand) : TypeOperand :=
  ⟨x.node.unplaced, .synthetic, x.bare⟩

/-- The header with synthetic locations. -/
@[simp] def Header.unplaced (header : Header) : Header :=
  ⟨.synthetic, header.isExpression, header.name.unplaced⟩

/-- The owner with synthetic locations. -/
@[simp] def ParamOwner.unplaced : ParamOwner → ParamOwner
  | .function header => .function header.unplaced
  | .arrow _ => .arrow .synthetic

/-- The owner with synthetic locations. -/
@[simp] def MemberOwner.unplaced : MemberOwner → MemberOwner
  | .literal => .literal
  | .interface _ name => .interface .synthetic name.unplaced

/-- The frame with synthetic locations. -/
@[simp] def Frame.unplaced : Frame → Frame
  | .unary _ operator => .unary .synthetic operator
  | .update _ operator => .update .synthetic operator
  | .rightOf _ left operator level => .rightOf .synthetic left.unplaced operator level
  | .conditionElse _ test consequent =>
    .conditionElse .synthetic test.unplaced consequent.unplaced
  | .assigned _ target operator => .assigned .synthetic target.unplaced operator
  | .arrowResult _ params => .arrowResult .synthetic (params.map Node.unplaced)
  | .conditionThen _ test => .conditionThen .synthetic test.unplaced
  | .sequence _ done => .sequence .synthetic (done.map Node.unplaced)
  | .group _ => .group .synthetic
  | .index _ value => .index .synthetic value.unplaced
  | .arguments _ callee isNew done =>
    .arguments .synthetic callee.unplaced isNew (done.map Node.unplaced)
  | .elements _ done => .elements .synthetic (done.map Node.unplaced)
  | .properties _ done => .properties .synthetic (done.map Node.unplaced)
  | .propertyValue _ key => .propertyValue .synthetic key.unplaced
  | .union _ done => .union .synthetic (done.map Node.unplaced)
  | .functionResult _ params => .functionResult .synthetic (params.map Node.unplaced)
  | .typeGroup _ => .typeGroup .synthetic
  | .typeArguments _ name done => .typeArguments .synthetic name (done.map Node.unplaced)
  | .members _ owner done => .members .synthetic owner.unplaced (done.map Node.unplaced)
  | .memberType _ key optional => .memberType .synthetic key optional
  | .typeParamList _ done => .typeParamList .synthetic (done.map Node.unplaced)
  | .typeParam name => .typeParam name.unplaced
  | .declarators _ keyword done => .declarators .synthetic keyword (done.map Node.unplaced)
  | .declaratorType name => .declaratorType name.unplaced
  | .declaratorValue name typing => .declaratorValue name.unplaced typing.unplaced
  | .paramList owner done => .paramList owner.unplaced (done.map Node.unplaced)
  | .paramType name => .paramType name.unplaced
  | .paramDefault name typing => .paramDefault name.unplaced typing.unplaced
  | .resultType header params => .resultType header.unplaced (params.map Node.unplaced)
  | .functionBody header params result =>
    .functionBody header.unplaced (params.map Node.unplaced) result.unplaced
  | .arrowBlock _ params => .arrowBlock .synthetic (params.map Node.unplaced)
  | .program done => .program (done.map Node.unplaced)
  | .block _ done => .block .synthetic (done.map Node.unplaced)
  | .expression => .expression
  | .returned _ => .returned .synthetic
  | .thrown _ => .thrown .synthetic
  | .ifTest _ => .ifTest .synthetic
  | .thenBranch _ test => .thenBranch .synthetic test.unplaced
  | .elseBranch _ test consequent => .elseBranch .synthetic test.unplaced consequent.unplaced
  | .whileTest _ => .whileTest .synthetic
  | .whileBody _ test => .whileBody .synthetic test.unplaced
  | .forInit _ => .forInit .synthetic
  | .forTest _ initializer => .forTest .synthetic initializer.unplaced
  | .forStep _ initializer test => .forStep .synthetic initializer.unplaced test.unplaced
  | .forBody _ initializer test step =>
    .forBody .synthetic initializer.unplaced test.unplaced step.unplaced
  | .exported _ isDefault => .exported .synthetic isDefault

/-- The focus with synthetic locations. -/
@[simp] def Focus.unplaced : Focus → Focus
  | .statement => .statement
  | .finished node silent => .finished node.unplaced silent
  | .operand => .operand
  | .operator x => .operator x.unplaced
  | .comparison left sign => .comparison left.unplaced sign
  | .selector value => .selector value.unplaced
  | .newName _ => .newName .synthetic
  | .newCallee _ callee => .newCallee .synthetic callee.unplaced
  | .newSelector _ callee => .newSelector .synthetic callee.unplaced
  | .property => .property
  | .propertyName name => .propertyName name.unplaced
  | .propertyColon key => .propertyColon key.unplaced
  | .arrowSign _ params => .arrowSign .synthetic (params.map Node.unplaced)
  | .arrowBody _ params => .arrowBody .synthetic (params.map Node.unplaced)
  | .typeOperand => .typeOperand
  | .typeOperator x => .typeOperator x.unplaced
  | .arrayEnd x => .arrayEnd x.unplaced
  | .typeParamName isFirst => .typeParamName isFirst
  | .typeParamColon name => .typeParamColon name.unplaced
  | .typeArrow _ params => .typeArrow .synthetic (params.map Node.unplaced)
  | .member => .member
  | .memberKey _ key => .memberKey .synthetic key
  | .memberColon _ key => .memberColon .synthetic key
  | .declaratorName => .declaratorName
  | .declarator name => .declarator name.unplaced
  | .functionName _ isExpression => .functionName .synthetic isExpression
  | .functionParams header => .functionParams header.unplaced
  | .paramName isFirst => .paramName isFirst
  | .param name => .param name.unplaced
  | .functionTail header params => .functionTail header.unplaced (params.map Node.unplaced)
  | .interfaceName _ => .interfaceName .synthetic
  | .interfaceBody _ name => .interfaceBody .synthetic name.unplaced
  | .headerOpen word _ => .headerOpen word .synthetic
  | .exported _ isDefault => .exported .synthetic isDefault
  | .terminator node => .terminator node.unplaced

/-- The state with synthetic locations. -/
@[simp] def State.unplaced (s : State) : State :=
  ⟨s.focus.unplaced, s.frames.map Frame.unplaced⟩

@[simp] theorem State.unplaced_mk (focus : Focus) (frames : List Frame) :
    (State.mk focus frames).unplaced = ⟨focus.unplaced, frames.map Frame.unplaced⟩ := rfl

@[simp] theorem unplaced_identifier (name : Token) (typing : Node) :
    (identifier name typing).unplaced = identifier name.unplaced typing.unplaced := rfl

@[simp] theorem Level.unplaced_node (level : Level) (loc : Location) (operator : Text)
    (left right : Node) :
    (level.node loc operator left right).unplaced =
      level.node .synthetic operator left.unplaced right.unplaced := by
  cases level <;> rfl

namespace Frame

@[simp] theorem awaitsOperand_unplaced (frames : List Frame) :
    awaitsOperand (frames.map unplaced) = awaitsOperand frames := by
  cases frames with
  | nil => rfl
  | cons frame frames => cases frame <;> rfl

/-- A finished operand, its start and the frames left over, with synthetic locations. -/
def unplacedResult (result : Node × Location × List Frame) : Node × Location × List Frame :=
  (result.1.unplaced, .synthetic, result.2.2.map unplaced)

theorem closeTighter_unplaced (level : Level) (frames : List Frame) :
    ∀ (node : Node) (start : Location),
      closeTighter level node.unplaced .synthetic (frames.map unplaced) =
        unplacedResult (closeTighter level node start frames) := by
  induction frames with
  | nil => exact fun node start => rfl
  | cons frame frames ih =>
    intro node start
    cases frame with
    | unary loc operator => exact ih (.unary loc false operator node) loc
    | update loc operator => exact ih (.update loc false operator true node) loc
    | rightOf leftStart left operator inner =>
      have closed := ih (inner.node leftStart operator left node) leftStart
      simp only [List.map_cons, unplaced, closeTighter]
      by_cases tighter : level.rank ≤ inner.rank
      · simp only [if_pos tighter]
        rw [← closed, Level.unplaced_node]
      · simp only [if_neg tighter]
        rfl
    | _ => rfl

theorem close_unplaced (frames : List Frame) :
    ∀ (node : Node) (start : Location),
      close node.unplaced .synthetic (frames.map unplaced) =
        unplacedResult (close node start frames) := by
  induction frames with
  | nil => exact fun node start => rfl
  | cons frame frames ih =>
    intro node start
    cases frame with
    | unary loc operator => exact ih (.unary loc false operator node) loc
    | update loc operator => exact ih (.update loc false operator true node) loc
    | rightOf leftStart left operator level =>
      simp only [List.map_cons, unplaced, close]
      rw [← ih (level.node leftStart operator left node) leftStart, Level.unplaced_node]
    | conditionElse testStart test consequent =>
      exact ih (.conditional testStart false test consequent node) testStart
    | assigned targetStart target operator =>
      exact ih (.assignment targetStart false operator target node) targetStart
    | arrowResult arrowStart params =>
      have closed := ih (.arrowFunction arrowStart false params node) arrowStart
      simp only [List.map_cons, unplaced, close]
      rw [← closed, Node.unplaced, Node.unplacedAll_eq_map]
    | _ => rfl

theorem closeType_unplaced (frames : List Frame) :
    ∀ node : Node,
      closeType node.unplaced (frames.map unplaced) =
        ((closeType node frames).1.unplaced, (closeType node frames).2.map unplaced) := by
  induction frames with
  | nil => exact fun node => rfl
  | cons frame frames ih =>
    intro node
    cases frame with
    | union start done =>
      simp only [List.map_cons, unplaced, closeType]
      rw [← ih, Node.unplaced, Node.unplacedAll_eq_map, List.map_reverse, List.map_cons]
    | functionResult loc params =>
      simp only [List.map_cons, unplaced, closeType]
      rw [← ih, Node.unplaced, Node.unplacedAll_eq_map]
    | _ => rfl

@[simp] theorem unplaced_exportNode (isDefault : Bool) (loc : Location) (declaration : Node) :
    (exportNode isDefault loc declaration).unplaced =
      exportNode isDefault .synthetic declaration.unplaced := by
  cases isDefault <;> rfl

theorem settle_unplaced (frames : List Frame) :
    ∀ (statement : Node) (silent : Bool),
      settle statement.unplaced silent (frames.map unplaced) =
        (settle statement silent frames).map (·.map unplaced) := by
  induction frames with
  | nil => exact fun statement silent => rfl
  | cons frame frames ih =>
    intro statement silent
    cases frame with
    | program done => cases silent <;> rfl
    | block loc done => cases silent <;> rfl
    | thenBranch loc test => exact ih (.ifStatement loc test statement .absent) false
    | elseBranch loc test consequent => exact ih (.ifStatement loc test consequent statement) false
    | whileBody loc test => exact ih (.whileStatement loc test statement) false
    | forBody loc initializer test step =>
      exact ih (.forStatement loc initializer test step statement) false
    | exported loc isDefault =>
      simp only [List.map_cons, unplaced, settle]
      rw [← ih, unplaced_exportNode]
    | _ => rfl

theorem attachElse_unplaced (frames : List Frame) :
    ∀ statement : Node,
      attachElse statement.unplaced (frames.map unplaced) =
        (attachElse statement frames).map (·.map unplaced) := by
  induction frames with
  | nil => exact fun statement => rfl
  | cons frame frames ih =>
    intro statement
    cases frame with
    | elseBranch loc test consequent => exact ih (.ifStatement loc test consequent statement)
    | whileBody loc test => exact ih (.whileStatement loc test statement)
    | forBody loc initializer test step =>
      exact ih (.forStatement loc initializer test step statement)
    | exported loc isDefault =>
      simp only [List.map_cons, unplaced, attachElse]
      rw [← ih, unplaced_exportNode]
    | _ => rfl

end Frame

variable (t : Token) (frames : List Frame)

@[simp] theorem Operand.unplaced_grip (x : Operand) : x.unplaced.grip = x.grip := rfl

theorem endDeclarators_unplaced (declaration : Node) :
    endDeclarators declaration.unplaced (frames.map Frame.unplaced) =
      (endDeclarators declaration frames).unplaced := by
  cases frames with
  | nil => rfl
  | cons frame frames => cases frame <;> rfl

theorem endDeclarator_unplaced (declarator : Node) :
    endDeclarator t.unplaced declarator.unplaced (frames.map Frame.unplaced) =
      (endDeclarator t declarator frames).map State.unplaced := by
  cases frames with
  | nil => rfl
  | cons frame frames =>
    cases frame with
    | declarators loc keyword done =>
      simp only [List.map_cons, Frame.unplaced, endDeclarator, Token.unplaced_kind]
      split
      · rfl
      · rw [Option.map_some, ← endDeclarators_unplaced]
        simp
      · rfl
    | _ => rfl

theorem endParam_unplaced (param : Node) :
    endParam t.unplaced param.unplaced (frames.map Frame.unplaced) =
      (endParam t param frames).map State.unplaced := by
  cases frames with
  | nil => rfl
  | cons frame frames =>
    cases frame with
    | paramList owner done =>
      simp only [List.map_cons, Frame.unplaced, endParam, Token.unplaced_kind]
      split
      · rfl
      · cases owner <;> simp [endParams]
      · rfl
    | _ => rfl

theorem openBody_unplaced (header : Header) (params : List Node) (result : Node) :
    openBody t.unplaced header.unplaced (params.map Node.unplaced) result.unplaced
        (frames.map Frame.unplaced) =
      (openBody t header params result frames).map State.unplaced := by
  unfold openBody
  rw [Token.unplaced_kind, apply_ite (Option.map State.unplaced)]
  rfl

theorem endMembers_unplaced :
    endMembers (frames.map Frame.unplaced) = (endMembers frames).map State.unplaced := by
  cases frames with
  | nil => rfl
  | cons frame frames =>
    cases frame with
    | members loc owner done =>
      cases owner <;> simp [endMembers]
    | _ => rfl

theorem endMember_unplaced (member : Node) :
    endMember t.unplaced member.unplaced (frames.map Frame.unplaced) =
      (endMember t member frames).map State.unplaced := by
  cases frames with
  | nil => rfl
  | cons frame frames =>
    cases frame with
    | members loc owner done =>
      simp only [List.map_cons, Frame.unplaced, endMember, Token.unplaced_kind]
      split
      · rfl
      · rfl
      · rw [← endMembers_unplaced]
        rfl
      · rfl
    | _ => rfl

@[simp] theorem namedType_unplaced (loc : Location) (name : Text) (arguments : List Node) :
    (namedType loc name arguments).unplaced =
      namedType .synthetic name (arguments.map Node.unplaced) := by
  simp only [namedType, List.isEmpty_map]
  split <;> simp

theorem paramNode_unplaced (name : Token) (typing value : Node) :
    (paramNode name typing value).unplaced =
      paramNode name.unplaced typing.unplaced value.unplaced := by
  simp only [paramNode, Node.isAbsent_unplaced]
  split <;> rfl

theorem deliverType_unplaced (type : Node) :
    deliverType t.unplaced type.unplaced (frames.map Frame.unplaced) =
      (deliverType t type frames).map State.unplaced := by
  cases frames with
  | nil => rfl
  | cons frame frames =>
    cases frame with
    | typeGroup loc =>
      simp only [List.map_cons, Frame.unplaced, deliverType, Token.unplaced_kind,
        apply_ite (Option.map State.unplaced)]
      rfl
    | typeArguments loc name done =>
      simp only [List.map_cons, Frame.unplaced, deliverType, Token.unplaced_kind]
      split
      · rfl
      · simp
      · rfl
    | memberType loc key optional =>
      exact endMember_unplaced t frames (.propertySignature loc key type optional)
    | typeParam name =>
      cases frames with
      | nil => rfl
      | cons frame frames =>
        cases frame with
        | typeParamList loc done =>
          simp only [List.map_cons, Frame.unplaced, deliverType, Token.unplaced_kind]
          split
          · rfl
          · simp
          · rfl
        | _ => rfl
    | declaratorType name =>
      simp only [List.map_cons, Frame.unplaced, deliverType, Token.unplaced_kind,
        apply_ite (Option.map State.unplaced)]
      rw [← endDeclarator_unplaced]
      rfl
    | paramType name =>
      simp only [List.map_cons, Frame.unplaced, deliverType, Token.unplaced_kind,
        apply_ite (Option.map State.unplaced)]
      rw [← endParam_unplaced, paramNode_unplaced]
      rfl
    | resultType header params => exact openBody_unplaced t frames _ _ _
    | _ => rfl

theorem typeStart_unplaced :
    typeStart t.unplaced (frames.map Frame.unplaced) = (typeStart t frames).map State.unplaced := by
  simp only [typeStart, Token.unplaced_kind]
  split <;> simp

theorem typeNext_unplaced (x : TypeOperand) :
    typeNext t.unplaced x.unplaced (frames.map Frame.unplaced) =
      (typeNext t x frames).map State.unplaced := by
  simp only [typeNext, Token.unplaced_kind, TypeOperand.unplaced]
  split
  · rfl
  · rfl
  · cases frames with
    | nil => rfl
    | cons frame frames => cases frame <;> rfl
  · rw [Frame.closeType_unplaced]
    exact deliverType_unplaced t _ _

theorem typeParamStart_unplaced (isFirst : Bool) :
    typeParamStart t.unplaced isFirst (frames.map Frame.unplaced) =
      (typeParamStart t isFirst frames).map State.unplaced := by
  obtain ⟨kind, text, loc⟩ := t
  cases kind with
  | rightParen =>
    cases frames with
    | nil => rfl
    | cons frame frames =>
      cases frame with
      | typeParamList loc done =>
        cases isFirst <;> simp [typeParamStart, Token.unplaced]
      | _ => rfl
  | _ => rfl

theorem memberStart_unplaced :
    memberStart t.unplaced (frames.map Frame.unplaced) =
      (memberStart t frames).map State.unplaced := by
  simp only [memberStart, Token.unplaced_kind]
  split
  · rfl
  · rfl
  · rfl
  · exact endMembers_unplaced frames
  · rfl

theorem memberNext_unplaced (loc : Location) (key : MemberKey) :
    memberNext t.unplaced .synthetic key (frames.map Frame.unplaced) =
      (memberNext t loc key frames).map State.unplaced := by
  simp only [memberNext, Token.unplaced_kind]
  split <;> rfl

@[simp] theorem callNode_unplaced (isNew : Bool) (start : Location) (callee : Node)
    (arguments : List Node) :
    (callNode isNew start callee arguments).unplaced =
      callNode isNew .synthetic callee.unplaced (arguments.map Node.unplaced) := by
  cases isNew <;> simp [callNode]

theorem atom?_unplaced :
    atom? t.unplaced = (atom? t).map fun found => (found.1.unplaced, found.2) := by
  simp only [atom?, Token.unplaced_kind]
  split <;> rfl

theorem opening?_unplaced :
    opening? t.unplaced =
      (opening? t).map fun found => (found.1.unplaced, found.2.map Frame.unplaced) := by
  simp only [opening?, Token.unplaced_kind]
  split <;> rfl

theorem omission?_unplaced :
    omission? t.unplaced (frames.map Frame.unplaced) =
      (omission? t frames).map State.unplaced := by
  cases frames with
  | nil => rfl
  | cons frame frames =>
    cases frame with
    | arguments start callee isNew done =>
      cases done with
      | nil =>
        by_cases kind : t.kind = .rightParen <;> simp [omission?, operandState, kind]
      | cons argument done => rfl
    | elements loc done =>
      simp only [List.map_cons, Frame.unplaced, omission?, Token.unplaced_kind]
      split
      · rfl
      · simp [operandState]
      · rfl
    | forInit loc =>
      simp only [List.map_cons, Frame.unplaced, omission?, Token.unplaced_kind]
      split <;> rfl
    | returned loc | forTest loc initializer | forStep loc initializer test =>
      simp only [List.map_cons, Frame.unplaced, omission?, Token.unplaced_kind,
        apply_ite (Option.map State.unplaced)]
      rfl
    | _ => rfl

theorem operandStart_unplaced :
    operandStart t.unplaced (frames.map Frame.unplaced) =
      (operandStart t frames).map State.unplaced := by
  simp only [operandStart, atom?_unplaced, opening?_unplaced, omission?_unplaced,
    Frame.awaitsOperand_unplaced, Token.unplaced_kind]
  cases atom? t with
  | some found => rfl
  | none =>
    cases opening? t with
    | some found => simp
    | none =>
      simp only [Option.map_none, apply_ite (Option.map State.unplaced)]
      rfl

theorem endProperty_unplaced (property : Node) :
    endProperty t.unplaced property.unplaced (frames.map Frame.unplaced) =
      (endProperty t property frames).map State.unplaced := by
  cases frames with
  | nil => rfl
  | cons frame frames =>
    cases frame with
    | properties loc done =>
      simp only [List.map_cons, Frame.unplaced, endProperty, Token.unplaced_kind]
      split
      · rfl
      · simp [operandState]
      · rfl
    | _ => rfl

theorem deliverItem_unplaced (node : Node) (start : Location) :
    deliverItem t.unplaced node.unplaced .synthetic (frames.map Frame.unplaced) =
      (deliverItem t node start frames).map State.unplaced := by
  cases frames with
  | nil => rfl
  | cons frame frames =>
    cases frame with
    | propertyValue loc key => exact endProperty_unplaced t frames (.property loc key node false)
    | declaratorValue name typing =>
      exact endDeclarator_unplaced t frames (declaratorNode name typing node)
    | paramDefault name typing =>
      simp only [List.map_cons, Frame.unplaced, deliverItem]
      rw [← endParam_unplaced, paramNode_unplaced]
    | _ => rfl

theorem endSequence_unplaced (node : Node) (start : Location) :
    endSequence node.unplaced .synthetic (frames.map Frame.unplaced) =
      Frame.unplacedResult (endSequence node start frames) := by
  cases frames with
  | nil => rfl
  | cons frame frames =>
    cases frame with
    | sequence seqStart done =>
      simp [endSequence, Frame.unplacedResult]
    | _ => rfl

theorem deliverLast_unplaced (node : Node) (start : Location) :
    deliverLast t.unplaced node.unplaced .synthetic (frames.map Frame.unplaced) =
      (deliverLast t node start frames).map State.unplaced := by
  cases frames with
  | nil => rfl
  | cons frame frames =>
    cases frame with
    | propertyValue loc key => exact endProperty_unplaced t frames (.property loc key node false)
    | declaratorValue name typing =>
      exact endDeclarator_unplaced t frames (declaratorNode name typing node)
    | paramDefault name typing =>
      simp only [List.map_cons, Frame.unplaced, deliverLast]
      rw [← endParam_unplaced, paramNode_unplaced]
    | group loc | arguments callStart callee isNew done | elements loc done =>
      simp [deliverLast, operandState, apply_ite (Option.map State.unplaced)]
    | conditionThen testStart test | index valueStart value | ifTest loc | whileTest loc
    | forStep loc initializer test | forInit loc | forTest loc initializer | expression
    | returned loc | thrown loc =>
      simp only [List.map_cons, Frame.unplaced, deliverLast, Token.unplaced_kind,
        apply_ite (Option.map State.unplaced)]
      rfl
    | _ => rfl

theorem expressionEnd_unplaced (x : Operand) :
    expressionEnd t.unplaced x.unplaced (frames.map Frame.unplaced) =
      (expressionEnd t x frames).map State.unplaced := by
  simp only [expressionEnd, Operand.unplaced, Frame.close_unplaced frames x.node x.start,
    Frame.unplacedResult, Token.unplaced_kind, apply_ite (Option.map State.unplaced)]
  rw [← deliverItem_unplaced, ← deliverLast_unplaced]
  rw [endSequence_unplaced]
  rfl

theorem suffix?_unplaced (x : Operand) :
    suffix? t.unplaced x.unplaced (frames.map Frame.unplaced) =
      (suffix? t x frames).map State.unplaced := by
  simp only [suffix?, Token.unplaced_kind]
  split <;> rfl

theorem binding?_unplaced (x : Operand) :
    binding? t.unplaced x.unplaced (frames.map Frame.unplaced) =
      (binding? t x frames).map State.unplaced := by
  simp only [binding?, Token.unplaced_kind]
  split
  · rfl
  · rfl
  · rw [apply_ite (Option.map State.unplaced)]
    rfl
  · rfl

theorem infixNext_unplaced (x : Operand) :
    infixNext t.unplaced x.unplaced (frames.map Frame.unplaced) =
      (infixNext t x frames).map State.unplaced := by
  simp only [infixNext, Token.unplaced_kind]
  cases Level.ofKind? t.kind with
  | some level =>
    simp only [Operand.unplaced, Frame.closeTighter_unplaced _ _ x.node x.start,
      Frame.unplacedResult, apply_ite (Option.map State.unplaced)]
    rfl
  | none =>
    simp only [Operand.unplaced, Frame.closeTighter_unplaced _ _ x.node x.start,
      Frame.unplacedResult, apply_ite (Option.map State.unplaced)]
    rw [← expressionEnd_unplaced]
    rfl

theorem operatorNext_unplaced (x : Operand) :
    operatorNext t.unplaced x.unplaced (frames.map Frame.unplaced) =
      (operatorNext t x frames).map State.unplaced := by
  simp only [operatorNext, expressionEnd_unplaced, infixNext_unplaced, suffix?_unplaced,
    binding?_unplaced, Frame.awaitsOperand_unplaced, Operand.unplaced_grip]
  cases x.grip with
  | complete => rfl
  | operand => rfl
  | callable | name =>
    cases suffix? t x frames with
    | some s => rfl
    | none =>
      cases Frame.awaitsOperand frames with
      | true => rfl
      | false => cases binding? t x frames <;> rfl

theorem comparisonNext_unplaced (left : Operand) (operator : Text) :
    comparisonNext t.unplaced left.unplaced operator (frames.map Frame.unplaced) =
      (comparisonNext t left operator frames).map State.unplaced := by
  simp only [comparisonNext, Token.unplaced_kind, apply_ite (Option.map State.unplaced)]
  rw [← operandStart_unplaced]
  rfl

theorem selectorName_unplaced (x : Operand) :
    selectorName t.unplaced x.unplaced (frames.map Frame.unplaced) =
      (selectorName t x frames).map State.unplaced := by
  simp only [selectorName, Token.unplaced_kind, apply_ite (Option.map State.unplaced)]
  rfl

theorem newNext_unplaced (loc : Location) (callee : Node) :
    newNext t.unplaced .synthetic callee.unplaced (frames.map Frame.unplaced) =
      (newNext t loc callee frames).map State.unplaced := by
  simp only [newNext, Token.unplaced_kind]
  split <;> rfl

theorem propertyStart_unplaced :
    propertyStart t.unplaced (frames.map Frame.unplaced) =
      (propertyStart t frames).map State.unplaced := by
  obtain ⟨kind, text, loc⟩ := t
  cases kind with
  | rightBrace =>
    cases frames with
    | nil => rfl
    | cons frame frames =>
      cases frame with
      | properties loc done =>
        simp [propertyStart, Token.unplaced, operandState]
      | _ => rfl
  | _ => rfl

theorem propertyNext_unplaced (name : Token) :
    propertyNext t.unplaced name.unplaced (frames.map Frame.unplaced) =
      (propertyNext t name frames).map State.unplaced := by
  simp only [propertyNext, Token.unplaced_kind, apply_ite (Option.map State.unplaced)]
  rw [← endProperty_unplaced]
  rfl

theorem arrowBodyStart_unplaced (start : Location) (params : List Node) :
    arrowBodyStart t.unplaced .synthetic (params.map Node.unplaced) (frames.map Frame.unplaced) =
      (arrowBodyStart t start params frames).map State.unplaced := by
  simp only [arrowBodyStart, Token.unplaced_kind, apply_ite (Option.map State.unplaced)]
  rw [← operandStart_unplaced]
  rfl

theorem endBlock_unplaced (body : Node) :
    endBlock body.unplaced (frames.map Frame.unplaced) = (endBlock body frames).unplaced := by
  cases frames with
  | nil => rfl
  | cons frame frames =>
    cases frame with
    | functionBody header params result =>
      obtain ⟨loc, isExpression, name⟩ := header
      cases isExpression <;>
        simp [endBlock, Header.node, operandState]
    | arrowBlock start params =>
      simp [endBlock, operandState]
    | _ => rfl

theorem statementStart_unplaced :
    statementStart t.unplaced (frames.map Frame.unplaced) =
      (statementStart t frames).map State.unplaced := by
  simp only [statementStart, Token.unplaced_kind]
  split
  case h_15 =>
    cases frames with
    | nil => rfl
    | cons frame frames =>
      cases frame with
      | block loc done =>
        simp only [List.map_cons, Frame.unplaced, Option.map_some]
        rw [← endBlock_unplaced, Node.unplaced, Node.unplacedAll_eq_map, List.map_reverse]
      | _ => rfl
  case h_17 =>
    rw [← operandStart_unplaced]
    rfl
  all_goals rfl

theorem statementNext_unplaced (statement : Node) (silent : Bool) :
    statementNext t.unplaced statement.unplaced silent (frames.map Frame.unplaced) =
      (statementNext t statement silent frames).map State.unplaced := by
  simp only [statementNext, Token.unplaced_kind, Frame.attachElse_unplaced, Frame.settle_unplaced,
    apply_ite (Option.map State.unplaced)]
  cases Frame.attachElse statement frames <;> cases Frame.settle statement silent frames <;>
    simp [statementStart_unplaced]

theorem declaratorNext_unplaced (name : Token) :
    declaratorNext t.unplaced name.unplaced (frames.map Frame.unplaced) =
      (declaratorNext t name frames).map State.unplaced := by
  simp only [declaratorNext, Token.unplaced_kind]
  split
  · rfl
  · rfl
  · exact endDeclarator_unplaced t frames (declaratorNode name .absent .absent)

theorem paramsStart_unplaced (header : Header) :
    paramsStart t.unplaced header.unplaced (frames.map Frame.unplaced) =
      (paramsStart t header frames).map State.unplaced := by
  simp only [paramsStart, Token.unplaced_kind, apply_ite (Option.map State.unplaced)]
  rfl

theorem functionNameStart_unplaced (loc : Location) (isExpression : Bool) :
    functionNameStart t.unplaced .synthetic isExpression (frames.map Frame.unplaced) =
      (functionNameStart t loc isExpression frames).map State.unplaced := by
  simp only [functionNameStart, Token.unplaced_kind, apply_ite (Option.map State.unplaced)]
  rw [← paramsStart_unplaced]
  rfl

theorem paramStart_unplaced (isFirst : Bool) :
    paramStart t.unplaced isFirst (frames.map Frame.unplaced) =
      (paramStart t isFirst frames).map State.unplaced := by
  obtain ⟨kind, text, loc⟩ := t
  cases kind with
  | rightParen =>
    cases frames with
    | nil => rfl
    | cons frame frames =>
      cases frame with
      | paramList owner done =>
        cases isFirst <;> cases owner <;>
          simp [paramStart, Token.unplaced, endParams]
      | _ => rfl
  | _ => rfl

theorem paramNext_unplaced (name : Token) :
    paramNext t.unplaced name.unplaced (frames.map Frame.unplaced) =
      (paramNext t name frames).map State.unplaced := by
  simp only [paramNext, Token.unplaced_kind]
  split
  · rfl
  · rfl
  · exact endParam_unplaced t frames (paramNode name .absent .absent)

theorem functionTail_unplaced (header : Header) (params : List Node) :
    functionTail t.unplaced header.unplaced (params.map Node.unplaced)
        (frames.map Frame.unplaced) =
      (functionTail t header params frames).map State.unplaced := by
  simp only [functionTail, Token.unplaced_kind, apply_ite (Option.map State.unplaced)]
  rw [← openBody_unplaced]
  rfl

theorem headerStart_unplaced (word : HeaderWord) (loc : Location) :
    headerStart t.unplaced word .synthetic (frames.map Frame.unplaced) =
      (headerStart t word loc frames).map State.unplaced := by
  simp only [headerStart, Token.unplaced_kind, apply_ite (Option.map State.unplaced)]
  cases word <;> rfl

theorem exportStart_unplaced (loc : Location) (isDefault : Bool) :
    exportStart t.unplaced .synthetic isDefault (frames.map Frame.unplaced) =
      (exportStart t loc isDefault frames).map State.unplaced := by
  simp only [exportStart, Token.unplaced_kind]
  split
  · cases isDefault <;> rfl
  all_goals rfl

theorem expect_unplaced (kind : TokenKind) (s : State) :
    expect t.unplaced kind s.unplaced = (expect t kind s).map State.unplaced := by
  simp only [expect, Token.unplaced_kind, apply_ite (Option.map State.unplaced)]
  rfl

/-- The parser treats a token without its location as it treats the token. -/
theorem step_unplaced (s : State) : step s.unplaced t.unplaced = (step s t).map State.unplaced := by
  obtain ⟨focus, frames⟩ := s
  cases focus with
  | statement => exact statementStart_unplaced t frames
  | finished statement silent => exact statementNext_unplaced t frames statement silent
  | operand => exact operandStart_unplaced t frames
  | operator x => exact operatorNext_unplaced t frames x
  | comparison left operator => exact comparisonNext_unplaced t frames left operator
  | selector x => exact selectorName_unplaced t frames x
  | newName loc => exact expect_unplaced t .name ⟨.newCallee loc (identifier t .absent), frames⟩
  | newCallee loc callee => exact newNext_unplaced t frames loc callee
  | newSelector loc callee =>
    simp only [State.unplaced_mk, Focus.unplaced, step, Node.loc_unplaced]
    exact expect_unplaced t .name
      ⟨.newCallee loc (.member callee.loc false callee (identifier t .absent) false), frames⟩
  | property => exact propertyStart_unplaced t frames
  | propertyName name => exact propertyNext_unplaced t frames name
  | propertyColon key =>
    simp only [State.unplaced_mk, Focus.unplaced, step, Node.loc_unplaced]
    exact expect_unplaced t .colon ⟨.operand, .propertyValue key.loc key :: frames⟩
  | arrowSign start params => exact expect_unplaced t .arrow ⟨.arrowBody start params, frames⟩
  | arrowBody start params => exact arrowBodyStart_unplaced t frames start params
  | typeOperand => exact typeStart_unplaced t frames
  | typeOperator x => exact typeNext_unplaced t frames x
  | arrayEnd x =>
    simp only [State.unplaced_mk, Focus.unplaced, step, arrayTypeEnd, Token.unplaced_kind,
      apply_ite (Option.map State.unplaced)]
    rfl
  | typeParamName isFirst => exact typeParamStart_unplaced t frames isFirst
  | typeParamColon name =>
    exact expect_unplaced t .colon ⟨.typeOperand, .typeParam name :: frames⟩
  | typeArrow loc params =>
    exact expect_unplaced t .arrow ⟨.typeOperand, .functionResult loc params :: frames⟩
  | member => exact memberStart_unplaced t frames
  | memberKey loc key => exact memberNext_unplaced t frames loc key
  | memberColon loc key =>
    exact expect_unplaced t .colon ⟨.typeOperand, .memberType loc key true :: frames⟩
  | declaratorName => exact expect_unplaced t .name ⟨.declarator t, frames⟩
  | declarator name => exact declaratorNext_unplaced t frames name
  | functionName loc isExpression => exact functionNameStart_unplaced t frames loc isExpression
  | functionParams header => exact paramsStart_unplaced t frames header
  | paramName isFirst => exact paramStart_unplaced t frames isFirst
  | param name => exact paramNext_unplaced t frames name
  | functionTail header params => exact functionTail_unplaced t frames header params
  | interfaceName loc =>
    exact expect_unplaced t .name ⟨.interfaceBody loc (identifier t .absent), frames⟩
  | interfaceBody loc name =>
    exact expect_unplaced t .leftBrace
      ⟨.member, .members t.loc (.interface loc name) [] :: frames⟩
  | headerOpen word loc => exact headerStart_unplaced t frames word loc
  | exported loc isDefault => exact exportStart_unplaced t frames loc isDefault
  | terminator statement =>
    exact expect_unplaced t .terminator ⟨.finished statement false, frames⟩

/-- A state without locations completes the same program, up to locations. -/
theorem finish?_unplaced (s : State) :
    (finish? s.unplaced).map Node.unplaced = (finish? s).map Node.unplaced := by
  obtain ⟨focus, frames⟩ := s
  have complete (frames : List Frame) :
      (finish? ⟨.statement, frames.map Frame.unplaced⟩).map Node.unplaced =
        (finish? ⟨.statement, frames⟩).map Node.unplaced := by
    cases frames with
    | nil => rfl
    | cons frame frames =>
      cases frame with
      | program done =>
        cases frames with
        | nil => simp [finish?]
        | cons _ _ => rfl
      | _ => rfl
  cases focus with
  | statement => exact complete frames
  | finished statement silent =>
    simp only [State.unplaced_mk, Focus.unplaced, finish?, Frame.settle_unplaced]
    cases Frame.settle statement silent frames with
    | none => rfl
    | some frames => exact complete frames
  | _ => rfl

/-- The state behind tokens, or nothing if one of them cannot stand where it stands. -/
def feed (s : State) (ts : List Token) : Option State := ts.foldlM step s

/-- The program that tokens complete from a state on. -/
def read? (s : State) (ts : List Token) : Option Node := (feed s ts).bind finish?

theorem read?_cons (s : State) (t : Token) (rest : List Token) :
    read? s (t :: rest) = (step s t).bind (read? · rest) := by
  simp only [read?, feed, List.foldlM_cons, bind, Option.bind_assoc]

theorem run_eq_ok_iff (ts : List Token) :
    ∀ (s : State) (ending : Location) (program : Node),
      run s ending ts = .ok program ↔ read? s ts = some program := by
  induction ts with
  | nil =>
    intro s ending program
    simp only [run, read?, feed, List.foldlM_nil, pure, Option.bind_some]
    cases finish? s <;> simp
  | cons t rest ih =>
    intro s ending program
    rw [run, read?_cons]
    cases step s t with
    | none => simp
    | some next => exact ih next _ program

theorem feed_unplaced (ts : List Token) :
    ∀ s : State, feed s.unplaced (ts.map Token.unplaced) = (feed s ts).map State.unplaced := by
  induction ts with
  | nil => exact fun s => rfl
  | cons t rest ih =>
    intro s
    simp only [feed, List.map_cons, List.foldlM_cons, step_unplaced, bind]
    cases step s t with
    | none => rfl
    | some next => exact ih next

/-- Tokens without their locations make up the same program, up to locations. -/
theorem read?_unplaced (s : State) (ts : List Token) :
    (read? s.unplaced (ts.map Token.unplaced)).map Node.unplaced =
      (read? s ts).map Node.unplaced := by
  simp only [read?, feed_unplaced]
  cases feed s ts with
  | none => rfl
  | some next => exact finish?_unplaced next

end Parse

namespace Token

private theorem significant_unplaced (ts : List Token) :
    significant (ts.map unplaced) = (significant ts).map unplaced := by
  simp only [significant, List.filter_map]
  rfl

theorem followsKey_unplaced (ts : List Token) : followsKey (ts.map unplaced) = followsKey ts := by
  simp only [followsKey, significant_unplaced, ← List.map_take]
  cases (significant ts).take 2 with
  | nil => rfl
  | cons a more =>
    simp only [List.map_cons, List.any_map]
    rfl

theorem markPropertyNamesFrom_unplaced (ts : List Token) :
    ∀ (before : Option TokenKind) (onNewLine : Bool),
      markPropertyNamesFrom before onNewLine (ts.map unplaced) =
        (markPropertyNamesFrom before onNewLine ts).map unplaced := by
  induction ts with
  | nil => exact fun before onNewLine => rfl
  | cons t rest ih =>
    intro before onNewLine
    have names : namesProperty before onNewLine (rest.map unplaced) =
        namesProperty before onNewLine rest := by
      simp only [namesProperty, followsKey_unplaced]
    simp only [List.map_cons, markPropertyNamesFrom, unplaced_kind, names, ih]
    split
    · rfl
    · split <;> rfl

theorem arrowFollows_unplaced (ts : List Token) :
    arrowFollows (ts.map unplaced) = arrowFollows ts := by
  simp only [arrowFollows, List.find?_map]
  have same : ((fun t : Token => decide (t.kind ≠ .newline)) ∘ unplaced) =
      fun t : Token => decide (t.kind ≠ .newline) := rfl
  rw [same]
  cases ts.find? fun t => decide (t.kind ≠ .newline) <;> rfl

theorem arrowParensFrom_unplaced (ts : List Token) :
    ∀ (i : Nat) (opens : List Nat),
      arrowParensFrom i opens (ts.map unplaced) = arrowParensFrom i opens ts := by
  induction ts with
  | nil => exact fun i opens => rfl
  | cons t rest ih =>
    intro i opens
    simp only [List.map_cons, arrowParensFrom, unplaced_kind, arrowFollows_unplaced, ih]

theorem markArrowParameters_unplaced (ts : List Token) :
    markArrowParameters (ts.map unplaced) = (markArrowParameters ts).map unplaced := by
  apply List.ext_getElem?
  intro i
  simp only [markArrowParameters, arrowParensFrom_unplaced, markAt, List.getElem?_mapIdx,
    List.getElem?_map]
  cases ts[i]? with
  | none => rfl
  | some t =>
    simp only [Option.map_some]
    split <;> rfl

end Token

namespace TerminatorState

/-- The state with synthetic locations. -/
def unplaced (s : TerminatorState) : TerminatorState :=
  { s with
    pending := s.pending.map fun _ => .synthetic
    lastLoc := s.lastLoc.map fun _ => .synthetic }

/-- A state and emitted tokens with synthetic locations. -/
def unplacedStep (result : TerminatorState × List Token) : TerminatorState × List Token :=
  (result.1.unplaced, result.2.map Token.unplaced)

theorem newline_unplaced (s : TerminatorState) (loc : Location) :
    s.unplaced.newline .synthetic = (s.newline loc).unplaced := by
  unfold newline
  have same : s.unplaced.pending.isNone = s.pending.isNone := by
    cases pending : s.pending <;> simp [unplaced, pending]
  rw [same, apply_ite unplaced]
  rfl

theorem settle_unplaced (s : TerminatorState) (kind : TokenKind) :
    s.unplaced.settle kind = unplacedStep (s.settle kind) := by
  unfold settle
  cases pending : s.pending with
  | none =>
    have same : s.unplaced.pending = none := by simp [unplaced, pending]
    rw [same]
    rfl
  | some loc =>
    have same : s.unplaced.pending = some .synthetic := by simp [unplaced, pending]
    rw [same]
    simp only [apply_ite unplacedStep]
    rfl

theorem closeStatement_unplaced (s : TerminatorState) (t : Token) :
    s.unplaced.closeStatement t.unplaced = unplacedStep (s.closeStatement t) := by
  unfold closeStatement
  rw [apply_ite unplacedStep]
  rfl

theorem step_unplaced (s : TerminatorState) (t : Token) :
    s.unplaced.step t.unplaced = unplacedStep (s.step t) := by
  unfold step
  rw [Token.unplaced_kind, Token.unplaced_loc, newline_unplaced s t.loc, settle_unplaced]
  by_cases newline : t.kind = .newline
  · rw [if_pos newline, if_pos newline]
    rfl
  rw [if_neg newline, if_neg newline]
  by_cases semicolon : t.kind = .semicolon
  · simp only [if_pos semicolon, unplacedStep, List.map_append]
    rfl
  · simp only [if_neg semicolon, unplacedStep, closeStatement_unplaced, List.map_append]
    rfl

theorem run_unplaced (ts : List Token) :
    ∀ s : TerminatorState,
      s.unplaced.run (ts.map Token.unplaced) = (s.run ts).map Token.unplaced := by
  induction ts with
  | nil =>
    intro s
    simp only [List.map_nil, run, finish, unplaced]
    cases s.canTerminate with
    | false => rfl
    | true => cases s.pending <;> cases s.lastLoc <;> rfl
  | cons t rest ih =>
    intro s
    simp only [List.map_cons, run, step_unplaced, unplacedStep, ih, List.map_append]

end TerminatorState

namespace Token

/-- Refinement does not look at locations. -/
theorem refine_unplaced (ts : List Token) :
    refine (ts.map unplaced) = (refine ts).map unplaced := by
  unfold refine insertTerminators markPropertyNames
  rw [markPropertyNamesFrom_unplaced, markArrowParameters_unplaced]
  exact TerminatorState.run_unplaced _ {}

end Token

end TypeGloss
