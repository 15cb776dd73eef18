import TypeGloss.Proofs.ParsedTokens
import TypeGloss.Proofs.Transitions

/-!
# The trail of the parser

A tree leaves a trail: the places where its nodes start, in the order in which they are written. So
does a parser state, whose frames and focus hold the parts that were read. Each token adds its own
place to the trail at most; for the rest, a step of the parser repeats places or leaves them out.
So the trail of a program retraces the places of its tokens.
-/

namespace TypeGloss

/-- A place where a token or a node starts. The places of blocks are told apart: nothing else starts
where a block does. -/
inductive Mark where
  | place (loc : Location)
  | block (loc : Location)
  deriving DecidableEq, Repr

namespace Mark

/-- The location of a mark. -/
def loc : Mark → Location
  | .place loc | .block loc => loc

/-- Marks that occur in other marks in the same order, those of blocks once at most. Whatever holds
between earlier and later ones of these, and between a place and itself, holds of them too. -/
structure Retraces (marks others : List Mark) : Prop where
  subset : marks ⊆ others
  pairwise : ∀ {R : Mark → Mark → Prop}, (∀ loc, R (.place loc) (.place loc)) →
    others.Pairwise R → marks.Pairwise R

namespace Retraces

variable {marks others between rest behind : List Mark} {mark : Mark} {loc : Location}

theorem refl (marks : List Mark) : Retraces marks marks := ⟨fun _ mem => mem, fun _ pairs => pairs⟩

theorem trans (first : Retraces marks between) (second : Retraces between others) :
    Retraces marks others :=
  ⟨List.Subset.trans first.subset second.subset,
    fun same pairs => first.pairwise same (second.pairwise same pairs)⟩

theorem of_sublist (sublist : marks.Sublist others) : Retraces marks others :=
  ⟨sublist.subset, fun _ pairs => pairs.sublist sublist⟩

theorem append (first : Retraces marks others) (second : Retraces rest behind) :
    Retraces (marks ++ rest) (others ++ behind) := by
  constructor
  · exact List.append_subset.mpr ⟨List.subset_append_of_subset_left _ first.subset,
      List.subset_append_of_subset_right _ second.subset⟩
  · intro R same pairs
    obtain ⟨left, right, across⟩ := List.pairwise_append.mp pairs
    exact List.pairwise_append.mpr ⟨first.pairwise same left, second.pairwise same right,
      fun a inLeft b inRight => across a (first.subset inLeft) b (second.subset inRight)⟩

theorem append_left (second : Retraces rest behind) : Retraces (marks ++ rest) (marks ++ behind) :=
  (refl marks).append second

theorem before (first : Retraces marks others) : Retraces marks (others ++ behind) :=
  first.trans (of_sublist (List.sublist_append_left ..))

/-- A place may be repeated. -/
theorem again (once : Retraces (.place loc :: marks) others) :
    Retraces (.place loc :: .place loc :: marks) others := by
  refine trans ⟨by simp, fun same pairs => ?_⟩ once
  obtain ⟨here, inner⟩ := List.pairwise_cons.mp pairs
  exact List.pairwise_cons.mpr ⟨List.forall_mem_cons.mpr ⟨same loc, here⟩, pairs⟩

/-- The place where something starts may be repeated for a node that starts there. -/
theorem starting {trail : List Mark} (own : trail = .place loc :: rest)
    (sublist : (marks ++ .place loc :: rest).Sublist others) :
    Retraces (marks ++ .place loc :: trail) others := by
  rw [own]
  exact trans (.append_left (.again (.refl _))) (.of_sublist sublist)

end Retraces

end Mark

/-- The mark of a token. -/
def Token.mark (t : Token) : Mark :=
  if t.kind = .leftBrace then .block t.loc else .place t.loc

theorem Token.twice {t : Token} (other : t.kind ≠ .leftBrace) (marks : List Mark) :
    Mark.Retraces (marks ++ [.place t.loc, .place t.loc]) (marks ++ [t.mark]) := by
  rw [Token.mark, if_neg other]
  exact .append_left (.again (.refl _))

theorem Token.mark_of_mem {t : Token} {kinds : List TokenKind} (mem : t.kind ∈ kinds)
    (noBrace : .leftBrace ∉ kinds) : t.mark = .place t.loc := by
  refine if_neg fun brace => noBrace ?_
  rwa [← brace]

namespace Node

mutual

/-- The marks of the nodes of a tree, in the order in which the nodes are written: the result type
of a function comes before its body. -/
@[simp] def trail : Node → List Mark
  | .absent => []
  | .keywordType loc _ | .number loc .. | .string loc .. | .boolean loc .. | .null loc ..
  | .template loc .. | .this loc .. | .breakStatement loc | .continueStatement loc
  | .emptyStatement loc => [.place loc]
  | .arrayType loc node | .propertySignature loc _ node _ | .identifier loc _ _ node
  | .unary loc _ _ node | .update loc _ _ _ node | .returnStatement loc node
  | .throwStatement loc node | .expressionStatement loc node | .exportNamed loc node
  | .exportDefault loc node => .place loc :: trail node
  | .property loc first second _ | .defaultParam loc first second | .binary loc _ _ first second
  | .logical loc _ _ first second | .assignment loc _ _ first second
  | .member loc _ first second _ | .declarator loc first second
  | .whileStatement loc first second => .place loc :: (trail first ++ trail second)
  | .conditional loc _ first second third | .ifStatement loc first second third =>
    .place loc :: (trail first ++ trail second ++ trail third)
  | .forStatement loc initializer test step body =>
    .place loc :: (trail initializer ++ trail test ++ trail step ++ trail body)
  | .typeReference loc _ nodes | .unionType loc nodes | .typeLiteral loc nodes
  | .array loc _ nodes | .object loc _ nodes | .sequence loc _ nodes
  | .variableDeclaration loc _ nodes | .program loc nodes => .place loc :: trailAll nodes
  | .block loc nodes => .block loc :: trailAll nodes
  | .functionType loc nodes node | .arrowFunction loc _ nodes node =>
    .place loc :: (trailAll nodes ++ trail node)
  | .call loc _ node nodes | .construction loc _ node nodes
  | .interfaceDeclaration loc node nodes =>
    .place loc :: (trail node ++ trailAll nodes)
  | .functionExpression loc _ name params body result
  | .functionDeclaration loc name params body result =>
    .place loc :: (trail name ++ trailAll params ++ trail result ++ trail body)

/-- The marks of trees, one tree after the other. -/
@[simp] def trailAll : List Node → List Mark
  | [] => []
  | node :: rest => trail node ++ trailAll rest

end

@[simp] theorem trailAll_append (nodes others : List Node) :
    trailAll (nodes ++ others) = trailAll nodes ++ trailAll others := by
  induction nodes with
  | nil => rfl
  | cons node rest ih => simp [ih]

@[simp] theorem trail_wrap (node : Node) : node.wrap.trail = node.trail := by
  cases node <;> simp [wrap]

end Node

namespace Parse

open Mark (Retraces)
open Node (trailAll)

/-- The marks of a function up to its parameters. -/
@[simp] def Header.trail (header : Header) : List Mark := .place header.loc :: header.name.trail

/-- The marks before a list of parameters. -/
@[simp] def ParamOwner.trail : ParamOwner → List Mark
  | .function header => header.trail
  | .arrow start => [.place start]

/-- The marks before a list of type members whose brace is at a location. -/
@[simp] def MemberOwner.trail (loc : Location) : MemberOwner → List Mark
  | .literal => [.place loc]
  | .interface start name => .place start :: name.trail

/-- The marks of a construct that has begun. -/
@[simp] def Frame.trail : Frame → List Mark
  | .unary loc _ | .update loc _ | .group loc | .typeGroup loc | .memberType loc _ _
  | .exported loc _ | .returned loc | .thrown loc | .ifTest loc | .whileTest loc
  | .forInit loc => [.place loc]
  | .rightOf start node _ _ | .assigned start node _ | .index start node
  | .conditionThen start node | .propertyValue start node | .thenBranch start node
  | .whileBody start node | .forTest start node => .place start :: node.trail
  | .conditionElse start first second | .elseBranch start first second
  | .forStep start first second => .place start :: (first.trail ++ second.trail)
  | .forBody loc initializer test step =>
    .place loc :: (initializer.trail ++ test.trail ++ step.trail)
  | .arrowResult start params | .arrowBlock start params | .functionResult start params =>
    .place start :: trailAll params
  | .sequence start done | .elements start done | .properties start done | .union start done
  | .typeArguments start _ done | .typeParamList start done | .declarators start _ done =>
    .place start :: trailAll done.reverse
  | .arguments start callee _ done => .place start :: (callee.trail ++ trailAll done.reverse)
  | .members loc owner done => owner.trail loc ++ trailAll done.reverse
  | .typeParam name => [.place name.loc]
  | .declaratorType name | .paramType name => [.place name.loc, .place name.loc]
  | .declaratorValue name typing | .paramDefault name typing =>
    .place name.loc :: .place name.loc :: typing.trail
  | .paramList owner done => owner.trail ++ trailAll done.reverse
  | .resultType header params => header.trail ++ trailAll params
  | .functionBody header params result => header.trail ++ trailAll params ++ result.trail
  | .program done => trailAll done.reverse
  | .block loc done => .block loc :: trailAll done.reverse
  | .expression => []

/-- The marks of the constructs that have begun. -/
@[simp] def stackTrail : List Frame → List Mark
  | [] => []
  | frame :: frames => stackTrail frames ++ frame.trail

/-- The marks of what is between the frames and the next token. What may grow into something larger
has the place where its text starts in front. -/
@[simp] def Focus.trail : Focus → List Mark
  | .statement | .operand | .property | .declaratorName | .paramName _ | .typeOperand
  | .typeParamName _ | .member => []
  | .finished node _ | .terminator node => node.trail
  | .operator x | .comparison x _ | .selector x => .place x.start :: x.node.trail
  | .typeOperator x | .arrayEnd x => .place x.start :: x.node.trail
  | .newName loc | .memberKey loc _ | .memberColon loc _ | .functionName loc _
  | .interfaceName loc | .headerOpen _ loc | .exported loc _ => [.place loc]
  | .newCallee loc callee | .newSelector loc callee =>
    .place loc :: .place callee.loc :: callee.trail
  | .propertyName name | .typeParamColon name => [.place name.loc]
  | .propertyColon key => .place key.loc :: key.trail
  | .arrowSign start params | .arrowBody start params | .typeArrow start params =>
    .place start :: trailAll params
  | .declarator name | .param name => [.place name.loc, .place name.loc]
  | .functionParams header => header.trail
  | .functionTail header params => header.trail ++ trailAll params
  | .interfaceBody loc name => .place loc :: name.trail

/-- The marks of all that was read. -/
@[simp] def State.trail (s : State) : List Mark := stackTrail s.frames ++ s.focus.trail

@[simp] theorem identifier_trail (name : Token) (typing : Node) :
    (identifier name typing).trail = .place name.loc :: typing.trail := by
  simp [identifier]

@[simp] theorem level_trail (level : Level) (loc : Location) (sign : Text) (left right : Node) :
    (level.node loc sign left right).trail = .place loc :: (left.trail ++ right.trail) := by
  cases level <;> simp [Level.node]

@[simp] theorem callNode_trail (isNew : Bool) (start : Location) (callee : Node)
    (arguments : List Node) : (callNode isNew start callee arguments).trail =
      .place start :: (callee.trail ++ trailAll arguments) := by
  cases isNew <;> simp [callNode]

@[simp] theorem namedType_trail (loc : Location) (name : Text) (arguments : List Node) :
    (namedType loc name arguments).trail = .place loc :: trailAll arguments := by
  unfold namedType
  split
  case isTrue plain => cases arguments <;> simp_all
  case isFalse => simp

@[simp] theorem declaratorNode_trail (name : Token) (typing value : Node) :
    (declaratorNode name typing value).trail =
      .place name.loc :: .place name.loc :: (typing.trail ++ value.trail) := by
  simp [declaratorNode]

@[simp] theorem exportNode_trail (isDefault : Bool) (loc : Location) (declaration : Node) :
    (Frame.exportNode isDefault loc declaration).trail = .place loc :: declaration.trail := by
  cases isDefault <;> simp [Frame.exportNode]

@[simp] theorem header_node_trail (header : Header) (params : List Node) (body result : Node) :
    (header.node params body result).trail =
      header.trail ++ trailAll params ++ result.trail ++ body.trail := by
  unfold Header.node
  split <;> simp

section Closing

theorem closeTighter_trail (level : Level) (node : Node) (start : Location) (frames : List Frame) :
    Retraces (stackTrail (Frame.closeTighter level node start frames).2.2 ++
        .place (Frame.closeTighter level node start frames).2.1 ::
          (Frame.closeTighter level node start frames).1.trail)
      (stackTrail frames ++ .place start :: node.trail) := by
  fun_induction Frame.closeTighter level node start frames with
  | case1 node start loc sign frames ih | case2 node start loc sign frames ih =>
    exact ih.trans (.starting rfl (by simp))
  | case3 node start leftStart left sign inner frames tighter ih =>
    exact ih.trans (.starting (level_trail ..) (by simp))
  | case4 | case5 => exact .refl _

theorem close_trail (node : Node) (start : Location) (frames : List Frame) :
    Retraces (stackTrail (Frame.close node start frames).2.2 ++
        .place (Frame.close node start frames).2.1 :: (Frame.close node start frames).1.trail)
      (stackTrail frames ++ .place start :: node.trail) := by
  fun_induction Frame.close node start frames with
  | case3 node start leftStart left sign level frames ih =>
    exact ih.trans (.starting (level_trail ..) (by simp))
  | case7 => exact .refl _
  | _ =>
    rename_i ih
    exact ih.trans (.starting rfl (by simp))

theorem endSequence_trail (node : Node) (start : Location) (frames : List Frame) :
    Retraces (stackTrail (endSequence node start frames).2.2 ++
        .place (endSequence node start frames).2.1 :: (endSequence node start frames).1.trail)
      (stackTrail frames ++ .place start :: node.trail) := by
  unfold endSequence
  split
  · exact .starting rfl (by simp)
  · exact .refl _

theorem closeType_trail (node : Node) (frames : List Frame) :
    stackTrail (Frame.closeType node frames).2 ++ (Frame.closeType node frames).1.trail =
      stackTrail frames ++ node.trail := by
  fun_induction Frame.closeType node frames with
  | case1 node start done frames ih => exact ih.trans (by simp)
  | case2 node loc params frames ih => exact ih.trans (by simp)
  | case3 => rfl

theorem settle_trail {frames settled : List Frame} {node : Node} {silent : Bool}
    (isSettled : Frame.settle node silent frames = some settled) :
    (stackTrail settled).Sublist (stackTrail frames ++ node.trail) := by
  fun_induction Frame.settle node silent frames with
  | case1 node silent done frames | case2 node silent loc done frames =>
    obtain rfl := Option.some.inj isSettled
    cases silent <;> simp
  | case8 => cases isSettled
  | _ =>
    rename_i ih
    simpa using ih isSettled

theorem attachElse_trail {frames attached : List Frame} {node : Node}
    (isAttached : Frame.attachElse node frames = some attached) :
    stackTrail attached = stackTrail frames ++ node.trail := by
  fun_induction Frame.attachElse node frames with
  | case1 node loc test frames =>
    obtain rfl := Option.some.inj isAttached
    simp
  | case6 => cases isAttached
  | _ =>
    rename_i ih
    simp [ih isAttached]

end Closing

section Functions

variable {t : Token} {node : Node} {frames : List Frame} {s : State}

theorem endDeclarator_trail (ended : endDeclarator t node frames = some s) :
    Retraces s.trail (stackTrail frames ++ node.trail) := by
  cases endDeclarator_cases ended <;> exact .of_sublist (by simp)

theorem endParam_trail (ended : endParam t node frames = some s) :
    Retraces s.trail (stackTrail frames ++ node.trail) := by
  cases endParam_cases ended with
  | next => exact .of_sublist (by simp)
  | @last owner => cases owner <;> exact .of_sublist (by simp [endParams])

/-- The end of a parameter whose name is also the place where it starts. -/
theorem endParam_paramNode_trail {name : Token} {typing value : Node}
    (ended : endParam t (paramNode name typing value) frames = some s) :
    Retraces s.trail (stackTrail frames ++
      .place name.loc :: .place name.loc :: (typing.trail ++ value.trail)) := by
  refine (endParam_trail ended).trans (.of_sublist (.append_left ?_ _))
  unfold paramNode
  split <;> simp

theorem endProperty_trail (ended : endProperty t node frames = some s) :
    Retraces s.trail (stackTrail frames ++ node.trail) := by
  cases endProperty_cases ended with
  | next => exact .of_sublist (by simp)
  | last => exact .starting rfl (by simp [operandState])

theorem endValue_trail (ended : EndValue t node frames s) :
    Retraces s.trail (stackTrail frames ++ node.trail) := by
  cases ended with
  | property ended => exact (endProperty_trail ended).trans (.of_sublist (by simp))
  | declarator ended => exact (endDeclarator_trail ended).trans (.of_sublist (by simp))
  | param ended => exact (endParam_paramNode_trail ended).trans (.of_sublist (by simp))

theorem deliverItem_trail {start : Location}
    (delivered : deliverItem t node start frames = some s) :
    Retraces s.trail (stackTrail frames ++ .place start :: node.trail) := by
  cases deliverItem_cases delivered with
  | value ended => exact (endValue_trail ended).trans (.of_sublist (by simp))
  | _ => exact .of_sublist (by simp)

theorem deliverLast_trail {start : Location}
    (delivered : deliverLast t node start frames = some s) :
    Retraces s.trail (stackTrail frames ++ .place start :: node.trail) := by
  cases deliverLast_cases delivered with
  | value ended => exact (endValue_trail ended).trans (.of_sublist (by simp))
  | index | array => exact .starting rfl (by simp [operandState])
  | arguments => exact .starting (callNode_trail ..) (by simp [operandState])
  | _ => exact .of_sublist (by simp [operandState])

theorem expressionEnd_trail {x : Operand} (ended : expressionEnd t x frames = some s) :
    Retraces s.trail (stackTrail frames ++ .place x.start :: x.node.trail) := by
  unfold expressionEnd at ended
  refine .trans ?_ (close_trail x.node x.start frames)
  simp only at ended
  split at ended
  case isTrue => exact deliverItem_trail ended
  case isFalse => exact (deliverLast_trail ended).trans (endSequence_trail ..)

theorem atomToken_trail {grip : Grip} (found : AtomToken t node grip) :
    Retraces (operandState node t.loc grip frames).trail (stackTrail frames ++ [t.mark]) := by
  cases found <;> exact .starting rfl (by simp [operandState, Token.mark, *])

theorem openingToken_trail {focus : Focus} {opened : List Frame}
    (found : OpeningToken t focus opened) :
    Retraces (State.trail ⟨focus, opened ++ frames⟩) (stackTrail frames ++ [t.mark]) := by
  cases found with
  | unary kind => exact .of_sublist (by simp [Token.mark_of_mem kind (by decide)])
  | _ => exact .of_sublist (by simp [Token.mark, *])

theorem omission_trail (found : Omission t frames s) :
    Retraces s.trail (stackTrail frames ++ [t.mark]) := by
  cases found with
  | arguments => exact .before (.starting (callNode_trail ..) (by simp [operandState]))
  | array => exact .before (.starting rfl (by simp [operandState]))
  | declaration kind => exact .of_sublist (by simp [Token.mark_of_mem kind (by decide)])
  | _ => exact .before (.of_sublist (by simp))

theorem operandStart_trail (started : operandStart t frames = some s) :
    Retraces s.trail (stackTrail frames ++ [t.mark]) := by
  cases operandStart_cases started with
  | atom found => exact atomToken_trail found
  | opening found => exact openingToken_trail found
  | arrow kind => exact .of_sublist (by simp [Token.mark, kind])
  | omission found => exact omission_trail found

theorem suffix_trail {x : Operand} (found : Suffix t x frames s) :
    Retraces s.trail (stackTrail frames ++ .place x.start :: x.node.trail) := by
  cases found with
  | update => exact .starting rfl (by simp [operandState])
  | _ => exact .of_sublist (by simp)

theorem infixNext_trail {x : Operand} (next : InfixNext t x frames s) :
    Retraces s.trail (stackTrail frames ++ .place x.start :: x.node.trail) := by
  cases next with
  | @comparison level _ _ _ closed | @operator level _ _ _ closed =>
    subst closed
    exact .trans (.of_sublist (by simp)) (closeTighter_trail level x.node x.start frames)
  | question _ closed =>
    subst closed
    exact .trans (.of_sublist (by simp)) (closeTighter_trail .orElse x.node x.start frames)
  | ends ended => exact expressionEnd_trail ended

theorem operatorNext_trail {x : Operand} (next : operatorNext t x frames = some s) :
    Retraces s.trail (stackTrail frames ++ .place x.start :: x.node.trail) := by
  cases operatorNext_cases next with
  | ends _ ended => exact expressionEnd_trail ended
  | operator _ next => exact infixNext_trail next
  | suffix _ found => exact suffix_trail found
  | binding _ _ found => cases found <;> exact .of_sublist (by simp)

theorem comparisonNext_trail {left : Operand} {sign : Text}
    (next : comparisonNext t left sign frames = some s) :
    Retraces s.trail (stackTrail frames ++ .place left.start :: left.node.trail ++ [t.mark]) := by
  obtain ⟨-, rfl⟩ | ⟨-, started⟩ := of_ite_some_else next
  · exact .before (.of_sublist (by simp))
  · exact operandStart_trail started

theorem propertyStart_trail (started : propertyStart t frames = some s) :
    Retraces s.trail (stackTrail frames ++ [t.mark]) := by
  cases propertyStart_cases started with
  | name kind => exact .of_sublist (by simp [Token.mark, kind])
  | string kind | number kind => exact .starting rfl (by simp [Token.mark, kind, Node.loc])
  | none => exact .before (.starting rfl (by simp [operandState]))

theorem propertyNext_trail {name : Token} (next : propertyNext t name frames = some s) :
    Retraces s.trail (stackTrail frames ++ [.place name.loc]) := by
  -- The property starts with its key, and a name that is also the value counts once more.
  have thrice : Retraces (stackTrail frames ++ [.place name.loc, .place name.loc, .place name.loc])
      (stackTrail frames ++ [.place name.loc]) := .append_left (.again (.again (.refl _)))
  refine .trans ?_ thrice
  obtain ⟨-, rfl⟩ | ⟨-, ended⟩ := of_ite_some_else next
  · exact .of_sublist (by simp)
  · exact (endProperty_trail ended).trans (.of_sublist (by simp))

theorem arrowBodyStart_trail {start : Location} {params : List Node}
    (started : arrowBodyStart t start params frames = some s) :
    Retraces s.trail (stackTrail frames ++ .place start :: trailAll params ++ [t.mark]) := by
  obtain ⟨kind, rfl⟩ | ⟨-, started⟩ := of_ite_some_else started
  · exact .of_sublist (by simp [Token.mark, kind])
  · exact operandStart_trail started

theorem endBlock_trail {body : Node} (ends : EndBlock body frames s) :
    Retraces s.trail (stackTrail frames ++ body.trail) := by
  cases ends with
  | expression => exact .starting (header_node_trail ..) (by simp [operandState])
  | declaration => exact .of_sublist (by simp)
  | arrow => exact .starting rfl (by simp [operandState])
  | statement => exact .refl _

theorem statementStart_trail (started : statementStart t frames = some s) :
    Retraces s.trail (stackTrail frames ++ [t.mark]) := by
  cases statementStart_cases started with
  | declaration kind => exact .of_sublist (by simp [Token.mark_of_mem kind (by decide)])
  | blockEnd _ ends => exact ((endBlock_trail ends).trans (.of_sublist (by simp))).before
  | expression started => exact (operandStart_trail started).trans (.of_sublist (by simp))
  | _ => exact .of_sublist (by simp [Token.mark, *])

theorem statementNext_trail {silent : Bool} (next : statementNext t node silent frames = some s) :
    Retraces s.trail (stackTrail frames ++ node.trail ++ [t.mark]) := by
  cases statementNext_cases next with
  | alternate _ isAttached => exact .before (.of_sublist (by simp [attachElse_trail isAttached]))
  | next isSettled started =>
    exact (statementStart_trail started).trans
      (.of_sublist ((settle_trail isSettled).append_right _))

theorem declaratorNext_trail {name : Token} (next : declaratorNext t name frames = some s) :
    Retraces s.trail (stackTrail frames ++ [.place name.loc, .place name.loc]) := by
  cases declaratorNext_cases next with
  | ends _ ended => exact (endDeclarator_trail ended).trans (.of_sublist (by simp))
  | _ => exact .of_sublist (by simp)

theorem paramNext_trail {name : Token} (next : paramNext t name frames = some s) :
    Retraces s.trail (stackTrail frames ++ [.place name.loc, .place name.loc]) := by
  cases paramNext_cases next with
  | ends _ ended => exact (endParam_paramNode_trail ended).trans (.of_sublist (by simp))
  | _ => exact .of_sublist (by simp)

theorem paramsStart_trail {header : Header} (started : paramsStart t header frames = some s) :
    Retraces s.trail (stackTrail frames ++ header.trail) := by
  obtain ⟨-, rfl⟩ := of_ite_some started
  exact .of_sublist (by simp)

theorem functionNameStart_trail {loc : Location} {isExpression : Bool}
    (started : functionNameStart t loc isExpression frames = some s) :
    Retraces s.trail (stackTrail frames ++ [.place loc] ++ [t.mark]) := by
  obtain ⟨kind, rfl⟩ | ⟨-, started⟩ := of_ite_some_else started
  · exact .of_sublist (by simp [Token.mark, kind])
  · exact ((paramsStart_trail started).trans (.of_sublist (by simp))).before

theorem paramStart_trail {isFirst : Bool} (started : paramStart t isFirst frames = some s) :
    Retraces s.trail (stackTrail frames ++ [t.mark]) := by
  cases paramStart_cases started with
  | name kind => exact Token.twice (by simp [kind]) _
  | @none owner => cases owner <;> exact .before (.of_sublist (by simp [endParams]))

theorem openBody_trail {header : Header} {params : List Node} {result : Node}
    (opened : openBody t header params result frames = some s) :
    Retraces s.trail
      (stackTrail frames ++ header.trail ++ trailAll params ++ result.trail ++ [t.mark]) := by
  obtain ⟨kind, rfl⟩ := of_ite_some opened
  exact .of_sublist (by simp [Token.mark, kind])

theorem functionTail_trail {header : Header} {params : List Node}
    (next : functionTail t header params frames = some s) :
    Retraces s.trail (stackTrail frames ++ header.trail ++ trailAll params ++ [t.mark]) := by
  obtain ⟨-, rfl⟩ | ⟨-, opened⟩ := of_ite_some_else next
  · exact .before (.of_sublist (by simp))
  · exact (openBody_trail opened).trans (.of_sublist (by simp))

theorem exportStart_trail {loc : Location} {isDefault : Bool}
    (started : exportStart t loc isDefault frames = some s) :
    Retraces s.trail (stackTrail frames ++ [.place loc] ++ [t.mark]) := by
  cases exportStart_cases started with
  | default => exact .before (.of_sublist (by simp))
  | function kind => exact .of_sublist (by simp [Token.mark, kind])
  | declaration kind => exact .of_sublist (by simp [Token.mark_of_mem kind (by decide)])

theorem endMembers_trail (ended : endMembers frames = some s) :
    Retraces s.trail (stackTrail frames) := by
  cases endMembers_cases ended with
  | literal => exact .starting rfl (by simp)
  | interface => exact .of_sublist (by simp)

theorem endMember_trail (ended : endMember t node frames = some s) :
    Retraces s.trail (stackTrail frames ++ node.trail) := by
  cases endMember_cases ended with
  | next => exact .of_sublist (by simp)
  | last _ ended => exact (endMembers_trail ended).trans (.of_sublist (by simp))

theorem deliverType_trail {type : Node} (delivered : deliverType t type frames = some s) :
    Retraces s.trail (stackTrail frames ++ type.trail ++ [t.mark]) := by
  cases deliverType_cases delivered with
  | arguments => exact .before (.starting (namedType_trail ..) (by simp))
  | member ended => exact ((endMember_trail ended).trans (.of_sublist (by simp))).before
  | declarator ended => exact ((endDeclarator_trail ended).trans (.of_sublist (by simp))).before
  | param ended => exact ((endParam_paramNode_trail ended).trans (.of_sublist (by simp))).before
  | result opened => exact (openBody_trail opened).trans (.of_sublist (by simp))
  | _ => exact .before (.of_sublist (by simp))

theorem typeStart_trail (started : typeStart t frames = some s) :
    Retraces s.trail (stackTrail frames ++ [t.mark]) := by
  cases typeStart_cases started with
  | name kind => exact .starting (namedType_trail ..) (by simp [Token.mark, kind])
  | word kind => rcases kind with kind | kind <;> exact .starting rfl (by simp [Token.mark, kind])
  | _ => exact .of_sublist (by simp [Token.mark, *])

theorem typeNext_trail {x : TypeOperand} (next : typeNext t x frames = some s) :
    Retraces s.trail (stackTrail frames ++ .place x.start :: x.node.trail ++ [t.mark]) := by
  cases typeNext_cases next with
  | ends delivered =>
    refine (deliverType_trail delivered).trans ?_
    rw [closeType_trail]
    exact .of_sublist (by simp)
  | _ => exact .before (.of_sublist (by simp))

theorem typeParamStart_trail {isFirst : Bool} (started : typeParamStart t isFirst frames = some s) :
    Retraces s.trail (stackTrail frames ++ [t.mark]) := by
  cases typeParamStart_cases started with
  | name kind => exact .of_sublist (by simp [Token.mark, kind])
  | none => exact .before (.of_sublist (by simp))

theorem memberStart_trail (started : memberStart t frames = some s) :
    Retraces s.trail (stackTrail frames ++ [t.mark]) := by
  cases memberStart_cases started with
  | none _ ended => exact (endMembers_trail ended).before
  | _ => exact .of_sublist (by simp [Token.mark, *])

end Functions

theorem expect_trail {t : Token} {kind : TokenKind} {s next : State} {before : List Mark}
    (expected : expect t kind next = some s)
    (retraces : t.kind = kind → Retraces next.trail before) : Retraces s.trail before := by
  obtain ⟨isKind, rfl⟩ := of_ite_some expected
  exact retraces isKind

/-- A step of the parser adds the mark of its token to the trail at most. -/
theorem step_trail {s next : State} {t : Token} (stepped : step s t = some next) :
    Retraces next.trail (s.trail ++ [t.mark]) := by
  obtain ⟨focus, frames⟩ := s
  unfold step at stepped
  cases focus with
  | statement => exact (statementStart_trail stepped).trans (.of_sublist (by simp))
  | finished statement silent => exact statementNext_trail stepped
  | operand => exact (operandStart_trail stepped).trans (.of_sublist (by simp))
  | operator x => exact (operatorNext_trail stepped).before
  | comparison left sign => exact comparisonNext_trail stepped
  | selector x =>
    exact expect_trail stepped fun kind => .starting rfl (by simp [operandState, Token.mark, kind])
  | newName loc =>
    refine expect_trail stepped fun kind => .trans (.of_sublist ?_) (Token.twice (by simp [kind]) _)
    simp [identifier, Node.loc]
  | newCallee loc callee => cases newNext_cases stepped <;> exact .before (.of_sublist (by simp))
  | newSelector loc callee =>
    refine expect_trail stepped fun kind => ?_
    have again : Retraces (stackTrail frames ++ [.place loc] ++ .place callee.loc ::
        .place callee.loc :: (callee.trail ++ [t.mark]))
        (stackTrail frames ++ [.place loc] ++ .place callee.loc :: (callee.trail ++ [t.mark])) :=
      .append_left (.again (.refl _))
    exact .trans (.of_sublist (by simp [Token.mark, kind, Node.loc]))
      (again.trans (.of_sublist (by simp)))
  | property => exact (propertyStart_trail stepped).trans (.of_sublist (by simp))
  | propertyName name => exact (propertyNext_trail stepped).before
  | propertyColon key => exact expect_trail stepped fun _ => .before (.of_sublist (by simp))
  | arrowSign start params => exact expect_trail stepped fun _ => .before (.of_sublist (by simp))
  | arrowBody start params => exact arrowBodyStart_trail stepped
  | typeOperand => exact (typeStart_trail stepped).trans (.of_sublist (by simp))
  | typeOperator x => exact typeNext_trail stepped
  | arrayEnd x => exact expect_trail stepped fun _ => .before (.starting rfl (by simp))
  | typeParamName isFirst => exact (typeParamStart_trail stepped).trans (.of_sublist (by simp))
  | typeParamColon name => exact expect_trail stepped fun _ => .before (.of_sublist (by simp))
  | typeArrow loc params => exact expect_trail stepped fun _ => .before (.of_sublist (by simp))
  | member => exact (memberStart_trail stepped).trans (.of_sublist (by simp))
  | memberKey loc key => cases memberNext_cases stepped <;> exact .before (.of_sublist (by simp))
  | memberColon loc key => exact expect_trail stepped fun _ => .before (.of_sublist (by simp))
  | declaratorName =>
    exact expect_trail stepped fun kind =>
      .trans (Token.twice (by simp [kind]) _) (.of_sublist (by simp))
  | declarator name => exact (declaratorNext_trail stepped).before
  | functionName loc isExpression => exact functionNameStart_trail stepped
  | functionParams header => exact (paramsStart_trail stepped).before
  | paramName isFirst => exact (paramStart_trail stepped).trans (.of_sublist (by simp))
  | param name => exact (paramNext_trail stepped).before
  | functionTail header params =>
    exact (functionTail_trail stepped).trans (.of_sublist (by simp))
  | interfaceName loc =>
    exact expect_trail stepped fun kind => .of_sublist (by simp [Token.mark, kind])
  | interfaceBody loc name => exact expect_trail stepped fun _ => .before (.of_sublist (by simp))
  | headerOpen word loc =>
    cases word <;> exact expect_trail stepped fun _ => .before (.of_sublist (by simp))
  | exported loc isDefault => exact exportStart_trail stepped
  | terminator statement => exact expect_trail stepped fun _ => .before (.of_sublist (by simp))

theorem feed_trail {ts : List Token} {s next : State} (fed : feed s ts = some next) :
    Retraces next.trail (s.trail ++ ts.map Token.mark) := by
  induction ts generalizing s with
  | nil =>
    obtain rfl := Option.some.inj fed
    exact .of_sublist (by simp)
  | cons t rest ih =>
    obtain ⟨between, stepped, fed⟩ := Option.bind_eq_some_iff.mp fed
    have first := (step_trail stepped).append (.refl (rest.map Token.mark))
    exact (ih fed).trans (first.trans (.of_sublist (by simp)))

theorem finish?_trail {s : State} {program : Node} (finished : finish? s = some program) :
    ∃ marks, program.trail = .place .first :: marks ∧ marks.Sublist s.trail := by
  cases finish?_cases finished with
  | statement => exact ⟨_, Node.trail.eq_def .., by simp⟩
  | finished isSettled => exact ⟨_, Node.trail.eq_def .., by simpa using settle_trail isSettled⟩

/-- The trail of a program that was read starts where every text starts, and then retraces the
marks of its tokens. -/
theorem read?_trail {ts : List Token} {program : Node} (read : read? start ts = some program) :
    ∃ marks, program.trail = .place .first :: marks ∧ Retraces marks (ts.map Token.mark) := by
  obtain ⟨last, fed, finished⟩ := Option.bind_eq_some_iff.mp read
  obtain ⟨marks, trail, sublist⟩ := finish?_trail finished
  exact ⟨marks, trail, (Retraces.of_sublist sublist).trans (feed_trail fed)⟩

end Parse

end TypeGloss
