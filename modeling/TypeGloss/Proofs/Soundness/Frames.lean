import TypeGloss.Proofs.Soundness.Invariant
import TypeGloss.Proofs.Transitions

/-!
# Frames take in what fits

Operators, lists, declarations, types and control statements take in a finished part. In each
case what is known of the frames is kept.
-/

namespace TypeGloss

open Lexeme (IsName isWordText)
open Grammar (Opening Fits Binder ResultSlot NameSlot SpelledKey)

namespace Parse

variable {R : Prop}

/-- Outside operators an expression need not bind tightly. -/
theorem tightnessOf_le_one {frames : List Frame} (free : Frame.awaitsOperand frames = false) :
    tightnessOf frames ≤ 1 := by
  match frames with
  | [] => exact Nat.zero_le 1
  | frame :: _ => cases frame <;> simp_all [Frame.awaitsOperand, tightnessOf, Frame.tightness]

private theorem awaitsOperand_eq_false {frames : List Frame}
    (noUnary : ∀ loc operator below, frames = .unary loc operator :: below → False)
    (noUpdate : ∀ loc operator below, frames = .update loc operator :: below → False)
    (noRight : ∀ start left operator level below,
      frames = .rightOf start left operator level :: below → False) :
    Frame.awaitsOperand frames = false := by
  unfold Frame.awaitsOperand
  split
  · exact (noUnary _ _ _ rfl).elim
  · exact (noUpdate _ _ _ rfl).elim
  · exact (noRight _ _ _ _ _ rfl).elim
  · rfl

theorem tightnessOf_of_takesSequence {frames : List Frame} (takes : takesSequence frames = true) :
    tightnessOf frames = 0 ∧ colonFollows frames = false := by
  match frames with
  | frame :: _ =>
    cases frame <;>
      simp_all [takesSequence, Frame.acceptsSequence, tightnessOf, Frame.tightness, colonFollows]

/-- What is known of the left operand of an operator and of the frames below it. -/
structure LeftOperand (R : Prop) (level : Level) (node : Node) (frames : List Frame) : Prop where
  sound : FramesSound R frames
  awaits : Awaits .expression frames
  tight : tightnessOf frames ≤ level.rank + 2
  loose : level = .orElse → tightnessOf frames ≤ 1
  fits : Fits (.source R) (.expression (level.rank + 2) (openingOf frames) false) node

/-- The operators that bind at least as tightly as the next one take in a finished operand. -/
theorem closeTighter_sound (level : Level) (frames : List Frame) {node : Node} (start : Location)
    {m : Nat} (sound : FramesSound R frames) (awaits : Awaits .expression frames)
    (fits : Fits (.source R) (.expression m (openingOf frames) false) node)
    (tight : tightnessOf frames ≤ m) (within : level.rank + 2 ≤ m) :
    LeftOperand R level (Frame.closeTighter level node start frames).1
      (Frame.closeTighter level node start frames).2.2 := by
  have rank : level.rank ≤ 5 := by cases level <;> decide
  fun_induction Frame.closeTighter level node start frames generalizing m with
  | case1 node start loc operator frames ih =>
    obtain ⟨⟨below, loose, sign⟩, outer⟩ := sound
    refine ih outer below ?_ loose (by omega)
    exact .unary (Nat.le_refl 8) sign (fits.weaken rfl tight (Opening.within_any _) id)
  | case2 node start loc operator frames ih =>
    obtain ⟨⟨below, loose, sign⟩, outer⟩ := sound
    refine ih outer below ?_ loose (by omega)
    exact .updateBefore (Nat.le_refl 8) sign (fits.weaken rfl tight .refl id)
  | case3 node start leftStart left operator inner frames ranks ih =>
    obtain ⟨⟨below, loose, sign, first⟩, outer⟩ := sound
    refine ih outer below ?_ loose (by omega)
    exact .binary inner (Nat.le_refl _) sign first (fits.weaken rfl tight (Opening.within_any _) id)
  | case4 node start leftStart left operator inner frames ranks =>
    refine ⟨sound, awaits, ?_, ?_, fits.weaken rfl within .refl id⟩
    · simp only [tightnessOf, Frame.tightness]
      omega
    · rintro rfl
      exact absurd (Nat.zero_le _) ranks
  | case5 frames node start noUnary noUpdate noRight =>
    have loose := tightnessOf_le_one (awaitsOperand_eq_false noUnary noUpdate noRight)
    exact ⟨sound, awaits, Nat.le_trans loose (by omega), fun _ => loose,
      fits.weaken rfl within .refl id⟩

/-- What is known of an expression and of the frames that take it next. -/
structure Delivered (R : Prop) (node : Node) (frames : List Frame) : Prop where
  sound : FramesSound R frames
  awaits : Awaits .expression frames
  loose : tightnessOf frames ≤ 1
  fits : Fits (.source R) (.expression 1 (openingOf frames) (colonFollows frames)) node

theorem colonFollows_close (frames : List Frame) (node : Node) (start : Location) :
    colonFollows (Frame.close node start frames).2.2 = colonFollows frames := by
  fun_induction Frame.close node start frames with
  | case7 => rfl
  | _ => assumption

/-- Everything that ends with an expression takes it in. -/
theorem close_sound (frames : List Frame) {node : Node} {start : Location} {m : Nat}
    (sound : FramesSound R frames) (awaits : Awaits .expression frames)
    (fits : Fits (.source R) (.expression m (openingOf frames) (colonFollows frames)) node)
    (tight : tightnessOf frames ≤ m) (positive : 1 ≤ m) :
    Delivered R (Frame.close node start frames).1 (Frame.close node start frames).2.2 := by
  fun_induction Frame.close node start frames generalizing m with
  | case1 node start loc operator frames ih =>
    obtain ⟨⟨below, loose, sign⟩, rest⟩ := sound
    refine ih rest below (.unary (Nat.le_refl 8) sign ?_) loose (by omega)
    exact fits.weaken rfl tight (Opening.within_any _) id
  | case2 node start loc operator frames ih =>
    obtain ⟨⟨below, loose, sign⟩, rest⟩ := sound
    refine ih rest below (.updateBefore (Nat.le_refl 8) sign ?_) loose (by omega)
    exact fits.weaken rfl tight .refl id
  | case3 node start leftStart left operator inner frames ih =>
    obtain ⟨⟨below, loose, sign, first⟩, rest⟩ := sound
    refine ih rest below (.binary inner (Nat.le_refl _) sign first ?_) loose (by omega)
    exact fits.weaken rfl tight (Opening.within_any _) id
  | case4 node start testStart test consequent frames ih =>
    obtain ⟨⟨below, loose, condition, first⟩, rest⟩ := sound
    refine ih rest below (.conditional (Nat.le_refl 1) condition first ?_) loose (Nat.le_refl 1)
    exact fits.weaken rfl tight (Opening.within_any _) id
  | case5 node start targetStart target operator frames ih =>
    obtain ⟨⟨below, loose, sign, assigned⟩, rest⟩ := sound
    refine ih rest below (.assignment (Nat.le_refl 1) sign assigned ?_) loose (Nat.le_refl 1)
    exact fits.weaken rfl tight (Opening.within_any _) id
  | case6 node start arrowStart params frames ih =>
    obtain ⟨⟨below, loose, each⟩, rest⟩ := sound
    refine ih rest below (.arrow (Nat.le_refl 1) each ?_) loose (Nat.le_refl 1)
    exact fits.weaken rfl tight .refl id
  | case7 frames node start noUnary noUpdate noRight =>
    refine ⟨sound, awaits, ?_, fits.weaken rfl positive .refl id⟩
    exact tightnessOf_le_one (awaitsOperand_eq_false noUnary noUpdate noRight)

/-- A finished statement goes to the list of statements around it. -/
theorem settle_sound (frames : List Frame) {node : Node} {silent : Bool} {frames' : List Frame}
    (sound : FramesSound R frames)
    (fits : (Awaits .statement frames ∧ Fits (.source R) (.statement false) node) ∨
      (Awaits .declared frames ∧ Fits (.source R) .declared node))
    (settled : Frame.settle node silent frames = some frames') :
    FramesSound R frames' ∧ Awaits .statement frames' := by
  fun_induction Frame.settle node silent frames with
  | case1 node silent done frames =>
    obtain rfl := Option.some.inj settled
    obtain ⟨⟨rfl, each⟩, rest⟩ := sound
    rcases fits with ⟨-, fits⟩ | ⟨⟨⟩, -⟩
    refine ⟨⟨⟨rfl, ?_⟩, rest⟩, rfl⟩
    split
    · exact each
    · exact List.forall_mem_cons.mpr ⟨fits, each⟩
  | case2 node silent loc done frames =>
    obtain rfl := Option.some.inj settled
    obtain ⟨⟨below, each⟩, rest⟩ := sound
    rcases fits with ⟨-, fits⟩ | ⟨⟨⟩, -⟩
    refine ⟨⟨⟨below, ?_⟩, rest⟩, rfl⟩
    split
    · exact each
    · exact List.forall_mem_cons.mpr ⟨fits, each⟩
  | case3 node silent loc test frames ih =>
    obtain ⟨⟨below, condition⟩, rest⟩ := sound
    rcases fits with ⟨-, fits⟩ | ⟨⟨⟩, -⟩
    exact ih rest (.inl ⟨below, .ifThen condition fits⟩) settled
  | case4 node silent loc test consequent frames ih =>
    obtain ⟨⟨below, condition, first⟩, rest⟩ := sound
    rcases fits with ⟨-, fits⟩ | ⟨⟨⟩, -⟩
    exact ih rest (.inl ⟨below, .ifElse condition first fits⟩) settled
  | case5 node silent loc test frames ih =>
    obtain ⟨⟨below, condition⟩, rest⟩ := sound
    rcases fits with ⟨-, fits⟩ | ⟨⟨⟩, -⟩
    exact ih rest (.inl ⟨below, .whileLoop condition fits⟩) settled
  | case6 node silent loc initializer test step frames ih =>
    obtain ⟨⟨below, initial, condition, increment⟩, rest⟩ := sound
    rcases fits with ⟨-, fits⟩ | ⟨⟨⟩, -⟩
    exact ih rest (.inl ⟨below, .forLoop initial condition increment fits⟩) settled
  | case7 node silent loc isDefault frames ih =>
    obtain ⟨below, rest⟩ := sound
    rcases fits with ⟨⟨⟩, -⟩ | ⟨-, fits⟩
    refine ih rest (.inl ⟨below, ?_⟩) settled
    unfold Frame.exportNode
    split
    · exact .exportDefault fits
    · exact .exportNamed fits
  | case8 => cases settled

/-- A finished statement before `else` goes to the nearest `if` without one. -/
theorem attachElse_sound (frames : List Frame) {node : Node} {frames' : List Frame}
    (sound : FramesSound R frames)
    (fits : (Awaits .statement frames ∧ Fits (.source R) (.statement true) node) ∨
      (Awaits .declared frames ∧ Fits (.source R) .declared node))
    (attached : Frame.attachElse node frames = some frames') :
    FramesSound R frames' ∧ Awaits .statement frames' := by
  fun_induction Frame.attachElse node frames with
  | case1 node loc test frames =>
    obtain rfl := Option.some.inj attached
    obtain ⟨⟨below, condition⟩, rest⟩ := sound
    rcases fits with ⟨-, fits⟩ | ⟨⟨⟩, -⟩
    exact ⟨⟨⟨below, condition, fits⟩, rest⟩, rfl⟩
  | case2 node loc test consequent frames ih =>
    obtain ⟨⟨below, condition, first⟩, rest⟩ := sound
    rcases fits with ⟨-, fits⟩ | ⟨⟨⟩, -⟩
    exact ih rest (.inl ⟨below, .ifElse condition first fits⟩) attached
  | case3 node loc test frames ih =>
    obtain ⟨⟨below, condition⟩, rest⟩ := sound
    rcases fits with ⟨-, fits⟩ | ⟨⟨⟩, -⟩
    exact ih rest (.inl ⟨below, .whileLoop condition fits⟩) attached
  | case4 node loc initializer test step frames ih =>
    obtain ⟨⟨below, initial, condition, increment⟩, rest⟩ := sound
    rcases fits with ⟨-, fits⟩ | ⟨⟨⟩, -⟩
    exact ih rest (.inl ⟨below, .forLoop initial condition increment fits⟩) attached
  | case5 node loc isDefault frames ih =>
    obtain ⟨below, rest⟩ := sound
    rcases fits with ⟨⟨⟩, -⟩ | ⟨-, fits⟩
    refine ih rest (.inl ⟨below, ?_⟩) attached
    unfold Frame.exportNode
    split
    · exact .exportDefault fits
    · exact .exportNamed fits
  | case6 => cases attached

theorem statementLead_of {k : TokenKind}
    (plain : k ∈ [TokenKind.terminator, .leftBrace, .rightBrace, .rightParen, .keyword .elseKw]) :
    StatementLead (some k) := by
  have expression : ∀ k ∈ [TokenKind.terminator, .leftBrace, .rightBrace, .rightParen,
      .keyword .elseKw], k.precedesExpression = false ∧ k ≠ .bar ∧ k ≠ .arrow ∧ k ≠ .dot := by
    decide
  constructor
  · rintro _ ⟨⟩
    exact (expression k plain).1
  · rintro _ ⟨⟩
    exact (expression k plain).2

/-- In a frame that lets anything come first, an operand may follow every other kind. -/
theorem leads_any {frames : List Frame} {k : TokenKind} (any : openingOf frames = .any)
    (noPoint : k ≠ .dot)
    (key : colonFollows frames = true →
      Token.precedesKey k = false ∧ Token.endsTypeOnly k = false) :
    Leads frames (some k) where
  object := by intros; rw [any]; rfl
  function := by intros; rw [any]; rfl
  noPoint := by simpa using noPoint
  key := by
    rintro tail _ ⟨⟩
    exact ⟨(key tail).1, by simp [(key tail).2]⟩

/-- Behind a kind that precedes no expression, an operand starts with neither brace nor function. -/
theorem leads_plain {frames : List Frame} {k : TokenKind} (plain : k.precedesExpression = false)
    (other : k ≠ .bar ∧ k ≠ .arrow ∧ k ≠ .dot)
    (key : colonFollows frames = true →
      Token.precedesKey k = false ∧ Token.endsTypeOnly k = false) :
    Leads frames (some k) where
  object := by
    rintro _ ⟨⟩ (precedes | rfl)
    · rw [plain] at precedes
      cases precedes
    · exact absurd rfl other.1
  function := by
    rintro _ ⟨⟩ (precedes | rfl)
    · rw [plain] at precedes
      cases precedes
    · exact absurd rfl other.2.1
  noPoint := by simpa using other.2.2
  key := by
    rintro tail _ ⟨⟩
    exact ⟨(key tail).1, by simp [(key tail).2]⟩

variable {t : Token} {rest : List Token} {last : Option TokenKind} {frames : List Frame} {s : State}

/-- In a frame that lets anything come first and that no colon ends, an operand may follow every
kind but a point. -/
theorem leads_inside {k : TokenKind} (isKind : t.kind = k) (noPoint : k ≠ .dot)
    (any : openingOf frames = .any) (noColon : colonFollows frames = false) :
    Leads frames (some t.kind) := by
  rw [isKind]
  exact leads_any any noPoint (by simp [noColon])

theorem leads_terminator (kind : t.kind = .terminator) (noColon : colonFollows frames = false) :
    Leads frames (some t.kind) := by
  rw [kind]
  exact leads_plain rfl (by decide) (by simp [noColon])

theorem operandState_sound {node : Node} {loc : Location} (sound : FramesSound R frames)
    (awaits : Awaits .expression frames)
    (fits : Fits (.source R) (.expression 10 (openingOf frames) false) node) :
    (operandState node loc .callable frames).Sound R last rest :=
  ⟨sound, awaits, .inl ⟨fits, by simp, by simp⟩⟩

theorem forall_mem_reverse {p : Node → Prop} {nodes : List Node} (each : ∀ n ∈ nodes, p n) :
    ∀ n ∈ nodes.reverse, p n :=
  fun n mem => each n (List.mem_reverse.mp mem)

theorem endDeclarator_sound {declarator : Node} (sound : FramesSound R frames)
    (fits : Fits (.source R) .declarator declarator)
    (ended : endDeclarator t declarator frames = some s) : s.Sound R (some t.kind) rest := by
  have declaration {loc keyword} {done : List Node} (word : keyword ∈ Grammar.declarationWords)
      (each : ∀ d ∈ done, Fits (.source R) .declarator d) : Fits (.source R) .declaration
        (.variableDeclaration loc keyword (declarator :: done).reverse) :=
    .declaration word (by simp) (forall_mem_reverse (List.forall_mem_cons.mpr ⟨fits, each⟩))
  cases endDeclarator_cases ended with
  | next kind =>
    obtain ⟨⟨below, word, each⟩, others⟩ := sound
    exact ⟨⟨⟨below, word, List.forall_mem_cons.mpr ⟨fits, each⟩⟩, others⟩, rfl, by simp [kind]⟩
  | header kind =>
    obtain ⟨⟨-, word, each⟩, below, others⟩ := sound
    exact ⟨⟨⟨below, .initializerVariables (declaration word each)⟩, others⟩, rfl,
      leads_terminator kind rfl⟩
  | statement kind noHeader =>
    obtain ⟨⟨below, word, each⟩, others⟩ := sound
    refine ⟨others, kind ▸ statementLead_of (by decide), ?_⟩
    rcases below with below | below | ⟨forLoc, outer, rfl⟩
    · exact .inl ⟨below, .declared (.declaredVariables (declaration word each))⟩
    · exact .inr ⟨below, .declaredVariables (declaration word each)⟩
    · exact absurd rfl (noHeader forLoc outer)

theorem endParams_sound {owner : ParamOwner} {params : List Node}
    (sound : FramesSound R frames)
    (owned : match owner with
      | .function header => HeaderSound header frames
      | .arrow _ => Awaits .expression frames ∧ tightnessOf frames ≤ 1)
    (each : ∀ p ∈ params, Fits (.source R) .param p) :
    (endParams owner params frames).Sound R last rest := by
  cases owner with
  | function header => exact ⟨sound, owned, each⟩
  | arrow start => exact ⟨sound, owned.1, owned.2, each⟩

theorem endParam_sound {param : Node} (sound : FramesSound R frames)
    (fits : Fits (.source R) .param param) (ended : endParam t param frames = some s) :
    s.Sound R (some t.kind) rest := by
  cases endParam_cases ended with
  | next kind =>
    obtain ⟨⟨owned, each⟩, others⟩ := sound
    exact ⟨⟨⟨owned, List.forall_mem_cons.mpr ⟨fits, each⟩⟩, others⟩, rfl, by simp [kind]⟩
  | last =>
    obtain ⟨⟨owned, each⟩, others⟩ := sound
    exact endParams_sound others owned (forall_mem_reverse (List.forall_mem_cons.mpr ⟨fits, each⟩))

theorem openBody_sound {header : Header} {params : List Node} {result : Node}
    (sound : FramesSound R frames) (headed : HeaderSound header frames)
    (each : ∀ p ∈ params, Fits (.source R) .param p) (typed : ResultSlot (.source R) result)
    (opened : openBody t header params result frames = some s) : s.Sound R (some t.kind) rest := by
  obtain ⟨kind, rfl⟩ := of_ite_some opened
  exact ⟨⟨⟨.inr rfl, by simp⟩, ⟨headed, each, typed⟩, sound⟩, rfl,
    kind ▸ statementLead_of (by decide)⟩

theorem endProperty_sound {property : Node} (sound : FramesSound R frames)
    (fits : Fits (.source R) .property property) (ended : endProperty t property frames = some s) :
    s.Sound R (some t.kind) rest := by
  cases endProperty_cases ended with
  | next kind =>
    obtain ⟨⟨below, opens, each⟩, others⟩ := sound
    exact ⟨⟨⟨below, opens, List.forall_mem_cons.mpr ⟨fits, each⟩⟩, others⟩, rfl, by simp [kind]⟩
  | last =>
    obtain ⟨⟨below, opens, each⟩, others⟩ := sound
    refine operandState_sound others below (.object opens (forall_mem_reverse ?_))
    exact List.forall_mem_cons.mpr ⟨fits, each⟩

/-- A type with everything that ends with it is a type. -/
theorem closeType_sound (frames : List Frame) {node : Node} (sound : FramesSound R frames)
    (awaits : Awaits .type frames) (isType : IsTypeTree .type node) :
    FramesSound R (Frame.closeType node frames).2 ∧
      Awaits .type (Frame.closeType node frames).2 ∧
      IsTypeTree .type (Frame.closeType node frames).1 := by
  fun_induction Frame.closeType node frames with
  | case1 node start done frames ih =>
    obtain ⟨⟨below, each⟩, others⟩ := sound
    refine ih others below (.union (by simp) (forall_mem_reverse ?_))
    exact List.forall_mem_cons.mpr ⟨isType, each⟩
  | case2 node loc params frames ih =>
    obtain ⟨⟨below, each⟩, others⟩ := sound
    exact ih others below (.function each isType)
  | case3 => exact ⟨sound, awaits, isType⟩

theorem namedType_isTypeTree {loc : Location} {name : Text} {arguments : List Node}
    (word : isWordText name = true) (each : ∀ a ∈ arguments, IsTypeTree .type a) :
    IsTypeTree .type (namedType loc name arguments) := by
  unfold namedType
  split
  · exact .word word
  · exact .reference word each

theorem endMembers_sound (sound : FramesSound R frames) (kind : t.kind = .rightBrace)
    (ended : endMembers frames = some s) : s.Sound R (some t.kind) rest := by
  cases endMembers_cases ended with
  | literal =>
    obtain ⟨⟨below, each⟩, others⟩ := sound
    exact ⟨others, below, .literal (forall_mem_reverse each), nofun⟩
  | interface =>
    obtain ⟨⟨⟨below, nameLoc, name, rfl, word⟩, each⟩, others⟩ := sound
    refine ⟨others, kind ▸ statementLead_of (by decide), .inl ⟨below, ?_⟩⟩
    exact .interface (.mk word (forall_mem_reverse each))

theorem endMember_sound {member : Node} (sound : FramesSound R frames)
    (isMember : IsTypeTree .signature member) (ended : endMember t member frames = some s) :
    s.Sound R (some t.kind) rest := by
  have extended {loc owner done below} (sound : FramesSound R (.members loc owner done :: below)) :
      FramesSound R (.members loc owner (member :: done) :: below) :=
    ⟨⟨sound.1.1, List.forall_mem_cons.mpr ⟨isMember, sound.1.2⟩⟩, sound.2⟩
  cases endMember_cases ended with
  | next => exact ⟨extended sound, rfl⟩
  | last kind ended => exact endMembers_sound (extended sound) kind ended

theorem declaratorNode_fits {name : Token} {typing value : Node}
    (bound : Binder (.source R) (identifier name typing))
    (fits : Fits (.source R) (.optional 1 .any) value) :
    Fits (.source R) .declarator (declaratorNode name typing value) :=
  .declarator bound fits

theorem paramNode_fits {name : Token} {typing value : Node}
    (bound : Binder (.source R) (identifier name typing))
    (fits : Fits (.source R) (.optional 1 .any) value) :
    Fits (.source R) .param (paramNode name typing value) := by
  unfold paramNode
  split
  · exact .param bound
  · rename_i present
    cases fits with
    | omitted => exact absurd rfl present
    | given inner => exact .defaultParam bound inner

theorem deliverType_sound {type : Node} (sound : FramesSound R frames)
    (isType : IsTypeTree .type type) (delivered : deliverType t type frames = some s) :
    s.Sound R (some t.kind) rest := by
  have bound {name : Token} (word : isWordText name.text = true) :
      Binder (.source R) (identifier name type) := .typed ⟨word, isType⟩
  cases deliverType_cases delivered with
  | group => exact ⟨sound.2, sound.1, isType, nofun⟩
  | argument =>
    obtain ⟨⟨below, word, each⟩, others⟩ := sound
    exact ⟨⟨⟨below, word, List.forall_mem_cons.mpr ⟨isType, each⟩⟩, others⟩, rfl⟩
  | arguments =>
    obtain ⟨⟨below, word, each⟩, others⟩ := sound
    refine ⟨others, below, namedType_isTypeTree word (forall_mem_reverse ?_), nofun⟩
    exact List.forall_mem_cons.mpr ⟨isType, each⟩
  | member ended =>
    obtain ⟨⟨-, spelled⟩, others⟩ := sound
    exact endMember_sound others (.signature spelled isType) ended
  | typeParam =>
    obtain ⟨⟨-, word⟩, ⟨below, each⟩, others⟩ := sound
    exact ⟨⟨⟨below, List.forall_mem_cons.mpr ⟨.binding word isType, each⟩⟩, others⟩, rfl⟩
  | typeParams =>
    obtain ⟨⟨-, word⟩, ⟨below, each⟩, others⟩ := sound
    refine ⟨others, below, forall_mem_reverse ?_⟩
    exact List.forall_mem_cons.mpr ⟨.binding word isType, each⟩
  | declaratorValue kind | paramDefault kind =>
    obtain ⟨⟨below, word⟩, others⟩ := sound
    exact ⟨⟨⟨below, bound word⟩, others⟩, rfl, leads_inside kind (by decide) rfl rfl⟩
  | declarator ended =>
    obtain ⟨⟨-, word⟩, others⟩ := sound
    exact endDeclarator_sound others (declaratorNode_fits (bound word) .omitted) ended
  | param ended =>
    obtain ⟨⟨-, word⟩, others⟩ := sound
    exact endParam_sound others (paramNode_fits (bound word) .omitted) ended
  | result opened =>
    obtain ⟨⟨headed, each⟩, others⟩ := sound
    exact openBody_sound others headed each (.some isType) opened

theorem typeStart_sound (sound : FramesSound R frames) (awaits : Awaits .type frames)
    (formed : Token.Formed t.kind t.text) (started : typeStart t frames = some s) :
    s.Sound R (some t.kind) rest := by
  cases typeStart_cases started with
  | name kind =>
    rw [kind] at formed
    refine ⟨sound, awaits, namedType_isTypeTree formed (by simp), ?_⟩
    rintro _ ⟨⟩
    exact formed
  | word kind =>
    refine ⟨sound, awaits, .word ?_, nofun⟩
    rcases kind with kind | kind <;>
      · rw [kind] at formed
        rw [show t.text = _ from formed]
        decide
  | literal | params => exact ⟨⟨⟨awaits, by simp⟩, sound⟩, rfl⟩
  | group => exact ⟨⟨awaits, sound⟩, rfl⟩

theorem typeNext_sound {x : TypeOperand} (sound : FramesSound R frames)
    (awaits : Awaits .type frames) (isType : IsTypeTree .type x.node)
    (bare : ∀ name, x.bare = some name → isWordText name = true)
    (next : typeNext t x frames = some s) : s.Sound R (some t.kind) rest := by
  cases typeNext_cases next with
  | array => exact ⟨sound, awaits, isType⟩
  | arguments _ named => exact ⟨⟨⟨awaits, bare _ named, by simp⟩, sound⟩, rfl⟩
  | member =>
    obtain ⟨⟨below, each⟩, others⟩ := sound
    exact ⟨⟨⟨below, List.forall_mem_cons.mpr ⟨isType, each⟩⟩, others⟩, rfl⟩
  | union => exact ⟨⟨⟨awaits, by simpa using isType⟩, sound⟩, rfl⟩
  | ends delivered =>
    obtain ⟨sound', -, isType'⟩ := closeType_sound frames sound awaits isType
    exact deliverType_sound sound' isType' delivered

theorem typeParamStart_sound {isFirst : Bool} (sound : FramesSound R frames)
    (awaits : Awaits .typeParam frames) (formed : Token.Formed t.kind t.text)
    (started : typeParamStart t isFirst frames = some s) : s.Sound R (some t.kind) rest := by
  cases typeParamStart_cases started with
  | name kind => exact ⟨sound, awaits, (kind ▸ formed :)⟩
  | none => exact ⟨sound.2, sound.1.1, forall_mem_reverse sound.1.2⟩

theorem memberStart_sound (sound : FramesSound R frames) (awaits : Awaits .member frames)
    (formed : Token.Formed t.kind t.text) (started : memberStart t frames = some s) :
    s.Sound R (some t.kind) rest := by
  cases memberStart_cases started with
  | name kind => exact ⟨sound, awaits, .name (kind ▸ formed :)⟩
  | string kind => exact ⟨sound, awaits, .string (kind ▸ formed :)⟩
  | number kind => exact ⟨sound, awaits, .number (kind ▸ formed :)⟩
  | none kind ended => exact endMembers_sound sound kind ended

theorem memberNext_sound {loc : Location} {key : MemberKey} (sound : FramesSound R frames)
    (awaits : Awaits .member frames) (spelled : SpelledKey key)
    (next : memberNext t loc key frames = some s) : s.Sound R (some t.kind) rest := by
  cases memberNext_cases next with
  | optional => exact ⟨sound, awaits, spelled⟩
  | required => exact ⟨⟨⟨awaits, spelled⟩, sound⟩, rfl⟩

theorem text_of_sign {kind : TokenKind} {texts : List Text}
    (only : ∀ sign ∈ Lexeme.signs, sign.2 = kind → sign.1 ∈ texts) {text : Text}
    (spells : (text, kind) ∈ Lexeme.signs) : text ∈ texts :=
  only _ spells rfl

theorem mem_levelSigns {level : Level} (formed : Token.Formed t.kind t.text)
    (found : Level.ofKind? t.kind = some level) : t.text ∈ Grammar.levelSigns level := by
  cases kind : t.kind with
  | keyword word =>
    rw [kind] at formed found
    cases word with
    | instanceofKw =>
      obtain rfl := Option.some.inj found
      rw [show t.text = Keyword.instanceofKw.spelling from formed]
      decide
    | _ => cases found
  | orOp | nullish | andOp | equality | less | greater | additive | multiplicative =>
    rw [kind] at formed found
    obtain rfl := Option.some.inj found
    exact text_of_sign (by decide) formed
  | _ => rw [kind] at found; cases found

theorem mem_assignSigns (formed : Token.Formed t.kind t.text)
    (kind : t.kind = .assign ∨ t.kind = .compoundAssign) : t.text ∈ Grammar.assignSigns := by
  rcases kind with kind | kind <;>
    · rw [kind] at formed
      exact text_of_sign (by decide) formed

theorem mem_updateSigns (formed : Token.Formed t.kind t.text) (kind : t.kind = .incDec) :
    t.text ∈ Grammar.updateSigns := by
  rw [kind] at formed
  exact text_of_sign (by decide) formed

theorem mem_declarationWords (formed : Token.Formed t.kind t.text)
    (kind : t.kind ∈ declarationKinds) : t.text ∈ Grammar.declarationWords := by
  rw [declarationKinds, List.mem_cons, List.mem_cons, List.mem_singleton] at kind
  rcases kind with kind | kind | kind <;>
    · rw [kind] at formed
      rw [show t.text = _ from formed]
      decide

end Parse

end TypeGloss
