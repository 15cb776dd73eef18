import TypeGloss.Proofs.Soundness.Frames

/-!
# Expressions that are read fit the grammar

Behind an operand, a token extends it, makes it an operand or ends the expression; where an operand
is due, a token starts one. In each case the state behind the token is sound.
-/

namespace TypeGloss

open Lexeme (IsName isWordText)
open Grammar (Opening Fits Binder ResultSlot NameSlot)

namespace Parse

variable {R : Prop} {t : Token} {rest : List Token} {last : Option TokenKind} {node : Node}
  {frames : List Frame} {s : State}

/-- What is known of a whole expression and of the frames that take it next. -/
structure DeliveredLast (R : Prop) (node : Node) (frames : List Frame) : Prop where
  sound : FramesSound R frames
  fits : Fits (.source R)
    (.expression (tightnessOf frames) (openingOf frames) (colonFollows frames)) node

theorem Delivered.whole (item : Delivered R node frames) : DeliveredLast R node frames :=
  ⟨item.sound, item.fits.weaken rfl item.loose .refl id⟩

theorem endValue_sound (item : DeliveredLast R node frames) (ended : EndValue t node frames s) :
    s.Sound R (some t.kind) rest := by
  obtain ⟨sound, fits⟩ := item
  cases ended with
  | property ended => exact endProperty_sound sound.2 (.property sound.1.2 fits) ended
  | declarator ended =>
    exact endDeclarator_sound sound.2 (declaratorNode_fits sound.1.2 (.given fits)) ended
  | param ended => exact endParam_sound sound.2 (paramNode_fits sound.1.2 (.given fits)) ended

theorem deliverItem_sound {start : Location} (item : Delivered R node frames)
    (kind : t.kind = .comma) (delivered : deliverItem t node start frames = some s) :
    s.Sound R (some t.kind) rest := by
  have whole := item.whole
  obtain ⟨sound, awaits, loose, fits⟩ := item
  cases deliverItem_cases delivered with
  | sequence =>
    obtain ⟨⟨below, takes, first, others, order, leading, each⟩, outer⟩ := sound
    refine ⟨⟨⟨below, takes, first, others ++ [node], by simp [order], leading, ?_⟩, outer⟩, rfl,
      leads_inside kind (by decide) rfl rfl⟩
    exact List.forall_mem_append.mpr ⟨each, List.forall_mem_singleton.mpr fits⟩
  | argument =>
    obtain ⟨⟨below, called, each⟩, outer⟩ := sound
    exact ⟨⟨⟨below, called, List.forall_mem_cons.mpr ⟨fits, each⟩⟩, outer⟩, rfl,
      leads_inside kind (by decide) rfl rfl⟩
  | element =>
    obtain ⟨⟨below, each⟩, outer⟩ := sound
    exact ⟨⟨⟨below, List.forall_mem_cons.mpr ⟨.given fits, each⟩⟩, outer⟩, rfl,
      leads_inside kind (by decide) rfl rfl⟩
  | value ended => exact endValue_sound whole ended
  | @first frame frames takes =>
    have takes' : takesSequence (frame :: frames) = true := takes
    rw [(tightnessOf_of_takesSequence takes').2] at fits
    exact ⟨⟨⟨awaits, takes, node, [], rfl, fits, by simp⟩, sound⟩, rfl,
      leads_inside kind (by decide) rfl rfl⟩

theorem endSequence_sound {start : Location} (item : Delivered R node frames) :
    DeliveredLast R (endSequence node start frames).1 (endSequence node start frames).2.2 := by
  have whole := item.whole
  obtain ⟨sound, awaits, loose, fits⟩ := item
  unfold endSequence
  split
  case h_1 seqStart done frames =>
    obtain ⟨⟨below, takes, first, others, order, leading, each⟩, outer⟩ := sound
    refine ⟨outer, ?_⟩
    have all : (node :: done).reverse = first :: (others ++ [node]) := by simp [order]
    simp only [all]
    refine .sequence (tightnessOf_of_takesSequence takes).1 (by simp) leading ?_
    exact List.forall_mem_append.mpr ⟨each, List.forall_mem_singleton.mpr fits⟩
  case h_2 => exact whole

theorem callNode_fits {isNew : Bool} {start : Location} {callee : Node} {arguments : List Node}
    {o : Opening}
    (called : Fits (.source R) (if isNew then .callee else .expression 10 o false) callee)
    (each : ∀ a ∈ arguments, Fits (.source R) (.expression 1 .any false) a) :
    Fits (.source R) (.expression 10 o false) (callNode isNew start callee arguments) := by
  cases isNew with
  | false => exact .call called each
  | true => exact .construction called each

theorem deliverLast_sound {start : Location} (item : DeliveredLast R node frames)
    (delivered : deliverLast t node start frames = some s) : s.Sound R (some t.kind) rest := by
  have whole := item
  obtain ⟨sound, fits⟩ := item
  cases deliverLast_cases delivered with
  | consequent kind =>
    obtain ⟨⟨below, loose, condition⟩, outer⟩ := sound
    refine ⟨⟨⟨below, loose, condition, fits⟩, outer⟩, rfl, ?_⟩
    rw [kind]
    exact leads_any rfl (by decide) (fun _ => ⟨rfl, rfl⟩)
  | group => exact operandState_sound sound.2 sound.1 (Fits.wrap fits)
  | index => exact operandState_sound sound.2 sound.1.1 (.index sound.1.2 fits)
  | arguments =>
    obtain ⟨⟨below, called, each⟩, outer⟩ := sound
    refine operandState_sound outer below (callNode_fits called (forall_mem_reverse ?_))
    exact List.forall_mem_cons.mpr ⟨fits, each⟩
  | array =>
    obtain ⟨⟨below, each⟩, outer⟩ := sound
    refine operandState_sound outer below (.array (forall_mem_reverse ?_))
    exact List.forall_mem_cons.mpr ⟨.given fits, each⟩
  | value ended => exact endValue_sound whole ended
  | ifTest kind | whileTest kind =>
    exact ⟨⟨⟨sound.1, fits⟩, sound.2⟩, rfl, kind ▸ statementLead_of (by decide)⟩
  | forStep kind =>
    obtain ⟨⟨below, initial, condition⟩, outer⟩ := sound
    exact ⟨⟨⟨below, initial, condition, .given fits⟩, outer⟩, rfl,
      kind ▸ statementLead_of (by decide)⟩
  | forInit kind =>
    exact ⟨⟨⟨sound.1, .initializerExpression fits⟩, sound.2⟩, rfl, leads_terminator kind rfl⟩
  | forTest kind =>
    obtain ⟨⟨below, initial⟩, outer⟩ := sound
    exact ⟨⟨⟨below, initial, .given fits⟩, outer⟩, rfl, leads_terminator kind rfl⟩
  | expression kind =>
    exact ⟨sound.2, kind ▸ statementLead_of (by decide), .inl ⟨sound.1, .expressionStatement fits⟩⟩
  | returned kind =>
    exact ⟨sound.2, kind ▸ statementLead_of (by decide), .inl ⟨sound.1, .returned (.given fits)⟩⟩
  | thrown kind => exact ⟨sound.2, kind ▸ statementLead_of (by decide), .inl ⟨sound.1, .thrown fits⟩⟩

/-- Only the first branch of a condition ends at a colon. -/
theorem deliverLast_colon {start : Location} (kind : t.kind = .colon)
    (delivered : deliverLast t node start frames = some s) : colonFollows frames = true := by
  cases deliverLast_cases delivered with
  | consequent => rfl
  | value ended =>
    cases ended with
    | property ended => cases endProperty_cases ended <;> simp_all
    | declarator ended => cases endDeclarator_cases ended <;> simp_all
    | param ended => cases endParam_cases ended <;> simp_all
  | _ => rename_i other; cases kind.symm.trans other

theorem framesSound_close (frames : List Frame) (node : Node) (start : Location)
    (sound : FramesSound R frames) : FramesSound R (Frame.close node start frames).2.2 := by
  fun_induction Frame.close node start frames with
  | case7 => exact sound
  | _ => rename_i ih; exact ih sound.2

/-- An expression that ends at a colon is the first branch of a condition. -/
theorem expressionEnd_colon {x : Operand} (sound : FramesSound R frames) (kind : t.kind = .colon)
    (ended : expressionEnd t x frames = some s) : colonFollows frames = true := by
  rw [← colonFollows_close frames x.node x.start]
  have closed := framesSound_close frames x.node x.start sound
  simp only [expressionEnd, kind, reduceCtorEq, if_false] at ended
  have colon := deliverLast_colon kind ended
  revert closed colon
  generalize (Frame.close x.node x.start frames).2.2 = below
  intro closed colon
  unfold endSequence at colon
  split at colon
  · have takes := closed.1.2.1
    rw [(tightnessOf_of_takesSequence takes).2] at colon
    cases colon
  · exact colon

theorem tightnessOf_le_eight (frames : List Frame) : tightnessOf frames ≤ 8 := by
  match frames with
  | [] => exact Nat.zero_le 8
  | frame :: _ =>
    cases frame <;> simp [tightnessOf, Frame.tightness]
    rename_i level
    cases level <;> decide

/-- Everything that ends with an expression takes it in, also when it is a reserved word. -/
theorem close_operand {x : Operand} (sound : FramesSound R frames)
    (awaits : Awaits .expression frames) (operand : x.Sound R frames (t :: rest))
    (colon : t.kind = .colon → colonFollows frames = true) :
    Delivered R (Frame.close x.node x.start frames).1 (Frame.close x.node x.start frames).2.2 := by
  rcases operand with ⟨fits, complete, -⟩ |
    ⟨allowed, ⟨u, first, kind⟩, ⟨loc, name, node, word⟩, place⟩
  · have positive : 1 ≤ x.grip.tightness := by cases x.grip <;> decide
    have fits' : Fits (.source R)
        (.expression x.grip.tightness (openingOf frames) (colonFollows frames)) x.node :=
      fits.weaken rfl (Nat.le_refl _) .refl (by simp)
    refine close_sound frames sound awaits fits' ?_ positive
    have eight := tightnessOf_le_eight frames
    cases grip : x.grip with
    | name | callable | operand => simp only [Grip.tightness]; omega
    | complete => exact complete grip
  · obtain rfl : t = u := by simpa using first
    have tail := colon kind
    rw [node]
    rcases place with ⟨unaryLoc, below, rfl⟩ | ⟨start, left, below, rfl⟩
    · obtain ⟨⟨awaits', loose, -⟩, outer⟩ := sound
      have tail' : colonFollows below = true := tail
      refine close_sound below outer awaits' ?_ loose (by decide)
      rw [tail']
      exact .reservedUnary allowed (Nat.le_refl 8) word
    · obtain ⟨⟨awaits', loose, -, first⟩, outer⟩ := sound
      have tail' : colonFollows below = true := tail
      refine close_sound below outer awaits' ?_ loose (by decide)
      rw [tail']
      exact .reservedRight allowed (Nat.le_refl _) first word

theorem expressionEnd_sound {x : Operand} (sound : FramesSound R frames)
    (awaits : Awaits .expression frames) (operand : x.Sound R frames (t :: rest))
    (ended : expressionEnd t x frames = some s) : s.Sound R (some t.kind) rest := by
  have closed := close_operand sound awaits operand
    (fun kind => expressionEnd_colon sound kind ended)
  simp only [expressionEnd] at ended
  split at ended
  case isTrue kind => exact deliverItem_sound closed kind ended
  case isFalse => exact deliverLast_sound (endSequence_sound closed) ended

theorem suffix_sound {x : Operand} (sound : FramesSound R frames)
    (awaits : Awaits .expression frames) (formed : Token.Formed t.kind t.text)
    (fits : Fits (.source R) (.expression 10 (openingOf frames) false) x.node)
    (extended : Suffix t x frames s) : s.Sound R (some t.kind) rest := by
  cases extended with
  | call kind =>
    exact ⟨⟨⟨awaits, fits, by simp⟩, sound⟩, rfl, leads_inside kind (by decide) rfl rfl⟩
  | member => exact ⟨sound, awaits, fits⟩
  | index kind => exact ⟨⟨⟨awaits, fits⟩, sound⟩, rfl, leads_inside kind (by decide) rfl rfl⟩
  | update kind =>
    refine ⟨sound, awaits, .inl ⟨?_, by simp, by simp⟩⟩
    exact .updateBehind (Nat.le_refl 9) (mem_updateSigns formed kind) fits

theorem bindingSign_sound {x : Operand} (sound : FramesSound R frames)
    (awaits : Awaits .expression frames) (loose : tightnessOf frames ≤ 1)
    (formed : Token.Formed t.kind t.text)
    (fits : Fits (.source R) (.expression 10 (openingOf frames) false) x.node)
    (binder : x.grip = .name → Binder (.source R) x.node) (bound : BindingSign t x frames s) :
    s.Sound R (some t.kind) rest := by
  cases bound with
  | assignment kind =>
    refine ⟨⟨⟨awaits, loose, mem_assignSigns formed kind, fits⟩, sound⟩, rfl, ?_⟩
    rcases kind with kind | kind <;>
      · rw [kind]
        exact leads_any rfl (by decide) (fun _ => ⟨rfl, rfl⟩)
  | arrow kind grip =>
    exact ⟨sound, awaits, loose, by simpa using Fits.param (binder grip), by rw [kind]⟩

private theorem key_of_level {k : TokenKind} {level : Level} (found : Level.ofKind? k = some level)
    (other : ¬(k = .less ∨ k = .greater)) :
    k ≠ .dot ∧ Token.precedesKey k = false ∧ Token.endsTypeOnly k = false := by
  cases k with
  | keyword word => cases word <;> simp_all [Level.ofKind?, Token.precedesKey, Token.endsTypeOnly]
  | less | greater => simp at other
  | orOp | nullish | andOp | equality | additive | multiplicative => exact ⟨by decide, rfl, rfl⟩
  | _ => cases found

theorem infixNext_sound {x : Operand} (sound : FramesSound R frames)
    (awaits : Awaits .expression frames) (formed : Token.Formed t.kind t.text)
    (fits : Fits (.source R) (.expression 9 (openingOf frames) false) x.node)
    (operand : x.Sound R frames (t :: rest)) (next : InfixNext t x frames s) :
    s.Sound R (some t.kind) rest := by
  have eight := tightnessOf_le_eight frames
  have left (level : Level) :=
    closeTighter_sound level frames x.start sound awaits fits (by omega) (by cases level <;> decide)
  cases next with
  | @comparison level _ found kind closed =>
    subst closed
    obtain ⟨sound', awaits', tight, -, fits'⟩ := left level
    rcases kind with kind | kind <;> rw [kind] at found formed ⊢ <;>
      obtain rfl := Option.some.inj found
    · exact ⟨sound', awaits', tight, fits',
        .inl ⟨rfl, List.mem_singleton.mp (text_of_sign (by decide) formed)⟩⟩
    · exact ⟨sound', awaits', tight, fits',
        .inr ⟨rfl, List.mem_singleton.mp (text_of_sign (by decide) formed)⟩⟩
  | @operator level _ found kind closed =>
    subst closed
    obtain ⟨sound', awaits', tight, -, fits'⟩ := left level
    obtain ⟨noPoint, noKey, noType⟩ := key_of_level found kind
    exact ⟨⟨⟨awaits', tight, mem_levelSigns formed found, fits'⟩, sound'⟩, rfl,
      leads_any rfl noPoint fun _ => ⟨noKey, noType⟩⟩
  | question kind closed =>
    subst closed
    obtain ⟨sound', awaits', -, loose, fits'⟩ := left .orElse
    refine ⟨⟨⟨awaits', loose rfl, fits'⟩, sound'⟩, rfl, ?_⟩
    rw [kind]
    exact leads_any rfl (by decide) (fun _ => ⟨rfl, rfl⟩)
  | ends ended => exact expressionEnd_sound sound awaits operand ended

/-- A colon behind an operand ends the expression. -/
theorem operatorNext_colon {x : Operand} (kind : t.kind = .colon) :
    operatorNext t x frames = expressionEnd t x frames := by
  unfold operatorNext
  cases x.grip <;> simp [suffix?, binding?, infixNext, kind, Level.ofKind?]

theorem operatorNext_sound {x : Operand} (sound : FramesSound R frames)
    (awaits : Awaits .expression frames) (formed : Token.Formed t.kind t.text)
    (operand : x.Sound R frames (t :: rest)) (next : operatorNext t x frames = some s) :
    s.Sound R (some t.kind) rest := by
  have known := operand
  rcases known with ⟨fits, complete, binder⟩ | ⟨-, ⟨u, first, kind⟩, -⟩
  · have tight {n : Nat} (tight : n ≤ x.grip.tightness) :
        Fits (.source R) (.expression n (openingOf frames) false) x.node :=
      fits.weaken rfl tight .refl id
    cases operatorNext_cases next with
    | ends _ ended => exact expressionEnd_sound sound awaits operand ended
    | operator grip next =>
      have nine : 9 ≤ x.grip.tightness := by cases grip' : x.grip <;> simp_all [Grip.tightness]
      exact infixNext_sound sound awaits formed (tight nine) operand next
    | suffix grip extended =>
      have ten : 10 ≤ x.grip.tightness := by rcases grip with grip | grip <;> rw [grip] <;> decide
      exact suffix_sound sound awaits formed (tight ten) extended
    | binding grip free bound =>
      have ten : 10 ≤ x.grip.tightness := by rcases grip with grip | grip <;> rw [grip] <;> decide
      exact bindingSign_sound sound awaits (tightnessOf_le_one free) formed (tight ten) binder bound
  · -- A reserved word is followed by a colon, which ends the expression.
    obtain rfl : t = u := by simpa using first
    rw [operatorNext_colon kind] at next
    exact expressionEnd_sound sound awaits operand next

/-- Words that declare variables start a list of declarators. -/
theorem declarators_sound (sound : FramesSound R frames)
    (place : Awaits .statement frames ∨ Awaits .declared frames ∨
      ∃ loc below, frames = .forInit loc :: below)
    (formed : Token.Formed t.kind t.text) (kind : t.kind ∈ declarationKinds) :
    State.Sound R (some t.kind) rest
      ⟨.declaratorName, .declarators t.loc t.text [] :: frames⟩ := by
  refine ⟨⟨⟨place, mem_declarationWords formed kind, by simp⟩, sound⟩, rfl, ?_⟩
  intro point
  rw [Option.some.inj point] at kind
  revert kind
  decide

theorem omission_sound (sound : FramesSound R frames) (formed : Token.Formed t.kind t.text)
    (omitted : Omission t frames s) : s.Sound R (some t.kind) rest := by
  cases omitted with
  | arguments =>
    obtain ⟨⟨below, called, -⟩, outer⟩ := sound
    exact operandState_sound outer below (callNode_fits called (by simp))
  | hole kind =>
    obtain ⟨⟨below, each⟩, outer⟩ := sound
    exact ⟨⟨⟨below, List.forall_mem_cons.mpr ⟨.omitted, each⟩⟩, outer⟩, rfl,
      leads_inside kind (by decide) rfl rfl⟩
  | array =>
    obtain ⟨⟨below, each⟩, outer⟩ := sound
    exact operandState_sound outer below (.array (forall_mem_reverse each))
  | value kind =>
    exact ⟨sound.2, kind ▸ statementLead_of (by decide), .inl ⟨sound.1, .returned .omitted⟩⟩
  | initializer kind =>
    exact ⟨⟨⟨sound.1, .noInitializer⟩, sound.2⟩, rfl, leads_terminator kind rfl⟩
  | declaration kind => exact declarators_sound sound (.inr (.inr ⟨_, _, rfl⟩)) formed kind
  | test kind =>
    obtain ⟨⟨below, initial⟩, outer⟩ := sound
    exact ⟨⟨⟨below, initial, .omitted⟩, outer⟩, rfl, leads_terminator kind rfl⟩
  | step kind =>
    obtain ⟨⟨below, initial, condition⟩, outer⟩ := sound
    exact ⟨⟨⟨below, initial, condition, .omitted⟩, outer⟩, rfl, kind ▸ statementLead_of (by decide)⟩

/-- Nothing starts with a colon where an operand is due. -/
theorem operandStart_colon (kind : t.kind = .colon) : operandStart t frames = none := by
  simp only [operandStart, atom?, opening?, kind, reduceCtorEq, if_false]
  unfold omission?
  split <;> simp [kind]

/-- A name that stands as an operand is no reserved word, unless it stands before a colon behind one
of two operators. -/
theorem nameOperand_sound (sound : FramesSound R frames) (leads : Leads frames last)
    (lawful : Token.LawfulAt R last t rest) (kind : t.kind = .name)
    (reads : (read? (operandState (identifier t .absent) t.loc .name frames) rest).isSome = true) :
    Operand.Sound R ⟨identifier t .absent, t.loc, .name⟩ frames rest := by
  have word : isWordText t.text = true := by
    have formed := lawful.formed
    rwa [kind] at formed
  rcases lawful.name kind with isName | point | ⟨follows, k, isLast, before⟩
  · exact .inl ⟨.name isName, by simp, fun _ => .plain isName⟩
  · exact absurd point leads.noPoint
  · cases rest with
    | nil => cases follows
    | cons next later =>
      simp only [Token.keyFollows, Bool.or_eq_true, decide_eq_true_eq, Bool.and_eq_true] at follows
      rw [read?_cons] at reads
      rcases follows with colon | ⟨question, colon⟩
      · -- The colon ends the expression, which is then the first branch of a condition.
        have ends : step (operandState (identifier t .absent) t.loc .name frames) next =
            expressionEnd next ⟨identifier t .absent, t.loc, .name⟩ frames := by
          simp [step, operandState, operatorNext_colon colon]
        rw [ends] at reads
        cases ended : expressionEnd next ⟨identifier t .absent, t.loc, .name⟩ frames with
        | none => simp [ended] at reads
        | some s =>
          obtain ⟨noKey, place⟩ :=
            leads.key (expressionEnd_colon sound colon ended) k isLast
          rcases before with key | ⟨typeOnly, allowed⟩
          · rw [noKey] at key
            cases key
          · exact .inr ⟨allowed, ⟨next, rfl, colon⟩, ⟨_, _, rfl, word⟩, place typeOnly⟩
      · -- Behind the question mark an operand is due, and a colon is none.
        exfalso
        cases later with
        | nil => simp at colon
        | cons second later =>
          have colon : second.kind = .colon := by simpa using colon
          simp [step, operandState, operatorNext, suffix?, binding?, infixNext, question,
            Level.ofKind?, read?_cons, operandStart_colon colon] at reads

private theorem mem_unarySigns (formed : Token.Formed t.kind t.text)
    (kind : t.kind ∈ unaryKinds) : t.text ∈ Grammar.unarySigns := by
  simp only [unaryKinds, List.mem_cons, List.not_mem_nil, or_false] at kind
  rcases kind with kind | kind | kind | kind | kind | kind <;> rw [kind] at formed
  case inl | inr.inl | inr.inr.inl => exact text_of_sign (by decide) formed
  all_goals
    rw [show t.text = _ from formed]
    decide

private theorem leads_unary {loc : Location} (formed : Token.Formed t.kind t.text)
    (kind : t.kind ∈ unaryKinds) : Leads (.unary loc t.text :: frames) (some t.kind) where
  object := by intros; rfl
  function := by intros; rfl
  noPoint := by
    intro point
    rw [Option.some.inj point] at kind
    revert kind
    decide
  key := by
    rintro - k ⟨⟩
    simp only [unaryKinds, List.mem_cons, List.not_mem_nil, or_false] at kind
    rcases kind with kind | kind | kind | kind | kind | kind <;> rw [kind] at formed ⊢
    case inr.inr.inr.inr.inl =>
      exact ⟨rfl, fun _ => .inl ⟨loc, frames, by rw [show t.text = _ from formed]; rfl⟩⟩
    all_goals exact ⟨rfl, fun impossible => by cases impossible⟩

theorem openingToken_sound {focus : Focus} {opened : List Frame} (sound : FramesSound R frames)
    (awaits : Awaits .expression frames) (leads : Leads frames last)
    (lawful : Token.LawfulAt R last t rest) (found : OpeningToken t focus opened) :
    State.Sound R (some t.kind) rest ⟨focus, opened ++ frames⟩ := by
  have formed := lawful.formed
  have eight := tightnessOf_le_eight frames
  cases found with
  | group kind => exact ⟨⟨awaits, sound⟩, rfl, leads_inside kind (by decide) rfl rfl⟩
  | array kind => exact ⟨⟨⟨awaits, by simp⟩, sound⟩, rfl, leads_inside kind (by decide) rfl rfl⟩
  | object kind =>
    obtain ⟨k, isLast, precedes⟩ := lawful.brace kind
    exact ⟨⟨⟨awaits, leads.object k isLast precedes, by simp⟩, sound⟩, rfl, by simp [kind]⟩
  | function kind =>
    obtain ⟨k, isLast, precedes⟩ := lawful.function kind
    exact ⟨sound, ⟨awaits, leads.function k isLast precedes⟩, .inr (by rw [kind])⟩
  | construction kind => exact ⟨sound, awaits, by rw [kind]⟩
  | unary kind =>
    exact ⟨⟨⟨awaits, eight, mem_unarySigns formed kind⟩, sound⟩, rfl, leads_unary formed kind⟩
  | update kind =>
    refine ⟨⟨⟨awaits, eight, mem_updateSigns formed kind⟩, sound⟩, rfl, ?_⟩
    rw [kind]
    exact leads_plain rfl (by decide) (fun _ => ⟨rfl, rfl⟩)

theorem operandStart_sound (sound : FramesSound R frames) (awaits : Awaits .expression frames)
    (leads : Leads frames last) (lawful : Token.LawfulAt R last t rest)
    (started : operandStart t frames = some s) (reads : (read? s rest).isSome = true) :
    s.Sound R (some t.kind) rest := by
  have formed := lawful.formed
  cases operandStart_cases started with
  | atom found =>
    cases found with
    | name kind => exact ⟨sound, awaits, nameOperand_sound sound leads lawful kind reads⟩
    | number kind => exact operandState_sound sound awaits (.number (kind ▸ formed :))
    | string kind => exact operandState_sound sound awaits (.string (kind ▸ formed :))
    | template kind => exact operandState_sound sound awaits (.template (kind ▸ formed :))
    | true | false => exact operandState_sound sound awaits .boolean
    | null => exact operandState_sound sound awaits .null
    | this => exact operandState_sound sound awaits .this
  | opening found => exact openingToken_sound sound awaits leads lawful found
  | arrow kind free =>
    exact ⟨⟨⟨⟨awaits, tightnessOf_le_one free⟩, by simp⟩, sound⟩, rfl, by simp [kind]⟩
  | omission found => exact omission_sound sound formed found

theorem comparisonNext_sound {left : Operand} {sign : Text} (sound : FramesSound R frames)
    (awaits : Awaits .expression frames) (tight : tightnessOf frames ≤ 5)
    (fits : Fits (.source R) (.expression 5 (openingOf frames) false) left.node)
    (before : (last = some .less ∧ sign = "<") ∨ (last = some .greater ∧ sign = ">"))
    (lawful : Token.LawfulAt R last t rest) (next : comparisonNext t left sign frames = some s)
    (reads : (read? s rest).isSome = true) : s.Sound R (some t.kind) rest := by
  obtain ⟨kind, rfl⟩ | ⟨-, started⟩ := of_ite_some_else next
  · have formed := lawful.formed
    rw [kind] at formed ⊢
    have text : t.text = "=" := List.mem_singleton.mp (text_of_sign (by decide) formed)
    refine ⟨⟨⟨awaits, tight, ?_, fits⟩, sound⟩, rfl, leads_any rfl (by decide) fun _ => ⟨rfl, rfl⟩⟩
    rw [text]
    rcases before with ⟨-, rfl⟩ | ⟨-, rfl⟩ <;> decide
  · have operator : sign ∈ Grammar.levelSigns .relational := by
      rcases before with ⟨-, rfl⟩ | ⟨-, rfl⟩ <;> decide
    have sound' : FramesSound R (.rightOf left.start left.node sign .relational :: frames) :=
      ⟨⟨awaits, tight, operator, fits⟩, sound⟩
    refine operandStart_sound sound' rfl ?_ lawful started reads
    rcases before with ⟨rfl, rfl⟩ | ⟨rfl, rfl⟩
    · exact leads_any rfl (by decide) fun _ => ⟨rfl, rfl⟩
    · refine ⟨by intros; rfl, by intros; rfl, by simp, ?_⟩
      rintro - k ⟨⟩
      exact ⟨rfl, fun _ => .inr ⟨_, _, _, rfl⟩⟩

theorem nameSound_of (lawful : Token.LawfulAt R last t rest) (kind : t.kind = .name)
    (noPoint : last ≠ some .dot) : NameSound t rest := by
  have formed := lawful.formed
  rw [kind] at formed
  refine ⟨formed, ?_⟩
  rcases lawful.name kind with isName | point | ⟨follows, -⟩
  · exact .inl isName
  · exact absurd point noPoint
  · exact .inr follows

theorem isName_of (lawful : Token.LawfulAt R last t rest) (kind : t.kind = .name) {k : TokenKind}
    (isLast : last = some k) (noPoint : k ≠ .dot) (noKey : Token.precedesKey k = false)
    (noType : Token.endsTypeOnly k = false) : IsName t.text := by
  rcases lawful.name kind with isName | point | ⟨-, k', isLast', before⟩
  · exact isName
  · exact absurd (Option.some.inj (isLast.symm.trans point)) noPoint
  · obtain rfl := Option.some.inj (isLast.symm.trans isLast')
    simp [noKey, noType] at before

theorem newNext_sound {loc : Location} {callee : Node} (sound : FramesSound R frames)
    (awaits : Awaits .expression frames) (fits : Fits (.source R) .callee callee)
    (next : newNext t loc callee frames = some s) : s.Sound R (some t.kind) rest := by
  cases newNext_cases next with
  | member => exact ⟨sound, awaits, fits⟩
  | arguments kind =>
    exact ⟨⟨⟨awaits, fits, by simp⟩, sound⟩, rfl, leads_inside kind (by decide) rfl rfl⟩

theorem propertyStart_sound (sound : FramesSound R frames) (awaits : Awaits .property frames)
    (noPoint : last ≠ some .dot) (lawful : Token.LawfulAt R last t rest)
    (started : propertyStart t frames = some s) : s.Sound R (some t.kind) rest := by
  have formed := lawful.formed
  cases propertyStart_cases started with
  | name kind => exact ⟨sound, awaits, nameSound_of lawful kind noPoint⟩
  | string kind => exact ⟨sound, awaits, .string (kind ▸ formed :)⟩
  | number kind => exact ⟨sound, awaits, .number (kind ▸ formed :)⟩
  | none =>
    obtain ⟨⟨below, opens, each⟩, outer⟩ := sound
    exact operandState_sound outer below (.object opens (forall_mem_reverse each))

theorem propertyNext_sound {name : Token} (sound : FramesSound R frames)
    (awaits : Awaits .property frames) (named : NameSound name (t :: rest))
    (next : propertyNext t name frames = some s) : s.Sound R (some t.kind) rest := by
  obtain ⟨kind, rfl⟩ | ⟨noColon, ended⟩ := of_ite_some_else next
  · exact ⟨⟨⟨awaits, .name named.1⟩, sound⟩, rfl, leads_inside kind (by decide) rfl rfl⟩
  · rcases named.2 with isName | follows
    · exact endProperty_sound sound (.shorthand isName) ended
    · -- A question mark ends no property.
      simp only [Token.keyFollows, noColon, decide_false, Bool.false_or, Bool.and_eq_true,
        decide_eq_true_eq] at follows
      cases endProperty_cases ended <;> simp_all

theorem arrowBodyStart_sound {start : Location} {params : List Node}
    (sound : FramesSound R frames) (awaits : Awaits .expression frames)
    (loose : tightnessOf frames ≤ 1) (each : ∀ p ∈ params, Fits (.source R) .param p)
    (isLast : last = some .arrow) (lawful : Token.LawfulAt R last t rest)
    (started : arrowBodyStart t start params frames = some s)
    (reads : (read? s rest).isSome = true) : s.Sound R (some t.kind) rest := by
  subst isLast
  obtain ⟨kind, rfl⟩ | ⟨-, started⟩ := of_ite_some_else started
  · exact ⟨⟨⟨.inr rfl, by simp⟩, ⟨awaits, loose, each⟩, sound⟩, rfl,
      kind ▸ statementLead_of (by decide)⟩
  · have sound' : FramesSound R (.arrowResult start params :: frames) :=
      ⟨⟨awaits, loose, each⟩, sound⟩
    refine operandStart_sound sound' rfl ⟨?_, ?_, by simp, ?_⟩ lawful started reads
    · rintro k ⟨⟩ (precedes | impossible)
      · cases precedes
      · cases impossible
    · intros
      rfl
    · rintro - k ⟨⟩
      exact ⟨rfl, fun impossible => by cases impossible⟩

end Parse

end TypeGloss
