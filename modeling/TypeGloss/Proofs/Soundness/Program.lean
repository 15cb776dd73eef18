import TypeGloss.Proofs.Soundness.Expression

/-!
# Programs that are read fit the grammar

The step lemma for every token, and from it by induction on the tokens the tree of a whole program.
-/

namespace TypeGloss

open Lexeme (IsName isWordText)
open Grammar (Opening Fits Binder ResultSlot NameSlot)

namespace Parse

variable {R : Prop} {t : Token} {rest : List Token} {last : Option TokenKind}
  {frames : List Frame} {s : State}

theorem endBlock_sound {body : Node} (sound : FramesSound R frames)
    (below : Awaits .statement frames ∨ Awaits .body frames) (fits : Fits (.source R) .block body)
    (kind : t.kind = .rightBrace) (ends : EndBlock body frames s) :
    s.Sound R (some t.kind) rest := by
  have lead : StatementLead (some t.kind) := kind ▸ statementLead_of (by decide)
  cases ends with
  | @expression header _ _ _ isExpression =>
    obtain ⟨⟨⟨named, place⟩, each, typed⟩, outer⟩ := sound
    rw [isExpression] at place
    simp only [Header.node, isExpression]
    exact operandState_sound outer place.1 (.function place.2 named each fits typed)
  | @declaration header params result _ isExpression =>
    obtain ⟨⟨⟨named, place⟩, each, typed⟩, outer⟩ := sound
    rw [isExpression] at place
    simp only [Header.node, isExpression]
    have declaration : Fits (.source R) .declared
        (.functionDeclaration header.loc header.name params body result) :=
      .declaredFunction named each fits typed
    refine ⟨outer, lead, ?_⟩
    rcases place with place | place
    · exact .inl ⟨place, .declared declaration⟩
    · exact .inr ⟨place, declaration⟩
  | arrow =>
    obtain ⟨⟨awaits, loose, each⟩, outer⟩ := sound
    exact ⟨outer, awaits, .inl ⟨.arrowBlock (Nat.le_refl 1) each fits, fun _ => loose, by simp⟩⟩
  | statement noFunction noArrow =>
    rcases below with below | below
    · exact ⟨sound, lead, .inl ⟨below, .blockStatement fits⟩⟩
    · exfalso
      cases frames with
      | nil => cases below
      | cons frame outer =>
        cases frame with
        | functionBody => exact noFunction _ _ _ _ rfl
        | arrowBlock => exact noArrow _ _ _ rfl
        | _ => cases below

theorem statementStart_sound (sound : FramesSound R frames) (awaits : Awaits .statement frames)
    (lead : StatementLead last) (lawful : Token.LawfulAt R last t rest)
    (started : statementStart t frames = some s) (reads : (read? s rest).isSome = true) :
    s.Sound R (some t.kind) rest := by
  cases statementStart_cases started with
  | declaration kind => exact declarators_sound sound (.inl awaits) lawful.formed kind
  | function kind => exact ⟨sound, .inl awaits, .inl (by rw [kind])⟩
  | interface | exported | ifHeader | whileHeader | forHeader => exact ⟨sound, awaits⟩
  | returned kind | thrown kind =>
    exact ⟨⟨awaits, sound⟩, rfl, leads_inside kind (by decide) rfl rfl⟩
  | breaks => exact ⟨sound, awaits, .breakStatement⟩
  | continues => exact ⟨sound, awaits, .continueStatement⟩
  | block kind =>
    exact ⟨⟨⟨.inl awaits, by simp⟩, sound⟩, rfl, kind ▸ statementLead_of (by decide)⟩
  | blockEnd kind ends =>
    obtain ⟨⟨below, each⟩, outer⟩ := sound
    exact endBlock_sound outer below (.block (forall_mem_reverse each)) kind ends
  | empty kind =>
    exact ⟨sound, kind ▸ statementLead_of (by decide), .inl ⟨awaits, .emptyStatement⟩⟩
  | expression started =>
    have sound' : FramesSound R (.expression :: frames) := ⟨awaits, sound⟩
    refine operandStart_sound sound' rfl ⟨?_, ?_, ?_, ?_⟩ lawful started reads
    · rintro k isLast (precedes | bar)
      · rw [lead.expression k isLast] at precedes
        cases precedes
      · exact absurd bar (lead.other k isLast).1
    · rintro k isLast (precedes | arrow)
      · rw [lead.expression k isLast] at precedes
        cases precedes
      · exact absurd arrow (lead.other k isLast).2.1
    · exact fun point => (lead.other .dot point).2.2 rfl
    · intro impossible
      cases impossible

theorem statementNext_sound {node : Node} {silent : Bool}
    (sound : FramesSound R frames) (lead : StatementLead last)
    (fits : (Awaits .statement frames ∧ Fits (.source R) (.statement true) node) ∨
      (Awaits .declared frames ∧ Fits (.source R) .declared node))
    (lawful : Token.LawfulAt R last t rest) (next : statementNext t node silent frames = some s)
    (reads : (read? s rest).isSome = true) : s.Sound R (some t.kind) rest := by
  cases statementNext_cases next with
  | alternate kind attached =>
    obtain ⟨sound', awaits'⟩ := attachElse_sound frames sound fits attached
    exact ⟨sound', awaits', kind ▸ statementLead_of (by decide)⟩
  | next settled started =>
    have fits' : (Awaits .statement frames ∧ Fits (.source R) (.statement false) node) ∨
        (Awaits .declared frames ∧ Fits (.source R) .declared node) :=
      fits.imp (fun given => ⟨given.1, given.2.unclosed rfl⟩) id
    obtain ⟨sound', awaits'⟩ := settle_sound frames sound fits' settled
    exact statementStart_sound sound' awaits' lead lawful started reads

/-- A name that was read is a name unless an annotation follows it. -/
theorem NameSound.isName {name : Token} (named : NameSound name (t :: rest))
    (noColon : t.kind ≠ .colon) (noQuestion : t.kind ≠ .question) : IsName name.text := by
  rcases named.2 with isName | follows
  · exact isName
  · simp [Token.keyFollows, noColon, noQuestion] at follows

theorem declaratorNext_sound {name : Token} (sound : FramesSound R frames)
    (awaits : Awaits .declarator frames) (named : NameSound name (t :: rest))
    (next : declaratorNext t name frames = some s) : s.Sound R (some t.kind) rest := by
  cases declaratorNext_cases next with
  | typed => exact ⟨⟨⟨awaits, named.1⟩, sound⟩, rfl⟩
  | value kind =>
    have isName := named.isName (by simp [kind]) (by simp [kind])
    exact ⟨⟨⟨awaits, .plain isName⟩, sound⟩, rfl, leads_inside kind (by decide) rfl rfl⟩
  | ends noColon ended =>
    have noQuestion : t.kind ≠ .question := by
      intro question
      cases endDeclarator_cases ended <;> simp_all
    have isName := named.isName noColon noQuestion
    exact endDeclarator_sound sound (declaratorNode_fits (.plain isName) .omitted) ended

theorem paramNext_sound {name : Token} (sound : FramesSound R frames)
    (awaits : Awaits .param frames) (named : NameSound name (t :: rest))
    (next : paramNext t name frames = some s) : s.Sound R (some t.kind) rest := by
  cases paramNext_cases next with
  | typed => exact ⟨⟨⟨awaits, named.1⟩, sound⟩, rfl⟩
  | value kind =>
    have isName := named.isName (by simp [kind]) (by simp [kind])
    exact ⟨⟨⟨awaits, .plain isName⟩, sound⟩, rfl, leads_inside kind (by decide) rfl rfl⟩
  | ends noColon ended =>
    have noQuestion : t.kind ≠ .question := by
      intro question
      cases endParam_cases ended <;> simp_all
    have isName := named.isName noColon noQuestion
    exact endParam_sound sound (paramNode_fits (.plain isName) .omitted) ended

theorem paramsStart_sound {header : Header} (sound : FramesSound R frames)
    (headed : HeaderSound header frames) (started : paramsStart t header frames = some s) :
    s.Sound R (some t.kind) rest := by
  obtain ⟨kind, rfl⟩ := of_ite_some started
  exact ⟨⟨⟨headed, by simp⟩, sound⟩, rfl, by simp [kind]⟩

theorem functionNameStart_sound {loc : Location} {isExpression : Bool}
    (sound : FramesSound R frames) (place : FunctionPlace isExpression frames)
    (isLast : last = some (.keyword .functionKw) ∨ last = some .functionExpr)
    (lawful : Token.LawfulAt R last t rest)
    (started : functionNameStart t loc isExpression frames = some s) :
    s.Sound R (some t.kind) rest := by
  obtain ⟨kind, rfl⟩ | ⟨-, started⟩ := of_ite_some_else started
  · have isName : IsName t.text := by
      rcases isLast with isLast | isLast <;> exact isName_of lawful kind isLast (by decide) rfl rfl
    exact ⟨sound, .some isName, place⟩
  · exact paramsStart_sound sound ⟨.none, place⟩ started

theorem paramStart_sound {isFirst : Bool} (sound : FramesSound R frames)
    (awaits : Awaits .param frames) (noPoint : last ≠ some .dot)
    (lawful : Token.LawfulAt R last t rest) (started : paramStart t isFirst frames = some s) :
    s.Sound R (some t.kind) rest := by
  cases paramStart_cases started with
  | name kind => exact ⟨sound, awaits, nameSound_of lawful kind noPoint⟩
  | none => exact endParams_sound sound.2 sound.1.1 (forall_mem_reverse sound.1.2)

theorem functionTail_sound {header : Header} {params : List Node} (sound : FramesSound R frames)
    (headed : HeaderSound header frames) (each : ∀ p ∈ params, Fits (.source R) .param p)
    (next : functionTail t header params frames = some s) : s.Sound R (some t.kind) rest := by
  obtain ⟨-, rfl⟩ | ⟨-, opened⟩ := of_ite_some_else next
  · exact ⟨⟨⟨headed, each⟩, sound⟩, rfl⟩
  · exact openBody_sound sound headed each .none opened

theorem exportStart_sound {loc : Location} {isDefault : Bool} (sound : FramesSound R frames)
    (awaits : Awaits .statement frames) (formed : Token.Formed t.kind t.text)
    (started : exportStart t loc isDefault frames = some s) : s.Sound R (some t.kind) rest := by
  cases exportStart_cases started with
  | default => exact ⟨sound, awaits⟩
  | function kind => exact ⟨⟨awaits, sound⟩, .inr rfl, .inl (by rw [kind])⟩
  | declaration kind =>
    have sound' : FramesSound R (.exported loc isDefault :: frames) := ⟨awaits, sound⟩
    exact declarators_sound sound' (.inr (.inl rfl)) formed kind

/-- Each token keeps what is known, if the tokens behind it are read as well. -/
theorem step_sound {s s' : State} (sound : s.Sound R last (t :: rest))
    (lawful : Token.LawfulAt R last t rest) (stepped : step s t = some s')
    (reads : (read? s' rest).isSome = true) : s'.Sound R (some t.kind) rest := by
  obtain ⟨focus, frames⟩ := s
  obtain ⟨framesSound, focusSound⟩ := sound
  have formed := lawful.formed
  cases focus with
  | statement =>
    exact statementStart_sound framesSound focusSound.1 focusSound.2 lawful stepped reads
  | finished node silent =>
    exact statementNext_sound framesSound focusSound.1 focusSound.2 lawful stepped reads
  | operand => exact operandStart_sound framesSound focusSound.1 focusSound.2 lawful stepped reads
  | operator x => exact operatorNext_sound framesSound focusSound.1 formed focusSound.2 stepped
  | comparison left sign =>
    obtain ⟨awaits, tight, fits, before⟩ := focusSound
    exact comparisonNext_sound framesSound awaits tight fits before lawful stepped reads
  | selector x =>
    obtain ⟨kind, rfl⟩ := of_ite_some stepped
    exact operandState_sound framesSound focusSound.1 (.member focusSound.2 (kind ▸ formed :))
  | newName loc =>
    obtain ⟨kind, rfl⟩ := of_ite_some stepped
    have isName := isName_of lawful kind focusSound.2 (by decide) rfl rfl
    exact ⟨framesSound, focusSound.1, .calleeName isName⟩
  | newCallee loc callee => exact newNext_sound framesSound focusSound.1 focusSound.2 stepped
  | newSelector loc callee =>
    obtain ⟨kind, rfl⟩ := of_ite_some stepped
    exact ⟨framesSound, focusSound.1, .calleeMember focusSound.2 (kind ▸ formed :)⟩
  | property => exact propertyStart_sound framesSound focusSound.1 focusSound.2 lawful stepped
  | propertyName name => exact propertyNext_sound framesSound focusSound.1 focusSound.2 stepped
  | propertyColon key =>
    obtain ⟨kind, rfl⟩ := of_ite_some stepped
    exact ⟨⟨focusSound, framesSound⟩, rfl, leads_inside kind (by decide) rfl rfl⟩
  | arrowSign start params =>
    obtain ⟨kind, rfl⟩ := of_ite_some stepped
    exact ⟨framesSound, focusSound.1, focusSound.2.1, focusSound.2.2, by rw [kind]⟩
  | arrowBody start params =>
    obtain ⟨awaits, loose, each, isLast⟩ := focusSound
    exact arrowBodyStart_sound framesSound awaits loose each isLast lawful stepped reads
  | typeOperand => exact typeStart_sound framesSound focusSound formed stepped
  | typeOperator x =>
    obtain ⟨awaits, isType, bare⟩ := focusSound
    exact typeNext_sound framesSound awaits isType bare stepped
  | arrayEnd x =>
    obtain ⟨-, rfl⟩ := of_ite_some stepped
    exact ⟨framesSound, focusSound.1, .array focusSound.2, nofun⟩
  | typeParamName isFirst => exact typeParamStart_sound framesSound focusSound formed stepped
  | typeParamColon | typeArrow | memberColon =>
    obtain ⟨-, rfl⟩ := of_ite_some stepped
    exact ⟨⟨focusSound, framesSound⟩, rfl⟩
  | member => exact memberStart_sound framesSound focusSound formed stepped
  | memberKey loc key => exact memberNext_sound framesSound focusSound.1 focusSound.2 stepped
  | declaratorName =>
    obtain ⟨kind, rfl⟩ := of_ite_some stepped
    exact ⟨framesSound, focusSound.1, nameSound_of lawful kind focusSound.2⟩
  | declarator name => exact declaratorNext_sound framesSound focusSound.1 focusSound.2 stepped
  | functionName loc isExpression =>
    exact functionNameStart_sound framesSound focusSound.1 focusSound.2 lawful stepped
  | functionParams header => exact paramsStart_sound framesSound focusSound stepped
  | paramName isFirst =>
    exact paramStart_sound framesSound focusSound.1 focusSound.2 lawful stepped
  | param name => exact paramNext_sound framesSound focusSound.1 focusSound.2 stepped
  | functionTail header params =>
    exact functionTail_sound framesSound focusSound.1 focusSound.2 stepped
  | interfaceName loc =>
    obtain ⟨kind, rfl⟩ := of_ite_some stepped
    exact ⟨framesSound, focusSound, _, _, rfl, (kind ▸ formed :)⟩
  | interfaceBody loc name =>
    obtain ⟨kind, rfl⟩ := of_ite_some stepped
    exact ⟨⟨⟨focusSound, by simp⟩, framesSound⟩, rfl⟩
  | headerOpen word loc =>
    obtain ⟨kind, rfl⟩ := of_ite_some stepped
    cases word <;> exact ⟨⟨focusSound, framesSound⟩, rfl, leads_inside kind (by decide) rfl rfl⟩
  | exported loc isDefault => exact exportStart_sound framesSound focusSound formed stepped
  | terminator node =>
    obtain ⟨kind, rfl⟩ := of_ite_some stepped
    exact ⟨framesSound, kind ▸ statementLead_of (by decide), .inl focusSound⟩

theorem finish?_sound {program : Node} (sound : s.Sound R last rest)
    (finished : finish? s = some program) : Fits (.source R) .program program := by
  have whole {done : List Node} (sound : FramesSound R [.program done]) :
      Fits (.source R) .program (.program .first done.reverse) :=
    .program (forall_mem_reverse sound.1.2)
  cases finish?_cases finished with
  | statement => exact whole sound.1
  | @finished node _ frames _ settled =>
    have fits : (Awaits .statement frames ∧ Fits (.source R) (.statement false) node) ∨
        (Awaits .declared frames ∧ Fits (.source R) .declared node) :=
      sound.2.2.imp (fun given => ⟨given.1, given.2.unclosed rfl⟩) id
    exact whole (settle_sound frames sound.1 fits settled).1

/-- What is read from a sound state on fits the grammar. -/
theorem read?_sound (ts : List Token) {program : Node} (sound : s.Sound R last ts)
    (lawful : Token.Lawful R last ts) (reads : read? s ts = some program) :
    Fits (.source R) .program program := by
  induction ts generalizing s last with
  | nil => exact finish?_sound sound reads
  | cons t rest ih =>
    obtain ⟨next, stepped, reads⟩ := Option.bind_eq_some_iff.mp (read?_cons s t rest ▸ reads)
    exact ih (step_sound sound lawful.1 stepped (by simp [reads])) lawful.2 reads

/-- Every program that is read from lawful tokens fits the grammar. -/
theorem program_fits {ts : List Token} {tree : Node} (lawful : Token.Lawful R none ts)
    (reads : read? start ts = some tree) : Fits (.source R) .program tree := by
  have begins : start.Sound R none ts := ⟨⟨⟨rfl, by simp⟩, trivial⟩, rfl, by simp, by simp⟩
  exact read?_sound ts begins lawful reads

end Parse

end TypeGloss
