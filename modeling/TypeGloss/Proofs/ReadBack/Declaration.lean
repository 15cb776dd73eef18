import TypeGloss.Proofs.ReadBack.Type

/-!
# Objects, parameters and functions are read back

The parts that consist of a name and what belongs to it: properties, parameters and declarators. A
function is read back if its block is.
-/

namespace TypeGloss

open Lexeme (isWordText IsName IsString)
open Grammar (Binder NameSlot ResultSlot FitsType)
open Token (Quiet)

theorem Pieces.Opens.commas {first : List Piece} (opens : Pieces.Opens first) (layout : Layout)
    (others : List (List Piece)) : Pieces.Opens (Pieces.commas layout (first :: others)) := by
  cases others with
  | nil => exact opens
  | cons second others =>
    rw [Pieces.commas, Pieces.join_cons_cons, List.append_assoc]
    exact opens.append _

namespace Reader

open Parse (Frame TypeEnds Room)
open Pieces (tokens)

variable {layout : Layout} {depth : Nat} {stack : List Enclosure} {awaiting : Bool}
  {frames : List Frame} {r : Reader} {ts rest : List Token} {t : Text} {p : Parse.State}
  {Q : Reader → Prop} {before last : TokenKind} {node : Node} {opening : Grammar.Opening}
  {tightness : Nat}

/-- Behind a part whose end gives it to the frames around it. -/
structure Ended (stack : List Enclosure) (kinds : List TokenKind)
    (finish : Token → Option Parse.State) (r : Reader) : Prop where
  within : Within stack false r
  ends : ∀ t, t.kind ∈ kinds → Parse.step r.parser t = finish t

/-- A property of an object is read back. -/
def ReadsProperty (layout : Layout) (node : Node) : Prop :=
  ∀ {depth stack frames r rest}, Within stack false r →
    (r.before = some .leftBrace ∨ r.before = some .comma) → r.parser = ⟨.property, frames⟩ →
    Quiet rest → Leads r (tokens (Pieces.node layout depth node)) rest
      (Ended stack [.comma, .rightBrace] fun t => Parse.endProperty t node.unplaced frames)

theorem reads_shorthand {loc keyLoc valueLoc : Location} {name : Text} (isName : IsName name) :
    ReadsProperty layout (.property loc (.identifier keyLoc false name .absent)
      (.identifier valueLoc false name .absent) true) := by
  intro depth stack frames r rest within before parser quiet
  have pieces : tokens (Pieces.node layout depth (.property loc
      (.identifier keyLoc false name .absent) (.identifier valueLoc false name .absent) true)) =
        [.plain .name name] := by
    simp [Pieces.node, Pieces.wrapped, Pieces.wordKind, isName.2]
  rw [pieces]
  refine .sign within (by decide) rfl rfl (by rw [parser]; rfl) fun r₁ behind => .nil ?_
  refine ⟨behind.toWithin, fun t isEnd => ?_⟩
  have noColon : t.kind ≠ .colon := by
    intro colon
    simp [colon] at isEnd
  rw [behind.parser]
  exact if_neg noColon

/-- The key of a property and the colon behind it. -/
theorem Leads.propertyKey {key : Node} (isKey : Grammar.Key key) (within : Within stack false r)
    (before : r.before = some .leftBrace ∨ r.before = some .comma)
    (parser : r.parser = ⟨.property, frames⟩)
    (next : ∀ r, Behind stack false .colon .colon
      ⟨.operand, .propertyValue .synthetic key.unplaced :: frames⟩ r → Leads r ts rest Q) :
    Leads r (tokens (Pieces.key key) ++ .plain .colon ":" :: ts) rest Q := by
  cases isKey with
  | @name loc name word =>
    have names : Token.namesProperty r.before r.onNewLine
        (.plain .colon ":" :: ts ++ rest) = true := by
      rcases before with before | before <;>
        simp [before, Token.namesProperty, Token.opensMember, Token.followsKey, Token.significant]
    refine .word within names (by rw [parser]; rfl) fun r₁ behind => ?_
    exact .sign behind.toWithin (by decide) rfl rfl (by rw [behind.parser]; rfl) next
  | string spelling | number spelling =>
    refine .sign within (by decide) rfl rfl (by rw [parser]; rfl) fun r₁ behind => ?_
    exact .sign behind.toWithin (by decide) rfl rfl (by rw [behind.parser]; rfl) next

theorem reads_property {loc : Location} {key value : Node} (isKey : Grammar.Key key)
    (inner : ReadsExpression layout 1 .any value) :
    ReadsProperty layout (.property loc key value false) := by
  intro depth stack frames r rest within before parser quiet
  have pieces : tokens (Pieces.node layout depth (.property loc key value false)) =
      tokens (Pieces.key key) ++ .plain .colon ":" :: tokens (Pieces.node layout depth value) := by
    simp [Pieces.node]
  rw [pieces]
  refine .propertyKey isKey within before parser fun r₁ behind => ?_
  refine (inner.leads (behind.due (Parse.expects_operand _) rfl (by decide))
    ⟨by simp, Nat.le_refl _⟩ (guard_of_quiet quiet)).mono fun r₂ reached => ?_
  refine ⟨reached.within, fun t isEnd => ?_⟩
  obtain ⟨kind, text, place⟩ := t
  simp only [List.mem_cons, List.not_mem_nil, or_false] at isEnd
  rcases isEnd with rfl | rfl
  · exact reached.ready.ends _ rfl (by simp)
  · exact reached.ready.ends _ rfl (by simp)

theorem ReadsExpression.object {loc : Location} {properties : List Node}
    (allowed : opening.allowsObject = true) (each : ∀ p ∈ properties, ReadsProperty layout p)
    (opens : ∀ depth, Pieces.Opens (Pieces.node layout depth (.object loc false properties))) :
    ReadsExpression layout tightness opening (.object loc false properties) := by
  have pieces (depth : Nat) : tokens (Pieces.node layout depth (.object loc false properties)) =
      .plain .leftBrace "\x7b" ::
        (tokens (Pieces.commas layout (properties.map (Pieces.node layout depth))) ++
          [.plain .rightBrace "\x7d"]) := by
    cases properties <;> simp [Pieces.node, Pieces.wrapped, Pieces.commas, Pieces.join]
  refine ⟨opens, ?_⟩
  intro depth stack frames r rest due room guard
  rw [pieces]
  refine .objectBrace due.within (due.object allowed) (due.expects _ rfl) fun r₁ behind => ?_
  by_cases nonempty : properties = []
  · subst nonempty
    refine .closing behind.toWithin (by decide) rfl (by rw [behind.parser]; rfl)
      fun r₂ behind => .nil (behind.reached rfl (.inr rfl))
  refine (Leads.commas (fun done r => Within (.object :: stack) false r ∧
    (r.before = some .leftBrace ∨ r.before = some .comma) ∧
      r.parser = ⟨.property, .properties .synthetic done :: frames⟩)
    (E := fun last others => Ended (.object :: stack) [.comma, .rightBrace]
      fun t => Parse.endProperty t last (.properties .synthetic others :: frames)) ?_ ?_ nonempty
    ⟨behind.toWithin, .inl behind.before, behind.parser⟩ (Token.quiet_cons rfl _ _)).append ?_
  · rintro item mem done r rest ⟨within, before, parser⟩ quiet
    exact each item mem within before parser quiet
  · intro item done r ts rest Q ended continues
    refine .sign ended.within (by decide) rfl rfl (ended.ends _ (by simp)) fun r' behind => ?_
    exact continues r' ⟨behind.toWithin, .inr behind.before, behind.parser⟩
  · rintro r₂ ⟨last, others, listed, ended⟩
    have whole : (Node.object loc false properties).unplaced =
        .object .synthetic false (last :: others).reverse := by
      rw [listed]
      simp [Node.unplaced]
    refine .closing ended.within (by decide) rfl (ended.ends _ (by simp))
      fun r₃ behind => .nil ?_
    rw [whole]
    exact behind.reached rfl (.inr rfl)

/-- Behind a name that may have an annotation, by the state behind a bare name and by the frame that
takes the annotation. -/
def Bound (stack : List Enclosure) (bare : Token → Parse.State) (frame : Token → Frame)
    (frames : List Frame) (binder : Node) (r : Reader) : Prop :=
  Within stack false r ∧ ∃ name typing,
    binder.unplaced = Parse.identifier (.plain .name name) typing ∧
    ((typing = .absent ∧ r.parser = bare (.plain .name name)) ∨
      TypeEnds typing (frame (.plain .name name) :: frames) r.parser)

/-- A name and its annotation, if it has one. -/
theorem Leads.binder {R : Prop} {binder : Node} (bound : Binder (.rendered R) binder)
    {bare : Token → Parse.State} {frame : Token → Frame}
    (within : Within stack false r)
    (named : ∀ t, t.kind = .name → Parse.step r.parser t = some (bare t))
    (colon : ∀ name t, t.kind = .colon →
      Parse.step (bare name) t = some ⟨.typeOperand, frame name :: frames⟩)
    (noUnion : ∀ name start done, frame name ≠ .union start done) (quiet : Quiet rest) :
    Leads r (tokens (Pieces.binding layout depth binder)) rest
      (Bound stack bare frame frames binder) := by
  cases bound with
  | @plain loc name isName =>
    have pieces : tokens (Pieces.binding layout depth (.identifier loc false name .absent)) =
        [.plain .name name] := by
      simp [Pieces.binding, Pieces.ascription, Node.isAbsent, Pieces.wordKind, isName.2]
    rw [pieces]
    refine .sign within (by decide) rfl rfl (named _ rfl) fun r₁ behind => .nil ?_
    exact ⟨behind.toWithin, name, .absent, rfl, .inl ⟨rfl, behind.parser⟩⟩
  | @typed loc name type annotated =>
    obtain ⟨isName, fits⟩ := annotated
    have pieces : tokens (Pieces.binding layout depth (.identifier loc false name type)) =
        .plain .name name :: .plain .colon ":" :: tokens (Pieces.node layout depth type) := by
      simp [Pieces.binding, Pieces.ascription, fits.typeTree.isAbsent, Pieces.wordKind, isName.2]
    rw [pieces]
    refine .sign within (by decide) rfl rfl (named _ rfl) fun r₁ behind => ?_
    refine .sign behind.toWithin (by decide) rfl rfl (by rw [behind.parser]; exact colon _ _ rfl)
      fun r₂ behind => ?_
    refine (reads_of_fits fits layout (behind.typeDue (by decide))
      (behind.last ▸ opensObject_colon) (by simp [noUnion]) quiet).mono fun r₃ arrived => ?_
    obtain ⟨reached, ends⟩ := arrived
    exact ⟨reached.within, name, type.unplaced, rfl, .inr ends⟩

/-- A parameter is read back. -/
def ReadsParam (layout : Layout) (node : Node) : Prop :=
  ∀ {depth stack frames isFirst r rest}, Within stack false r →
    r.parser = ⟨.paramName isFirst, frames⟩ → Quiet rest →
    Leads r (tokens (Pieces.binding layout depth node)) rest
      (Ended stack [.comma, .rightParen] fun t => Parse.endParam t node.unplaced frames)

/-- The name of a parameter and its annotation. -/
theorem Leads.paramBinder {R : Prop} {binder : Node} (bound : Binder (.rendered R) binder)
    {isFirst : Bool} (within : Within stack false r)
    (parser : r.parser = ⟨.paramName isFirst, frames⟩) (quiet : Quiet rest) :
    Leads r (tokens (Pieces.binding layout depth binder)) rest
      (Bound stack (fun name => ⟨.param name, frames⟩) .paramType frames binder) := by
  refine .binder bound within ?_ ?_ (by simp) quiet
  · rintro ⟨kind, text, loc⟩ ⟨⟩
    rw [parser]
    rfl
  · rintro name ⟨kind, text, loc⟩ ⟨⟩
    rfl

theorem reads_param {R : Prop} {binder : Node} (bound : Binder (.rendered R) binder) :
    ReadsParam layout binder := by
  intro depth stack frames isFirst r rest within parser quiet
  refine (Leads.paramBinder bound within parser quiet).mono
    fun r₁ ⟨within, name, typing, same, ends⟩ => ⟨within, fun t isEnd => ?_⟩
  obtain ⟨kind, text, loc⟩ := t
  simp only [List.mem_cons, List.not_mem_nil, or_false] at isEnd
  rw [same]
  rcases ends with ⟨rfl, parser⟩ | ends
  · rw [parser]
    rcases isEnd with rfl | rfl <;> rfl
  · rcases isEnd with rfl | rfl <;> exact ends _ rfl

theorem reads_defaultParam {R : Prop} {loc : Location} {binder value : Node}
    (bound : Binder (.rendered R) binder) (inner : ReadsExpression layout 1 .any value)
    (given : value.isAbsent = false) : ReadsParam layout (.defaultParam loc binder value) := by
  intro depth stack frames isFirst r rest within parser quiet
  have pieces : tokens (Pieces.binding layout depth (.defaultParam loc binder value)) =
      tokens (Pieces.binding layout depth binder) ++ .plain .assign "=" ::
        tokens (Pieces.node layout depth value) := by
    simp [Pieces.binding, Pieces.valuePart, given]
  rw [pieces]
  refine (Leads.paramBinder bound within parser (Token.quiet_cons rfl _ _)).append
    fun r₁ arrived => ?_
  obtain ⟨within, name, typing, same, ends⟩ := arrived
  have step : Parse.step r₁.parser (.plain .assign "=") =
      some ⟨.operand, .paramDefault (.plain .name name) typing :: frames⟩ := by
    rcases ends with ⟨rfl, parser⟩ | ends
    · rw [parser]
      rfl
    · exact ends _ rfl
  refine .sign within (by decide) rfl rfl step fun r₂ behind => ?_
  refine (inner.leads (behind.due (Parse.expects_operand _) rfl (by decide))
    ⟨by simp, Nat.le_refl _⟩ (guard_of_quiet quiet)).mono fun r₃ reached => ?_
  refine ⟨reached.within, fun t isEnd => ?_⟩
  have whole : (Node.defaultParam loc binder value).unplaced =
      Parse.paramNode (.plain .name name) typing value.unplaced := by
    simp [Parse.paramNode, given, Node.unplaced, same]
  obtain ⟨kind, text, place⟩ := t
  simp only [List.mem_cons, List.not_mem_nil, or_false] at isEnd
  rw [whole]
  rcases isEnd with rfl | rfl <;> exact reached.ready.ends _ rfl (by simp)

/-- A declarator is read back. -/
structure ReadsDeclarator (layout : Layout) (node : Node) : Prop where
  opens : ∀ depth, Pieces.Opens (Pieces.node layout depth node)
  leads : ∀ {depth stack frames r rest}, Within stack false r →
    r.parser = ⟨.declaratorName, frames⟩ → Quiet rest →
    Leads r (tokens (Pieces.node layout depth node)) rest
      (Ended stack [.comma, .terminator] fun t => Parse.endDeclarator t node.unplaced frames)

theorem opens_binding {R : Prop} {binder : Node} (bound : Binder (.rendered R) binder)
    (layout : Layout) (depth : Nat) : Pieces.Opens (Pieces.binding layout depth binder) := by
  cases bound with
  | plain isName => exact Grammar.opens_word isName.1 _
  | typed annotated => exact Grammar.opens_word annotated.1.1 _

theorem reads_declarator {R : Prop} {loc : Location} {binder initializer : Node}
    (bound : Binder (.rendered R) binder)
    (inner : initializer = .absent ∨
      initializer.isAbsent = false ∧ ReadsExpression layout 1 .any initializer) :
    ReadsDeclarator layout (.declarator loc binder initializer) := by
  refine ⟨fun depth => (opens_binding bound layout depth).append _, ?_⟩
  intro depth stack frames r rest within parser quiet
  have binderLeads {rest : List Token} (quiet : Quiet rest) :
      Leads r (tokens (Pieces.binding layout depth binder)) rest
        (Bound stack (fun name => ⟨.declarator name, frames⟩) .declaratorType frames binder) := by
    refine .binder bound within ?_ ?_ (by simp) quiet
    · rintro ⟨kind, text, place⟩ ⟨⟩
      rw [parser]
      rfl
    · rintro name ⟨kind, text, place⟩ ⟨⟩
      rfl
  rcases inner with rfl | ⟨given, inner⟩
  · have pieces : Pieces.node layout depth (.declarator loc binder .absent) =
        Pieces.binding layout depth binder := by
      simp [Pieces.node, Pieces.valuePart, Node.isAbsent]
    rw [pieces]
    refine (binderLeads quiet).mono
      fun r₁ arrived => ?_
    obtain ⟨within, name, typing, same, ends⟩ := arrived
    refine ⟨within, fun t isEnd => ?_⟩
    obtain ⟨kind, text, place⟩ := t
    simp only [List.mem_cons, List.not_mem_nil, or_false] at isEnd
    have whole : (Node.declarator loc binder .absent).unplaced =
        Parse.declaratorNode (.plain .name name) typing .absent := by
      simp [Parse.declaratorNode, Node.unplaced, same]
    rw [whole]
    rcases ends with ⟨rfl, parser⟩ | ends
    · rw [parser]
      rcases isEnd with rfl | rfl <;> rfl
    · rcases isEnd with rfl | rfl <;> exact ends _ rfl
  · have pieces : tokens (Pieces.node layout depth (.declarator loc binder initializer)) =
        tokens (Pieces.binding layout depth binder) ++ .plain .assign "=" ::
          tokens (Pieces.node layout depth initializer) := by
      simp [Pieces.node, Pieces.valuePart, given]
    rw [pieces]
    refine (binderLeads (Token.quiet_cons rfl _ _)).append
      fun r₁ arrived => ?_
    obtain ⟨within, name, typing, same, ends⟩ := arrived
    have step : Parse.step r₁.parser (.plain .assign "=") =
        some ⟨.operand, .declaratorValue (.plain .name name) typing :: frames⟩ := by
      rcases ends with ⟨rfl, parser⟩ | ends
      · rw [parser]
        rfl
      · exact ends _ rfl
    refine .sign within (by decide) rfl rfl step fun r₂ behind => ?_
    refine (inner.leads (behind.due (Parse.expects_operand _) rfl (by decide))
      ⟨by simp, Nat.le_refl _⟩ (guard_of_quiet quiet)).mono fun r₃ reached => ?_
    refine ⟨reached.within, fun t isEnd => ?_⟩
    have whole : (Node.declarator loc binder initializer).unplaced =
        Parse.declaratorNode (.plain .name name) typing initializer.unplaced := by
      simp [Parse.declaratorNode, Node.unplaced, same]
    obtain ⟨kind, text, place⟩ := t
    simp only [List.mem_cons, List.not_mem_nil, or_false] at isEnd
    rw [whole]
    rcases isEnd with rfl | rfl <;> exact reached.ready.ends _ rfl (by simp)

/-- The kinds of the words that declare variables. -/
def declarationKinds : List TokenKind := [.keyword .varKw, .keyword .letKw, .keyword .constKw]

/-- A variable declaration is read back. -/
def ReadsDeclaration (layout : Layout) (node : Node) : Prop :=
  ∀ {depth stack frames r rest}, Within stack false r → r.before ≠ some .dot →
    (∀ t, t.kind ∈ declarationKinds →
      Parse.step r.parser t = some ⟨.declaratorName, .declarators t.loc t.text [] :: frames⟩) →
    Quiet rest → Leads r (tokens (Pieces.node layout depth node)) rest
      (Ended stack [.terminator] fun _ => some (Parse.endDeclarators node.unplaced frames))

theorem reads_declaration {loc : Location} {keyword : Text} {declarators : List Node}
    (mem : keyword ∈ Grammar.declarationWords) (nonempty : declarators ≠ [])
    (each : ∀ d ∈ declarators, ReadsDeclarator layout d) :
    ReadsDeclaration layout (.variableDeclaration loc keyword declarators) := by
  intro depth stack frames r rest within noPoint starts quiet
  have words : ∀ word ∈ Grammar.declarationWords, ∃ kind ∈ declarationKinds,
      Pieces.wordKind word = kind := by decide
  obtain ⟨kind, declares, same⟩ := words keyword mem
  have facts : ∀ kind ∈ declarationKinds, kind ≠ .newline ∧ isOrdinary kind = true := by decide
  obtain ⟨noNewline, ordinary⟩ := facts kind declares
  have pieces : tokens (Pieces.node layout depth (.variableDeclaration loc keyword declarators)) =
      .plain kind keyword ::
        tokens (Pieces.commas layout (declarators.map (Pieces.node layout depth))) := by
    simp [Pieces.node, same]
  have opens : Pieces.Opens
      (Pieces.commas layout (declarators.map (Pieces.node layout depth))) := by
    obtain ⟨first, others, rfl⟩ := List.exists_cons_of_ne_nil nonempty
    exact .commas ((each first List.mem_cons_self).opens depth) _ _
  rw [pieces]
  refine .ordinary within noNewline (keeps_of_quiet noPoint (opens.quiet rest)).named ordinary
    (starts _ declares) fun r₁ behind => ?_
  refine (Leads.commas (fun done r => Within stack false r ∧
    r.parser = ⟨.declaratorName, .declarators .synthetic keyword done :: frames⟩)
    (E := fun last others => Ended stack [.comma, .terminator]
      fun t => Parse.endDeclarator t last (.declarators .synthetic keyword others :: frames)) ?_ ?_
    nonempty ⟨behind.toWithin, behind.parser⟩ quiet).mono ?_
  · rintro item mem done r rest ⟨within, parser⟩ quiet
    exact (each item mem).leads within parser quiet
  · intro item done r ts rest Q ended continues
    refine .sign ended.within (by decide) rfl rfl (ended.ends _ (by simp)) fun r' behind => ?_
    exact continues r' ⟨behind.toWithin, behind.parser⟩
  · rintro r₂ ⟨last, others, listed, ended⟩
    refine ⟨ended.within, fun t isEnd => ?_⟩
    have whole : (Node.variableDeclaration loc keyword declarators).unplaced =
        .variableDeclaration .synthetic keyword (last :: others).reverse := by
      rw [listed]
      simp [Node.unplaced]
    obtain ⟨kind, text, place⟩ := t
    obtain rfl := List.mem_singleton.mp isEnd
    rw [whole]
    exact ended.ends _ (by simp)

/-- The parameters of a function behind their parenthesis. -/
theorem Leads.params {params : List Node} {owner : Parse.ParamOwner}
    (each : ∀ p ∈ params, ReadsParam layout p) (within : Within stack false r)
    (parser : r.parser = ⟨.paramName true, .paramList owner [] :: frames⟩) (quiet : Quiet rest) :
    Leads r (tokens (Pieces.commas layout (params.map (Pieces.binding layout depth)))) rest
      (Ended stack [.rightParen] fun _ =>
        some (Parse.endParams owner (params.map Node.unplaced) frames)) := by
  by_cases nonempty : params = []
  · subst nonempty
    refine .nil ⟨within, fun t isEnd => ?_⟩
    obtain ⟨kind, text, place⟩ := t
    obtain rfl := List.mem_singleton.mp isEnd
    rw [parser]
    rfl
  refine (Leads.commas (fun done r => Within stack false r ∧
    ∃ isFirst, r.parser = ⟨.paramName isFirst, .paramList owner done :: frames⟩)
    (E := fun last others => Ended stack [.comma, .rightParen]
      fun t => Parse.endParam t last (.paramList owner others :: frames)) ?_ ?_ nonempty
    ⟨within, true, parser⟩ quiet).mono ?_
  · intro item mem done r rest ⟨within, isFirst, parser⟩ quiet
    exact each item mem within parser quiet
  · intro item done r ts rest Q ended continues
    refine .sign ended.within (by decide) rfl rfl (ended.ends _ (by simp)) fun r' behind => ?_
    exact continues r' ⟨behind.toWithin, false, behind.parser⟩
  · rintro r₁ ⟨last, others, listed, ended⟩
    refine ⟨ended.within, fun t isEnd => ?_⟩
    obtain ⟨kind, text, place⟩ := t
    obtain rfl := List.mem_singleton.mp isEnd
    rw [List.reverse_nil, List.nil_append] at listed
    rw [← listed]
    exact ended.ends _ (by simp)

/-- A block is read back wherever a brace opens one. -/
def ReadsBlock (layout : Layout) (body : Node) : Prop :=
  ∀ {depth stack awaiting frames r rest}, Within stack awaiting r →
    opensObject awaiting r.terminators.last = false →
    (∀ t, t.kind = .leftBrace →
      Parse.step r.parser t = some ⟨.statement, .block t.loc [] :: frames⟩) →
    Leads r (tokens (Pieces.blockOf layout depth body)) rest fun r =>
      Behind stack false .rightBrace .rightBrace (Parse.endBlock body.unplaced frames) r ∧
        r.terminators.closedBlock = true

/-- The header of a function up to its parenthesis. -/
theorem Leads.functionHead {name : Node} (slot : NameSlot name) {kind : TokenKind}
    (within : Within stack false r) (noPoint : r.before ≠ some .dot)
    (retyped : r.terminators.retyped (.keyword .functionKw) = (kind, false))
    (starts : kind.startsFunction = true) {isExpression : Bool}
    (step : ∀ t, t.kind = kind →
      Parse.step r.parser t = some ⟨.functionName t.loc isExpression, frames⟩)
    (noArrow : Token.closesIntoArrow 0 (ts ++ rest) = false)
    (next : ∀ r, Behind (.signature :: stack) false .leftParen .leftParen ⟨.paramName true,
      .paramList (.function ⟨.synthetic, isExpression, name.unplaced⟩) [] :: frames⟩ r →
        Leads r ts rest Q) :
    Leads r (.plain (.keyword .functionKw) "function" ::
      (tokens (Pieces.functionName layout name) ++ .plain .leftParen "(" :: ts)) rest Q := by
  cases slot with
  | none =>
    simp only [Pieces.functionName, Node.isAbsent, if_true, Pieces.tokens_space, List.nil_append]
    refine .functionWord within retyped starts
      (keeps_of_quiet noPoint (Token.quiet_cons rfl _ _)) (step _ rfl) fun r₁ heads _ => ?_
    refine .leftParen heads.toCalm noArrow (by rw [heads.parser]; rfl) fun r₂ behind => ?_
    rw [heads.paren] at behind
    exact next r₂ behind
  | @some loc name isName =>
    have pieces : tokens (Pieces.functionName layout (.identifier loc false name .absent)) =
        [.plain .name name] := by
      simp [Pieces.functionName, Node.isAbsent, Pieces.nameOf, Pieces.wordKind, isName.2]
    rw [pieces]
    refine .functionWord within retyped starts
      (keeps_of_quiet noPoint (Token.quiet_cons rfl _ _)) (step _ rfl) fun r₁ heads isStart => ?_
    refine .functionName heads isStart (by rw [heads.parser]; rfl) fun r₂ heads => ?_
    refine .leftParen heads.toCalm noArrow (by rw [heads.parser]; rfl) fun r₃ behind => ?_
    rw [heads.paren] at behind
    exact next r₃ behind

theorem tokens_braced (layout : Layout) (depth : Nat) (lines : List (List Piece)) :
    ∃ ts, tokens (Pieces.braced layout depth lines) = .plain .leftBrace "\x7b" :: ts := by
  unfold Pieces.braced
  split
  · exact ⟨_, rfl⟩
  · cases layout <;> exact ⟨_, rfl⟩

theorem tokens_blockOf (layout : Layout) (depth : Nat) (body : Node) :
    ∃ ts, tokens (Pieces.blockOf layout depth body) = .plain .leftBrace "\x7b" :: ts := by
  unfold Pieces.blockOf Pieces.block
  split <;> first | exact tokens_braced _ _ _ | exact ⟨_, rfl⟩

/-- The result type of a function, if it has one, and the state in which a brace opens its body. -/
theorem Leads.functionResult {R : Prop} {result : Node} (typed : ResultSlot (.rendered R) result)
    {header : Parse.Header} {params : List Node} (within : Within stack true r)
    (last : r.terminators.last = some .rightParen)
    (parser : r.parser = ⟨.functionTail header params, frames⟩) (quiet : Quiet rest) :
    Leads r (tokens (Pieces.ascription layout result (Pieces.node layout depth result))) rest
      fun r => TypeReached stack true r ∧ ∀ t, t.kind = .leftBrace → Parse.step r.parser t =
        some ⟨.statement,
          .block t.loc [] :: .functionBody header params result.unplaced :: frames⟩ := by
  cases typed with
  | none =>
    refine .nil ⟨⟨within, by rw [last]; rfl⟩, ?_⟩
    rintro ⟨kind, text, loc⟩ ⟨⟩
    rw [parser]
    rfl
  | some fits =>
    have pieces : tokens (Pieces.ascription layout result (Pieces.node layout depth result)) =
        .plain .colon ":" :: tokens (Pieces.node layout depth result) := by
      simp [Pieces.ascription, fits.typeTree.isAbsent]
    rw [pieces]
    refine .sign within (by decide) rfl rfl (by rw [parser]; rfl) fun r₁ behind => ?_
    refine (reads_of_fits fits layout (behind.typeDue (by decide))
      (behind.last ▸ opensObject_colon) (by simp) quiet).mono
        fun r₂ arrived => ?_
    obtain ⟨reached, ends⟩ := arrived
    refine ⟨reached, ?_⟩
    rintro ⟨kind, text, loc⟩ ⟨⟩
    exact ends _ rfl

/-- The pieces of a function behind its word. -/
def functionPieces (layout : Layout) (depth : Nat) (name : Node) (params : List Node)
    (body result : Node) : List Piece :=
  Pieces.function layout name (params.map (Pieces.binding layout depth))
    (Pieces.ascription layout result (Pieces.node layout depth result))
    (Pieces.blockOf layout depth body)

/-- A function up to the end of its block. -/
theorem Leads.function {R : Prop} {name body result : Node} {params : List Node}
    (slot : NameSlot name) (each : ∀ p ∈ params, ReadsParam layout p)
    (block : ReadsBlock layout body) (typed : ResultSlot (.rendered R) result) {kind : TokenKind}
    (within : Within stack false r) (noPoint : r.before ≠ some .dot)
    (retyped : r.terminators.retyped (.keyword .functionKw) = (kind, false))
    (starts : kind.startsFunction = true) {isExpression : Bool}
    (step : ∀ t, t.kind = kind →
      Parse.step r.parser t = some ⟨.functionName t.loc isExpression, frames⟩) :
    Leads r (tokens (functionPieces layout depth name params body result)) rest fun r =>
      Behind stack false .rightBrace .rightBrace (Parse.endBlock body.unplaced
        (.functionBody ⟨.synthetic, isExpression, name.unplaced⟩ (params.map Node.unplaced)
          result.unplaced :: frames)) r ∧ r.terminators.closedBlock = true := by
  have pieces : tokens (functionPieces layout depth name params body result) =
      .plain (.keyword .functionKw) "function" :: (tokens (Pieces.functionName layout name) ++
        .plain .leftParen "(" ::
          (tokens (Pieces.commas layout (params.map (Pieces.binding layout depth))) ++
            .plain .rightParen ")" ::
              (tokens (Pieces.ascription layout result (Pieces.node layout depth result)) ++
                tokens (Pieces.blockOf layout depth body)))) := by
    simp [functionPieces, Pieces.function, Keyword.spelling]
  obtain ⟨inside, brace⟩ := tokens_blockOf layout depth body
  have quiet (rest : List Token) : Quiet (tokens (Pieces.blockOf layout depth body) ++ rest) := by
    rw [brace]
    exact Token.quiet_cons rfl _ _
  have balanced : Pieces.Balanced
      (Pieces.commas layout (params.map (Pieces.binding layout depth))) :=
    .commas layout (Pieces.balanced_bindings layout depth params)
  -- What follows the parameters is a colon or the brace of the block, never an arrow.
  have noArrow : Token.closesIntoArrow 0 ((tokens (Pieces.commas layout
      (params.map (Pieces.binding layout depth))) ++ .plain .rightParen ")" ::
        (tokens (Pieces.ascription layout result (Pieces.node layout depth result)) ++
          tokens (Pieces.blockOf layout depth body))) ++ rest) = false := by
    rw [List.append_assoc, List.cons_append, balanced.closesIntoArrow, List.append_assoc]
    unfold Pieces.ascription
    split
    · exact (quiet rest).1
    · rfl
  rw [pieces]
  refine .functionHead slot within noPoint retyped starts step noArrow fun r₁ behind => ?_
  refine (Leads.params each behind.toWithin behind.parser (Token.quiet_cons rfl _ _)).append
    fun r₂ ended => ?_
  refine .closingAny ended.within (by decide) rfl (ended.ends _ (by simp)) fun r₃ behind => ?_
  refine (Leads.functionResult typed behind.toWithin behind.last behind.parser (quiet rest)).append
    fun r₄ arrived => ?_
  obtain ⟨reached, opens⟩ := arrived
  exact block reached.within reached.noBrace opens

theorem ReadsExpression.function {R : Prop} {loc : Location} {name body result : Node}
    {params : List Node} (allowed : opening.allowsFunction = true) (slot : NameSlot name)
    (each : ∀ p ∈ params, ReadsParam layout p) (block : ReadsBlock layout body)
    (typed : ResultSlot (.rendered R) result) :
    ReadsExpression layout tightness opening
      (.functionExpression loc false name params body result) := by
  have pieces (depth : Nat) :
      Pieces.node layout depth (.functionExpression loc false name params body result) =
        functionPieces layout depth name params body result := by
    simp [Pieces.node, Pieces.wrapped, functionPieces]
  refine ⟨fun depth => pieces depth ▸ ⟨_, _, _, rfl, rfl, rfl⟩, ?_⟩
  intro depth stack frames r rest due room guard
  have retyped : r.terminators.retyped (.keyword .functionKw) = (.functionExpr, false) := by
    rw [TerminatorState.retyped, if_neg (by simp), if_pos ⟨rfl, due.function allowed⟩,
      due.within.awaiting]
  have step (t : Token) (isFunction : t.kind = .functionExpr) :
      Parse.step r.parser t = some ⟨.functionName t.loc true, frames⟩ := by
    obtain ⟨kind, text, place⟩ := t
    cases isFunction
    exact due.expects _ rfl
  rw [pieces]
  refine (Leads.function slot each block typed due.within due.noPoint retyped rfl step).mono
    fun r₁ arrived => ?_
  obtain ⟨behind, -⟩ := arrived
  have whole : (Node.functionExpression loc false name params body result).unplaced =
      Parse.Header.node ⟨.synthetic, true, name.unplaced⟩ (params.map Node.unplaced) body.unplaced
        result.unplaced := by
    simp [Node.unplaced, Parse.Header.node]
  rw [whole]
  exact behind.reached rfl (.inr rfl)

theorem expects_arrowBody (params : List Node) (frames : List Frame) :
    Parse.Expects (.arrowResult .synthetic params :: frames)
      ⟨.arrowBody .synthetic params, frames⟩ := by
  intro t opens
  have noBrace : t.kind ≠ .leftBrace := by
    intro brace
    rw [brace] at opens
    cases opens
  exact if_neg noBrace

/-- The parameters of an arrow function and its arrow. -/
theorem Leads.arrowHead {params : List Node} (each : ∀ p ∈ params, ReadsParam layout p)
    (due : Due stack opening frames r) (room : Room 1 frames)
    (next : ∀ r, Behind stack false .arrow .arrow
      ⟨.arrowBody .synthetic (params.map Node.unplaced), frames⟩ r → Leads r ts rest Q) :
    Leads r (tokens (Pieces.parens (Pieces.commas layout
      (params.map (Pieces.binding layout depth)))) ++ .plain .arrow "=>" :: ts) rest Q := by
  have balanced : Pieces.Balanced
      (Pieces.commas layout (params.map (Pieces.binding layout depth))) :=
    .commas layout (Pieces.balanced_bindings layout depth params)
  have step : Parse.step r.parser (.plain .arrowParen "(") =
      some ⟨.paramName true, .paramList (.arrow .synthetic) [] :: frames⟩ := by
    rw [due.expects _ rfl]
    simp [Parse.operandStart, Parse.atom?, Parse.opening?, Parse.awaitsOperand_of_room room]
  simp only [Pieces.tokens_parens, List.cons_append, List.append_assoc, List.nil_append]
  refine .arrowParen due.within ?_ step fun r₁ behind => ?_
  · simp only [List.append_assoc, List.cons_append, balanced.closesIntoArrow]
    rfl
  refine (Leads.params each behind.toWithin behind.parser (Token.quiet_cons rfl _ _)).append
    fun r₂ ended => ?_
  refine .closing ended.within (by decide) rfl (ended.ends _ (by simp)) fun r₃ behind => ?_
  exact .sign behind.toWithin (by decide) rfl rfl (by rw [behind.parser]; rfl) next

theorem ReadsExpression.arrow {loc : Location} {params : List Node} {body : Node}
    (loose : tightness ≤ 1) (each : ∀ p ∈ params, ReadsParam layout p)
    (inner : ReadsExpression layout 1 .noObject body) (noObject : Print.isBareObject body = false)
    (opens : ∀ depth,
      Pieces.Opens (Pieces.node layout depth (.arrowFunction loc false params body))) :
    ReadsExpression layout tightness opening (.arrowFunction loc false params body) := by
  refine ⟨opens, ?_⟩
  intro depth stack frames r rest due room guard
  have pieces : tokens (Pieces.node layout depth (.arrowFunction loc false params body)) =
      tokens (Pieces.parens (Pieces.commas layout (params.map (Pieces.binding layout depth)))) ++
        .plain .arrow "=>" :: tokens (Pieces.node layout depth body) := by
    simp [Pieces.node, Pieces.wrapped, noObject]
  rw [pieces]
  refine .arrowHead each due (room.mono loose) fun r₁ behind => ?_
  have due₁ : Due stack .noObject
      (.arrowResult .synthetic (params.map Node.unplaced) :: frames) r₁ :=
    ⟨behind.toWithin, behind.parser ▸ expects_arrowBody _ _, by simp [behind.before],
      by rintro ⟨⟩, fun _ => .inr behind.last⟩
  refine (inner.leads due₁ ⟨by simp, Nat.le_refl _⟩
    ⟨guard.noArrow, fun _ => ⟨behind.inert rfl, Nat.le_refl _⟩⟩).mono fun r₂ reached => ?_
  refine ⟨reached.within, reached.inert, reached.ready.last loose ?_⟩
  simp [Frame.close, Node.unplaced]

theorem ReadsExpression.arrowBlock {loc : Location} {params : List Node} {body : Node}
    (loose : tightness ≤ 1) (each : ∀ p ∈ params, ReadsParam layout p)
    (block : ReadsBlock layout body) (pieced : ∀ depth,
      Pieces.wrapped (Print.isBareObject body) (Pieces.node layout depth body) =
        Pieces.blockOf layout depth body)
    (opens : ∀ depth,
      Pieces.Opens (Pieces.node layout depth (.arrowFunction loc false params body))) :
    ReadsExpression layout tightness opening (.arrowFunction loc false params body) := by
  refine ⟨opens, ?_⟩
  intro depth stack frames r rest due room guard
  have pieces : tokens (Pieces.node layout depth (.arrowFunction loc false params body)) =
      tokens (Pieces.parens (Pieces.commas layout (params.map (Pieces.binding layout depth)))) ++
        .plain .arrow "=>" :: tokens (Pieces.blockOf layout depth body) := by
    rw [← pieced]
    simp only [Pieces.node, Pieces.bindings_eq_map]
    simp [Pieces.wrapped]
  rw [pieces]
  refine .arrowHead each due (room.mono loose) fun r₁ behind => ?_
  have step (t : Token) (brace : t.kind = .leftBrace) : Parse.step r₁.parser t = some
      ⟨.statement,
        .block t.loc [] :: .arrowBlock .synthetic (params.map Node.unplaced) :: frames⟩ := by
    obtain ⟨kind, text, place⟩ := t
    cases brace
    rw [behind.parser]
    rfl
  refine (block behind.toWithin (by rw [behind.last]; rfl) step).mono fun r₂ arrived => ?_
  obtain ⟨behind, -⟩ := arrived
  refine ⟨behind.toWithin, behind.inert rfl, behind.parser ▸ ?_⟩
  have whole : (Node.arrowFunction loc false params body).unplaced =
      .arrowFunction .synthetic false (params.map Node.unplaced) body.unplaced := by
    simp [Node.unplaced]
  rw [whole]
  exact Parse.ready_complete loose _ frames

end Reader

end TypeGloss
