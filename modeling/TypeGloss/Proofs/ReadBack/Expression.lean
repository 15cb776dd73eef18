import TypeGloss.Proofs.PrintedScan
import TypeGloss.Proofs.ReadBack.Balance
import TypeGloss.Proofs.ReadBack.Token
import TypeGloss.Proofs.Soundness.Expression

/-!
# Expressions are read back

Where an operand is due, the tokens of an expression lead to a state that is ready for what may
follow the expression. Such a state is described by what it does: a token that ends the expression
hands the whole expression to the frames around it, and so does an operator that binds less tightly.
Which operators are still open inside the expression does not matter.
-/

namespace TypeGloss

open Lexeme (isWordText IsName IsNumber IsString IsTemplate)
open Grammar (Opening)

open Token (Quiet)

theorem Pieces.Opens.head {ps : List Piece} (opens : Pieces.Opens ps) (rest : List Token) :
    ∃ kind t later, Pieces.tokens ps ++ rest = .plain kind t :: later ∧
      Token.isQuiet kind = true := by
  obtain ⟨kind, t, others, rfl, isOperand, -⟩ := opens
  refine ⟨kind, t, _, rfl, ?_⟩
  cases kind <;> first | rfl | cases isOperand

theorem Pieces.Opens.quiet {ps : List Piece} (opens : Pieces.Opens ps) (rest : List Token) :
    Quiet (Pieces.tokens ps ++ rest) := by
  obtain ⟨kind, t, later, same, quiet⟩ := opens.head rest
  rw [same]
  exact Token.quiet_cons quiet t later

namespace Parse

/-- Kinds with which an expression starts. -/
def opensExpression : TokenKind → Bool
  | .name | .number | .string | .template | .keyword .trueKw | .keyword .falseKw | .keyword .nullKw
  | .keyword .thisKw | .leftParen | .leftBracket | .objectBrace | .functionExpr | .keyword .newKw
  | .additive | .bang | .tilde | .keyword .typeofKw | .keyword .voidKw | .keyword .deleteKw
  | .incDec | .arrowParen => true
  | _ => false

/-- A state where an operand is due inside frames. -/
def Expects (frames : List Frame) (s : State) : Prop :=
  ∀ t, opensExpression t.kind = true → step s t = operandStart t frames

theorem expects_operand (frames : List Frame) : Expects frames ⟨.operand, frames⟩ := fun _ _ => rfl

theorem expects_comparison (left : Operand) (sign : Text) (frames : List Frame) :
    Expects (.rightOf left.start left.node sign .relational :: frames)
      ⟨.comparison left sign, frames⟩ := by
  intro t opens
  have noAssign : t.kind ≠ .assign := by
    intro assign
    rw [assign] at opens
    cases opens
  simp [step, comparisonNext, noAssign]

/-- Kinds that end an expression. -/
def endsExpression : TokenKind → Bool
  | .rightParen | .rightBracket | .rightBrace | .comma | .colon | .terminator => true
  | _ => false

/-- A state behind an expression of some tightness inside frames. -/
structure Ready (tightness : Nat) (node : Node) (frames : List Frame) (s : State) : Prop where
  ends : ∀ t, endsExpression t.kind = true → (t.kind = .comma → 1 ≤ tightness) →
    step s t = expressionEnd t ⟨node, .synthetic, .operand⟩ frames
  infixes : ∀ t level, Level.ofKind? t.kind = some level → level.rank + 2 ≤ tightness →
    step s t = infixNext t ⟨node, .synthetic, .operand⟩ frames
  tests : ∀ t, t.kind = .question → 2 ≤ tightness →
    step s t = infixNext t ⟨node, .synthetic, .operand⟩ frames
  suffixes : 10 ≤ tightness → ∃ grip, (grip = .name ∨ grip = .callable) ∧
    s = ⟨.operator ⟨node, .synthetic, grip⟩, frames⟩

theorem suffix?_of_endsExpression {t : Token} (ends : endsExpression t.kind = true) (x : Operand)
    (frames : List Frame) : suffix? t x frames = none ∧ binding? t x frames = none ∧
      infixNext t x frames = expressionEnd t x frames := by
  obtain ⟨kind, text, loc⟩ := t
  cases kind <;> first | exact ⟨rfl, rfl, rfl⟩ | cases ends

theorem suffix?_of_level {t : Token} {level : Level} (infixed : Level.ofKind? t.kind = some level)
    (x : Operand) (frames : List Frame) :
    suffix? t x frames = none ∧ binding? t x frames = none := by
  obtain ⟨kind, text, loc⟩ := t
  cases kind <;> first | exact ⟨rfl, rfl⟩ | cases infixed

theorem operatorNext_callable {t : Token} {x : Operand} {frames : List Frame}
    (grip : x.grip = .name ∨ x.grip = .callable)
    (none : suffix? t x frames = none ∧ binding? t x frames = none) :
    operatorNext t x frames = infixNext t x frames := by
  unfold operatorNext
  rcases grip with grip | grip <;> simp [grip, none]

/-- Behind an expression that may be called. -/
theorem ready_callable (tightness : Nat) (node : Node) (frames : List Frame) {grip : Grip}
    (callable : grip = .name ∨ grip = .callable) :
    Ready tightness node frames ⟨.operator ⟨node, .synthetic, grip⟩, frames⟩ where
  ends t ends _ := by
    obtain ⟨noSuffix, noBinding, last⟩ :=
      suffix?_of_endsExpression ends ⟨node, .synthetic, grip⟩ frames
    exact (operatorNext_callable callable ⟨noSuffix, noBinding⟩).trans last
  infixes t level infixed _ := operatorNext_callable callable (suffix?_of_level infixed _ _)
  tests t question _ := operatorNext_callable callable (by simp [suffix?, binding?, question])
  suffixes _ := ⟨grip, callable, rfl⟩

/-- Behind an expression that may only be an operand. -/
theorem ready_operand {tightness : Nat} (loose : tightness ≤ 9) (node : Node)
    (frames : List Frame) :
    Ready tightness node frames ⟨.operator ⟨node, .synthetic, .operand⟩, frames⟩ where
  ends t ends _ := (suffix?_of_endsExpression ends ⟨node, .synthetic, .operand⟩ frames).2.2
  infixes _ _ _ _ := rfl
  tests _ _ _ := rfl
  suffixes tight := by omega

/-- Behind an arrow function with a block. -/
theorem ready_complete {tightness : Nat} (loose : tightness ≤ 1) (node : Node)
    (frames : List Frame) :
    Ready tightness node frames ⟨.operator ⟨node, .synthetic, .complete⟩, frames⟩ where
  ends _ _ _ := rfl
  infixes _ _ _ tight := by omega
  tests _ _ tight := by omega
  suffixes tight := by omega

/-- Signs that prolong an expression that may be called. -/
theorem Ready.suffix {node : Node} {frames : List Frame} {s : State}
    (ready : Ready 10 node frames s) {t : Token} {next : Grip → State}
    (prolongs : ∀ grip, suffix? t ⟨node, .synthetic, grip⟩ frames = some (next grip)) :
    ∃ grip, step s t = some (next grip) := by
  obtain ⟨grip, callable, rfl⟩ := ready.suffixes (Nat.le_refl _)
  refine ⟨grip, ?_⟩
  rcases callable with rfl | rfl <;> simp [step, operatorNext, prolongs]

/-- The operand of an operator before it, and the whole expression. -/
theorem Ready.before {tightness : Nat} {node outer : Node} {frame : Frame} {frames : List Frame}
    {s : State} (ready : Ready 8 node (frame :: frames) s) (loose : tightness ≤ 8)
    (close : Frame.close node .synthetic (frame :: frames) =
      Frame.close outer .synthetic frames)
    (closeTighter : ∀ level, Frame.closeTighter level node .synthetic (frame :: frames) =
      Frame.closeTighter level outer .synthetic frames) :
    Ready tightness outer frames s where
  ends t ends _ := by
    rw [ready.ends t ends (by simp), expressionEnd, close]
    rfl
  infixes t level infixed tight := by
    rw [ready.infixes t level infixed (tight.trans loose)]
    simp only [infixNext, infixed, closeTighter]
  tests t question tight := by
    rw [ready.tests t question (by decide)]
    simp only [infixNext, closeTighter, expressionEnd, close]
  suffixes tight := by omega

/-- The second operand of an operator, and the whole expression. -/
theorem Ready.right {tightness : Nat} {level : Level} {left right : Node} {sign : Text}
    {frames : List Frame} {s : State}
    (ready : Ready (level.rank + 3) right (.rightOf .synthetic left sign level :: frames) s)
    (loose : tightness ≤ level.rank + 2) :
    Ready tightness (level.node .synthetic sign left right) frames s where
  ends t ends _ := ready.ends t ends (by simp)
  infixes t inner infixed tight := by
    have binds : inner.rank ≤ level.rank := by omega
    rw [ready.infixes t inner infixed (by omega)]
    simp only [infixNext, infixed, Frame.closeTighter, if_pos binds]
  tests t question tight := by
    have binds : Level.orElse.rank ≤ level.rank := Nat.zero_le _
    rw [ready.tests t question (by omega)]
    simp only [infixNext, question, Level.ofKind?, Frame.closeTighter, if_pos binds, if_true]
  suffixes tight := by
    have rank : level.rank ≤ 5 := by cases level <;> decide
    omega

/-- The last part of an expression that does not bind, and the whole expression. -/
theorem Ready.last {tightness : Nat} {node outer : Node} {frame : Frame} {frames : List Frame}
    {s : State} (ready : Ready 1 node (frame :: frames) s) (loose : tightness ≤ 1)
    (close : Frame.close node .synthetic (frame :: frames) =
      Frame.close outer .synthetic frames) : Ready tightness outer frames s where
  ends t ends _ := by
    rw [ready.ends t ends (by simp), expressionEnd, close]
    rfl
  infixes t level infixed tight := by omega
  tests t question tight := by omega
  suffixes tight := by omega

theorem unplaced_level (level : Level) (loc : Location) (sign : Text) (left right : Node) :
    (level.node loc sign left right).unplaced =
      level.node .synthetic sign left.unplaced right.unplaced := by
  cases level <;> rfl

/-- Frames in which an expression of some tightness may stand. -/
structure Room (tightness : Nat) (frames : List Frame) : Prop where
  some : frames ≠ []
  tight : tightnessOf frames ≤ tightness

/-- An operator before its operand leaves the frames below it as they are. -/
theorem closeTighter_of_room {level : Level} {frames : List Frame}
    (room : Room (level.rank + 2) frames) (node : Node) (start : Location) :
    Frame.closeTighter level node start frames = (node, start, frames) := by
  have rank : level.rank ≤ 5 := by cases level <;> decide
  have tight := room.tight
  match frames with
  | [] => rfl
  | frame :: below =>
    cases frame with
    | unary | update => simp only [tightnessOf, Frame.tightness] at tight; omega
    | rightOf leftStart left operator inner =>
      simp only [tightnessOf, Frame.tightness] at tight
      rw [Frame.closeTighter, if_neg (by omega)]
    | _ => rfl

/-- The state behind an operator that binds less tightly than its left operand. -/
def afterInfix (t : Token) (level : Level) (left : Node) (frames : List Frame) : State :=
  if t.kind = .less ∨ t.kind = .greater then
    ⟨.comparison ⟨left, .synthetic, .operand⟩ t.text, frames⟩
  else ⟨.operand, .rightOf .synthetic left t.text level :: frames⟩

theorem infixNext_of_room {t : Token} {level : Level} {frames : List Frame}
    (infixed : Level.ofKind? t.kind = some level) (room : Room (level.rank + 2) frames)
    (left : Node) :
    infixNext t ⟨left, .synthetic, .operand⟩ frames = some (afterInfix t level left frames) := by
  simp only [infixNext, infixed, closeTighter_of_room room, afterInfix]
  split <;> rfl

theorem expects_afterInfix {t : Token} {level : Level}
    (infixed : Level.ofKind? t.kind = some level) (left : Node) (frames : List Frame) :
    Expects (.rightOf .synthetic left t.text level :: frames) (afterInfix t level left frames) := by
  unfold afterInfix
  split
  case isTrue comparison =>
    obtain rfl : level = .relational := by
      rcases comparison with kind | kind <;> rw [kind] at infixed <;> cases infixed <;> rfl
    exact expects_comparison _ _ _
  case isFalse => exact expects_operand _

/-- Where an expression need not bind, all that ends with it has ended. -/
theorem close_of_room {frames : List Frame} (room : Room 0 frames) (node : Node)
    (start : Location) : Frame.close node start frames = (node, start, frames) := by
  have tight := room.tight
  match frames with
  | [] => rfl
  | frame :: below =>
    cases frame <;> first | rfl | simp [tightnessOf, Frame.tightness] at tight

theorem awaitsOperand_of_room {frames : List Frame} (room : Room 1 frames) :
    Frame.awaitsOperand frames = false := by
  have tight := room.tight
  match frames with
  | [] => rfl
  | frame :: below =>
    cases frame <;> first | rfl | simp [tightnessOf, Frame.tightness] at tight

/-- Every expression that may be called fits everywhere. -/
theorem Room.ten {tightness : Nat} {frames : List Frame} (room : Room tightness frames) :
    Room 10 frames :=
  ⟨room.some, (tightnessOf_le_eight frames).trans (by decide)⟩

/-- A question mark behind the test of a condition. -/
theorem infixNext_question {t : Token} {frames : List Frame} (question : t.kind = .question)
    (room : Room 2 frames) (test : Node) :
    infixNext t ⟨test, .synthetic, .operand⟩ frames =
      some ⟨.operand, .conditionThen .synthetic test :: frames⟩ := by
  have room : Room (Level.orElse.rank + 2) frames := room
  have stays := closeTighter_of_room room test .synthetic
  simp only [infixNext, question, Level.ofKind?, stays, if_true]

/-- A sign that assigns behind its target. -/
theorem Ready.assign {node : Node} {frames : List Frame} {s : State}
    (ready : Ready 10 node frames s)
    (room : Room 1 frames) {t : Token} (assigns : t.kind = .assign ∨ t.kind = .compoundAssign) :
    step s t = some ⟨.operand, .assigned .synthetic node t.text :: frames⟩ := by
  obtain ⟨grip, callable, rfl⟩ := ready.suffixes (Nat.le_refl _)
  have free := awaitsOperand_of_room room
  rcases callable with rfl | rfl <;> rcases assigns with kind | kind <;>
    simp [step, operatorNext, suffix?, binding?, kind, free]

/-- A comma where a sequence may stand. -/
theorem expressionEnd_comma {t : Token} {frames : List Frame} (room : Room 0 frames)
    (comma : t.kind = .comma) (node : Node) :
    expressionEnd t ⟨node, .synthetic, .operand⟩ frames =
      some ⟨.operand, .sequence .synthetic [node] :: frames⟩ := by
  simp only [expressionEnd, close_of_room room, comma, if_true]
  have tight := room.tight
  cases frames with
  | nil => exact absurd rfl room.some
  | cons frame below => cases frame <;> first | rfl | simp [tightnessOf, Frame.tightness] at tight

/-- The last of several expressions, and the sequence. -/
theorem Ready.sequence {last : Node} {others : List Node} {frames : List Frame} {s : State}
    (ready : Ready 1 last (.sequence .synthetic others :: frames) s) (room : Room 0 frames) :
    Ready 0 (.sequence .synthetic false (last :: others).reverse) frames s where
  ends t ends noComma := by
    have comma : t.kind ≠ .comma := fun comma => absurd (noComma comma) (by decide)
    have noSequence : ∀ node start, endSequence node start frames = (node, start, frames) := by
      intro node start
      have tight := room.tight
      match frames with
      | [] => rfl
      | frame :: below => cases frame <;> first | rfl | simp [tightnessOf, Frame.tightness] at tight
    rw [ready.ends t ends fun _ => Nat.le_refl _]
    simp only [expressionEnd, if_neg comma, close_of_room room, noSequence]
    rfl
  infixes t level infixed tight := by omega
  tests t question tight := by omega
  suffixes tight := by omega

theorem Room.mono {tightness other : Nat} {frames : List Frame} (room : Room tightness frames)
    (le : tightness ≤ other) : Room other frames :=
  ⟨room.some, room.tight.trans le⟩

end Parse

namespace Reader

open Parse (Frame Expects Ready Room)
open Pieces (tokens)

/-- Where an operand is due inside frames. -/
structure Due (stack : List Enclosure) (opening : Opening) (frames : List Frame) (r : Reader) :
    Prop where
  within : Within stack false r
  expects : Expects frames r.parser
  noPoint : r.before ≠ some .dot
  object : opening.allowsObject = true →
    r.terminators.last.any TokenKind.precedesExpression = true
  function : opening.allowsFunction = true →
    r.terminators.last.any TokenKind.precedesExpression = true ∨ r.terminators.last = some .arrow

/-- Tokens that may follow an expression that starts here: a colon may do so only where it makes no
key of a reserved word, and not behind a sequence. -/
structure Guard (tightness : Nat) (r : Reader) (rest : List Token) : Prop where
  noArrow : Token.arrowFollows rest = false
  keeps : Token.followsKey rest = true → r.Inert ∧ 1 ≤ tightness

/-- Behind an expression. -/
structure Reached (stack : List Enclosure) (tightness : Nat) (node : Node) (frames : List Frame)
    (r : Reader) : Prop where
  within : Within stack false r
  inert : r.Inert
  ready : Ready tightness node frames r.parser

/-- An expression that is read back wherever it may stand. -/
structure ReadsExpression (layout : Layout) (tightness : Nat) (opening : Opening) (node : Node) :
    Prop where
  opens : ∀ depth, Pieces.Opens (Pieces.node layout depth node)
  leads : ∀ {depth stack frames r rest}, Due stack opening frames r → Room tightness frames →
    Guard tightness r rest → Leads r (tokens (Pieces.node layout depth node)) rest
      (Reached stack tightness node.unplaced frames)

variable {layout : Layout} {depth : Nat} {stack : List Enclosure} {awaiting : Bool}
  {frames : List Frame} {r : Reader} {ts rest : List Token} {t : Text} {p : Parse.State}
  {Q : Reader → Prop} {before last : TokenKind} {opening : Opening} {tightness : Nat} {node : Node}

theorem guard_of_quiet (quiet : Quiet rest) : Guard tightness r rest :=
  ⟨quiet.1, fun key => by simp [quiet.2] at key⟩

theorem Due.keeps (due : Due stack opening frames r) (guard : Guard tightness r rest) :
    r.Keeps rest := by
  cases key : Token.followsKey rest with
  | true => exact (guard.keeps key).1 rest
  | false => exact keeps_of_quiet due.noPoint ⟨guard.noArrow, key⟩

theorem Behind.due (behind : Behind stack false before last p r) (expects : Expects frames p)
    (precedes : last.precedesExpression = true) (noPoint : before ≠ .dot) :
    Due stack opening frames r where
  within := behind.toWithin
  expects := behind.parser ▸ expects
  noPoint := by simpa [behind.before] using noPoint
  object _ := by simpa [behind.last] using precedes
  function _ := .inl (by simpa [behind.last] using precedes)

/-- A finished expression that may be called. -/
theorem Behind.reached {grip : Parse.Grip}
    (behind : Behind stack false before last ⟨.operator ⟨node, .synthetic, grip⟩, frames⟩ r)
    (inert : isInert before = true) (callable : grip = .name ∨ grip = .callable) :
    Reached stack tightness node frames r where
  within := behind.toWithin
  inert := behind.inert inert
  ready := behind.parser ▸ Parse.ready_callable tightness node frames callable

/-- The kinds of names and literals. -/
def atomKinds : List TokenKind :=
  [.name, .number, .string, .template, .keyword .trueKw, .keyword .falseKw, .keyword .nullKw,
    .keyword .thisKw]

/-- A name or a literal. -/
theorem ReadsExpression.atom (kind : TokenKind) {grip : Parse.Grip} (isAtom : kind ∈ atomKinds)
    (pieces : ∀ depth, Pieces.node layout depth node = [.token kind t])
    (spells : Lexeme.Spells kind t)
    (atom : Parse.atom? (.plain kind t) = some (node.unplaced, grip))
    (callable : grip = .name ∨ grip = .callable) :
    ReadsExpression layout tightness opening node := by
  have facts : ∀ kind ∈ atomKinds, Parse.opensExpression kind = true ∧
      Lexeme.opensOperand kind = true ∧ kind ≠ .newline ∧ isOrdinary kind = true ∧
      isInert kind = true := by decide
  obtain ⟨isOpening, isOperand, noNewline, ordinary, inert⟩ := facts kind isAtom
  refine ⟨fun depth => ⟨kind, t, [], pieces depth, isOperand, spells⟩, ?_⟩
  intro depth stack frames r rest due room guard
  have step : Parse.step r.parser (.plain kind t) =
      some ⟨.operator ⟨node.unplaced, .synthetic, grip⟩, frames⟩ := by
    rw [due.expects _ isOpening, Parse.operandStart, atom]
    rfl
  rw [pieces]
  exact .ordinary due.within noNewline (due.keeps guard).named ordinary step fun r behind =>
    .nil (behind.reached inert callable)

theorem ReadsExpression.name {loc : Location} {name : Text} (isName : IsName name) :
    ReadsExpression layout tightness opening (.identifier loc false name .absent) := by
  have kind : Pieces.wordKind name = .name := by simp [Pieces.wordKind, isName.2]
  refine .atom .name (by decide) (fun _ => ?_) ?_ rfl (.inl rfl)
  · exact congrArg (fun kind => [Piece.token kind name]) kind
  · exact kind ▸ Pieces.spells_wordKind isName.1

/-- An expression in parentheses. -/
theorem ReadsExpression.wrapped (inner : ReadsExpression layout 0 .any node)
    (carries : node.carriesLinks = true) (unwrapped : node.isWrapped = false) :
    ReadsExpression layout tightness opening node.wrap := by
  have pieces := Pieces.node_wrap carries unwrapped layout
  refine ⟨fun depth => ?_, ?_⟩
  · rw [pieces]
    exact ⟨.leftParen, _, _, rfl, rfl, by simp only [Lexeme.Spells]; decide⟩
  · intro depth stack frames r rest due room guard
    rw [pieces, Pieces.tokens_parens]
    -- The parenthesis opens no parameters, because no arrow follows the expression.
    have noArrow := (Pieces.balanced_node layout depth node).closesIntoArrow ")" rest
    rw [guard.noArrow] at noArrow
    refine .leftParen due.within.toCalm (by simpa using noArrow)
      (due.expects _ rfl : _ = some ⟨.operand, .group .synthetic :: frames⟩) fun r₁ behind => ?_
    rw [due.within.paren] at behind
    refine (inner.leads (behind.due (Parse.expects_operand _) rfl (by decide))
      ⟨by simp, Nat.le_refl _⟩
      (guard_of_quiet (Token.quiet_cons rfl _ _))).append fun r₂ reached => ?_
    refine .closing reached.within (by decide) rfl (reached.ready.ends _ rfl (by simp))
      fun r₃ behind => .nil ?_
    rw [← Node.wrap_unplaced]
    exact behind.reached rfl (.inr rfl)

/-- Expressions with commas between them, in a frame that takes a list of them. -/
theorem Leads.expressions {items : List Node} (frame : List Node → Frame)
    (each : ∀ e ∈ items, ReadsExpression layout 1 .any e)
    (loose : ∀ done, (frame done).tightness ≤ 1)
    (next : ∀ t, t.kind = .comma → ∀ node done,
      Parse.expressionEnd t ⟨node, .synthetic, .operand⟩ (frame done :: frames) =
        some ⟨.operand, frame (node :: done) :: frames⟩)
    (nonempty : items ≠ []) {done : List Node} (due : Due stack .any (frame done :: frames) r)
    (quiet : Quiet rest) :
    Leads r (tokens (Pieces.commas layout (items.map (Pieces.node layout depth)))) rest
      (Listed (fun last others => Reached stack 1 last (frame others :: frames))
        (done.reverse ++ items.map Node.unplaced)) := by
  refine .commas (fun done => Due stack .any (frame done :: frames)) ?_ ?_ nonempty due quiet
  · intro item mem done r rest due quiet
    exact (each item mem).leads due ⟨by simp, loose done⟩ (guard_of_quiet quiet)
  · intro item done r ts rest Q reached continues
    refine .sign reached.within (by decide) rfl rfl
      ((reached.ready.ends _ rfl (by simp)).trans (next _ rfl _ _)) fun r' behind => ?_
    exact continues r' (behind.due (Parse.expects_operand _) rfl (by decide))

/-- An expression with a suffix, whose first token leaves the expression before it as it is. -/
theorem ReadsExpression.suffixed {whole : Node} {suffix : Nat → List Piece}
    (inner : ReadsExpression layout 10 opening node)
    (pieces : ∀ depth,
      Pieces.node layout depth whole = Pieces.node layout depth node ++ suffix depth)
    (quiet : ∀ depth rest, Quiet (tokens (suffix depth) ++ rest))
    (leads : ∀ {depth stack frames r rest}, Reached stack 10 node.unplaced frames r →
      Token.arrowFollows rest = false →
      Leads r (tokens (suffix depth)) rest (Reached stack tightness whole.unplaced frames)) :
    ReadsExpression layout tightness opening whole := by
  refine ⟨fun depth => pieces depth ▸ (inner.opens depth).append _, ?_⟩
  intro depth stack frames r rest due room guard
  rw [pieces, Pieces.tokens_append]
  exact (inner.leads due room.ten (guard_of_quiet (quiet depth rest))).append
    fun r₁ reached => leads reached guard.noArrow

/-- A property behind a point. -/
theorem ReadsExpression.member {loc nameLoc : Location} {name : Text}
    (inner : ReadsExpression layout 10 opening node) :
    ReadsExpression layout tightness opening
      (.member loc false node (.identifier nameLoc false name .absent) false) := by
  refine inner.suffixed (fun _ => (rfl : _ = _ ++ [Pieces.dot, Pieces.name name]))
    (fun _ _ => Token.quiet_cons rfl _ _) fun reached _ => ?_
  obtain ⟨_, step⟩ := reached.ready.suffix (t := .plain .dot ".") fun _ => rfl
  refine .sign reached.within (by decide) rfl rfl step fun r₂ behind => ?_
  refine .word behind.toWithin (by simp [behind.before, Token.namesProperty])
    (by rw [behind.parser]; rfl) fun r₃ behind => .nil ?_
  exact behind.reached rfl (.inr rfl)

/-- A property in brackets. -/
theorem ReadsExpression.index {loc : Location} {selector : Node}
    (inner : ReadsExpression layout 10 opening node)
    (selected : ReadsExpression layout 0 .any selector) :
    ReadsExpression layout tightness opening (.member loc false node selector true) := by
  refine inner.suffixed (fun depth => (rfl : _ = _ ++ (Pieces.leftBracket ::
    Pieces.node layout depth selector ++ [Pieces.rightBracket])))
    (fun _ _ => Token.quiet_cons rfl _ _) fun reached _ => ?_
  obtain ⟨_, step⟩ := reached.ready.suffix (t := .plain .leftBracket "[") fun _ => rfl
  simp only [List.cons_append, Pieces.tokens_leftBracket, Pieces.tokens_append]
  refine .leftBracket reached.within step fun r₂ behind => ?_
  refine (selected.leads (behind.due (Parse.expects_operand _) rfl (by decide))
    ⟨by simp, Nat.le_refl _⟩ (guard_of_quiet (Token.quiet_cons rfl _ _))).append
    fun r₃ reached => ?_
  refine .closing reached.within (by decide) rfl (reached.ready.ends _ rfl (by simp))
    fun r₄ behind => .nil ?_
  exact behind.reached rfl (.inr rfl)

theorem balanced_commas (layout : Layout) (depth : Nat) (items : List Node) :
    Pieces.Balanced (Pieces.commas layout (items.map (Pieces.node layout depth))) :=
  .commas layout (Pieces.balanced_nodes layout depth items)

/-- The arguments of a call behind its parenthesis. -/
theorem Leads.arguments {arguments : List Node} {isNew : Bool} {callee : Node}
    (each : ∀ a ∈ arguments, ReadsExpression layout 1 .any a)
    (due : Due (.paren :: stack) .any (.arguments .synthetic callee isNew [] :: frames) r)
    (parser : r.parser = ⟨.operand, .arguments .synthetic callee isNew [] :: frames⟩) :
    Leads r (tokens (Pieces.commas layout (arguments.map (Pieces.node layout depth))) ++
      [.plain .rightParen ")"]) rest (Reached stack tightness
        (Parse.callNode isNew .synthetic callee (arguments.map Node.unplaced)) frames) := by
  by_cases nonempty : arguments = []
  · subst nonempty
    refine .closing due.within (by decide) rfl (by rw [parser]; rfl) fun r₁ behind => .nil ?_
    exact behind.reached rfl (.inr rfl)
  · refine (Leads.expressions (.arguments .synthetic callee isNew) each
      (fun _ => Nat.le_refl _) ?_ nonempty due (Token.quiet_cons rfl _ _)).append ?_
    · rintro ⟨kind, text, loc⟩ ⟨⟩ node done
      rfl
    · rintro r₁ ⟨last, others, listed, reached⟩
      rw [List.reverse_nil, List.nil_append] at listed
      refine .closing reached.within (by decide) rfl (reached.ready.ends _ rfl (by simp))
        fun r₂ behind => .nil ?_
      rw [← listed]
      exact behind.reached rfl (.inr rfl)

theorem ReadsExpression.call {loc : Location} {arguments : List Node}
    (called : ReadsExpression layout 10 opening node)
    (each : ∀ a ∈ arguments, ReadsExpression layout 1 .any a) :
    ReadsExpression layout tightness opening (.call loc false node arguments) := by
  have pieces (depth : Nat) : Pieces.node layout depth (.call loc false node arguments) =
      Pieces.node layout depth node ++
        Pieces.parens (Pieces.commas layout (arguments.map (Pieces.node layout depth))) := by
    simp [Pieces.node, Pieces.wrapped]
  refine called.suffixed pieces (fun _ _ => Token.quiet_cons rfl _ _)
    fun {depth stack frames r rest} reached noArrow => ?_
  rw [Pieces.tokens_parens]
  obtain ⟨_, step⟩ := reached.ready.suffix (t := .plain .leftParen "(") fun _ => rfl
  rw [← (balanced_commas layout depth arguments).closesIntoArrow ")" rest] at noArrow
  refine .leftParen reached.within.toCalm (by simpa using noArrow) step fun r₂ behind => ?_
  rw [reached.within.paren] at behind
  have same : (Node.call loc false node arguments).unplaced =
      Parse.callNode false .synthetic node.unplaced (arguments.map Node.unplaced) := by
    simp [Node.unplaced, Parse.callNode]
  rw [same]
  exact .arguments each (behind.due (Parse.expects_operand _) rfl (by decide)) behind.parser

/-- What `new` constructs is read back. -/
structure ReadsCallee (layout : Layout) (node : Node) : Prop where
  opens : ∀ depth, Pieces.Opens (Pieces.node layout depth node)
  leads : ∀ {depth stack frames r rest}, Within stack false r →
    r.parser = ⟨.newName .synthetic, frames⟩ →
    Leads r (tokens (Pieces.node layout depth node)) rest
      (Behind stack false .name .name ⟨.newCallee .synthetic node.unplaced, frames⟩)

theorem ReadsCallee.name {loc : Location} {name : Text} (isName : IsName name) :
    ReadsCallee layout (.identifier loc false name .absent) where
  opens depth := Grammar.opens_word isName.1 []
  leads {depth stack frames r rest} within parser := by
    rw [Pieces.node_identifier, Pieces.tokens_name, Pieces.wordKind, isName.2]
    exact .sign within (by decide) rfl rfl (by rw [parser]; rfl) fun r behind => .nil behind

theorem ReadsCallee.member {loc nameLoc : Location} {name : Text}
    (inner : ReadsCallee layout node) :
    ReadsCallee layout (.member loc false node (.identifier nameLoc false name .absent) false) := by
  have pieces (depth : Nat) : Pieces.node layout depth
      (.member loc false node (.identifier nameLoc false name .absent) false) =
        Pieces.node layout depth node ++ [Pieces.dot, Pieces.name name] := rfl
  refine ⟨fun depth => pieces depth ▸ (inner.opens depth).append _, ?_⟩
  intro depth stack frames r rest within parser
  rw [pieces, Pieces.tokens_append]
  refine (inner.leads within parser).append fun r₁ behind => ?_
  refine .sign behind.toWithin (by decide) rfl rfl (by rw [behind.parser]; rfl) fun r₂ behind => ?_
  refine .word behind.toWithin (by simp [behind.before, Token.namesProperty])
    (by rw [behind.parser]; rfl) fun r₃ behind => .nil ?_
  simpa [Node.unplaced, Parse.identifier] using behind

theorem ReadsExpression.construction {loc : Location} {arguments : List Node}
    (called : ReadsCallee layout node)
    (each : ∀ a ∈ arguments, ReadsExpression layout 1 .any a) :
    ReadsExpression layout tightness opening (.construction loc false node arguments) := by
  have pieces (depth : Nat) : Pieces.node layout depth (.construction loc false node arguments) =
      Pieces.keyword .newKw :: .blank :: Pieces.node layout depth node ++
        Pieces.parens (Pieces.commas layout (arguments.map (Pieces.node layout depth))) := by
    simp [Pieces.node, Pieces.wrapped]
  refine ⟨fun depth => pieces depth ▸ ⟨_, _, _, rfl, rfl, rfl⟩, ?_⟩
  intro depth stack frames r rest due room guard
  simp only [pieces, List.cons_append, Pieces.tokens_keyword, Pieces.tokens_blank,
    Pieces.tokens_append, Pieces.tokens_parens]
  refine .keyword due.within rfl ?_ (due.expects _ rfl) fun r₁ behind => ?_
  · rw [List.append_assoc]
    exact keeps_of_quiet due.noPoint ((called.opens depth).quiet _)
  refine (called.leads behind.toWithin behind.parser).append fun r₂ behind => ?_
  have noArrow := (balanced_commas layout depth arguments).closesIntoArrow ")" rest
  rw [guard.noArrow] at noArrow
  have paren := behind.paren
  refine .leftParen behind.toCalm (by simpa using noArrow) (by rw [behind.parser]; rfl)
    fun r₃ behind => ?_
  rw [paren] at behind
  have same : (Node.construction loc false node arguments).unplaced =
      Parse.callNode true .synthetic node.unplaced (arguments.map Node.unplaced) := by
    simp [Node.unplaced, Parse.callNode]
  rw [same]
  exact .arguments each (behind.due (Parse.expects_operand _) rfl (by decide)) behind.parser

/-- A change of a variable behind it. -/
theorem ReadsExpression.updateBehind {loc : Location} {operator : Text} (loose : tightness ≤ 9)
    (sign : operator ∈ Grammar.updateSigns) (inner : ReadsExpression layout 10 opening node) :
    ReadsExpression layout tightness opening (.update loc false operator false node) := by
  have pieces (depth : Nat) : Pieces.node layout depth (.update loc false operator false node) =
      Pieces.node layout depth node ++ [.token .incDec operator] := by
    have signs : ∀ sign ∈ Grammar.updateSigns, Pieces.operator sign = [.token .incDec sign] := by
      decide
    simp [Pieces.node, Pieces.wrapped, signs operator sign]
  refine inner.suffixed pieces (fun _ _ => Token.quiet_cons rfl _ _) fun reached _ => ?_
  obtain ⟨_, step⟩ := reached.ready.suffix (t := .plain .incDec operator) fun _ => rfl
  refine .sign reached.within (by decide) rfl rfl step fun r₂ behind => .nil ?_
  exact ⟨behind.toWithin, behind.inert rfl, behind.parser ▸ Parse.ready_operand loose _ _⟩

/-- The kinds of the operators before a single operand. -/
def unaryKinds : List TokenKind :=
  [.additive, .bang, .tilde, .keyword .typeofKw, .keyword .voidKw, .keyword .deleteKw]

theorem ReadsExpression.unary {loc : Location} {operator : Text} (loose : tightness ≤ 8)
    (sign : operator ∈ Grammar.unarySigns) (inner : ReadsExpression layout 8 .any node)
    (opens : ∀ depth, Pieces.Opens (Pieces.node layout depth (.unary loc false operator node))) :
    ReadsExpression layout tightness opening (.unary loc false operator node) := by
  have signs : ∀ sign ∈ Grammar.unarySigns, ∃ kind ∈ unaryKinds,
      Pieces.operator sign = [.token kind sign] := by decide
  obtain ⟨kind, isUnary, single⟩ := signs operator sign
  have facts : ∀ kind ∈ unaryKinds, Parse.opensExpression kind = true ∧ kind ≠ .newline ∧
      isOrdinary kind = true ∧ kind.precedesExpression = true ∧ isInert kind = true ∧
      kind ≠ .dot := by decide
  obtain ⟨isOpening, noNewline, ordinary, precedes, inert, noPoint⟩ := facts kind isUnary
  have start (frames : List Frame) : Parse.operandStart (.plain kind operator) frames =
      some ⟨.operand, .unary .synthetic operator :: frames⟩ := by
    simp only [unaryKinds, List.mem_cons, List.not_mem_nil, or_false] at isUnary
    rcases isUnary with rfl | rfl | rfl | rfl | rfl | rfl <;> rfl
  refine ⟨opens, ?_⟩
  intro depth stack frames r rest due room guard
  have pieces : tokens (Pieces.node layout depth (.unary loc false operator node)) =
      .plain kind operator :: tokens (Pieces.node layout depth node) := by
    simp [Pieces.node, Pieces.wrapped, Pieces.tokens_before, single]
  rw [pieces]
  have keeps := keeps_of_quiet due.noPoint ((inner.opens depth).quiet rest)
  refine .ordinary due.within noNewline keeps.named ordinary
    ((due.expects _ isOpening).trans (start frames)) fun r₁ behind => ?_
  refine (inner.leads (behind.due (Parse.expects_operand _) precedes noPoint)
    ⟨by simp, Nat.le_refl _⟩ ⟨guard.noArrow, fun _ => ⟨behind.inert inert, by decide⟩⟩).mono
      fun r₂ reached => ?_
  exact ⟨reached.within, reached.inert, reached.ready.before loose rfl fun _ => rfl⟩

/-- A change of a variable before it. -/
theorem ReadsExpression.updateBefore {loc : Location} {operator : Text} (loose : tightness ≤ 8)
    (sign : operator ∈ Grammar.updateSigns)
    (inner : ReadsExpression layout 8 .noObjectOrFunction node)
    (opens : ∀ depth,
      Pieces.Opens (Pieces.node layout depth (.update loc false operator true node))) :
    ReadsExpression layout tightness opening (.update loc false operator true node) := by
  have signs : ∀ sign ∈ Grammar.updateSigns, Pieces.operator sign = [.token .incDec sign] := by
    decide
  refine ⟨opens, ?_⟩
  intro depth stack frames r rest due room guard
  have pieces : tokens (Pieces.node layout depth (.update loc false operator true node)) =
      .plain .incDec operator :: tokens (Pieces.node layout depth node) := by
    simp [Pieces.node, Pieces.wrapped, signs operator sign]
  rw [pieces]
  refine .sign due.within (by decide) rfl rfl (due.expects _ rfl) fun r₁ behind => ?_
  have due₁ : Due stack .noObjectOrFunction (.update .synthetic operator :: frames) r₁ :=
    ⟨behind.toWithin, behind.parser ▸ Parse.expects_operand _, by simp [behind.before],
      by rintro ⟨⟩, by rintro ⟨⟩⟩
  refine (inner.leads due₁ ⟨by simp, Nat.le_refl _⟩
    ⟨guard.noArrow, fun _ => ⟨behind.inert rfl, by decide⟩⟩).mono fun r₂ reached => ?_
  exact ⟨reached.within, reached.inert, reached.ready.before loose rfl fun _ => rfl⟩

/-- The kinds of the operators between two operands. -/
def infixKinds : List TokenKind :=
  [.orOp, .nullish, .andOp, .equality, .less, .greater, .keyword .instanceofKw, .additive,
    .multiplicative]

/-- An operator is one token, or a comparison with an equals sign behind it. -/
theorem operator_cases {level : Parse.Level} {sign : Text}
    (mem : sign ∈ Grammar.levelSigns level) :
    (∃ kind ∈ infixKinds, Pieces.operator sign = [.token kind sign] ∧
      Parse.Level.ofKind? kind = some level) ∨
    (∃ kind ∈ [TokenKind.less, .greater], ∃ t ∈ [("<" : Text), ">"],
      Pieces.operator sign = [.token kind t, Pieces.assign] ∧ t ++ ("=" : Text) = sign ∧
        level = .relational) := by
  have all : ∀ level ∈ [Parse.Level.orElse, .andThen, .equality, .relational, .additive,
      .multiplicative], ∀ sign ∈ Grammar.levelSigns level,
      (∃ kind ∈ infixKinds, Pieces.operator sign = [.token kind sign] ∧
        Parse.Level.ofKind? kind = some level) ∨
      (∃ kind ∈ [TokenKind.less, .greater], ∃ t ∈ [("<" : Text), ">"],
        Pieces.operator sign = [.token kind t, Pieces.assign] ∧ t ++ ("=" : Text) = sign ∧
          level = .relational) := by decide
  exact all level (by cases level <;> decide) sign mem

/-- An operator between two operands. -/
theorem Leads.infixSign {level : Parse.Level} {sign : Text} (mem : sign ∈ Grammar.levelSigns level)
    (reached : Reached stack (level.rank + 2) node frames r) (room : Room (level.rank + 2) frames)
    (next : ∀ r, Due stack .any (.rightOf .synthetic node sign level :: frames) r → r.Inert →
      Leads r ts rest Q) :
    Leads r (tokens (Pieces.operator sign) ++ ts) rest Q := by
  have facts : ∀ kind ∈ infixKinds, kind ≠ .newline ∧ isOrdinary kind = true ∧
      kind.precedesExpression = true ∧ isInert kind = true ∧ kind ≠ .dot := by decide
  rcases operator_cases mem with ⟨kind, isInfix, single, infixed⟩ |
    ⟨kind, isComparison, t, -, pair, whole, rfl⟩
  · obtain ⟨noNewline, ordinary, precedes, inert, noPoint⟩ := facts kind isInfix
    rw [single]
    refine .ordinary reached.within noNewline (reached.inert _).named ordinary
      ((reached.ready.infixes _ level infixed (Nat.le_refl _)).trans
        (Parse.infixNext_of_room infixed room node)) fun r₁ behind => ?_
    exact next r₁ (behind.due (Parse.expects_afterInfix infixed node frames) precedes noPoint)
      (behind.inert inert)
  · have comparisons : ∀ kind ∈ [TokenKind.less, .greater], kind ∈ infixKinds ∧
        Parse.Level.ofKind? kind = some .relational ∧ kind.isKeyword = false ∧
        (kind = .less ∨ kind = .greater) := by decide
    obtain ⟨isInfix, infixed, noKeyword, isLessOrGreater⟩ := comparisons kind isComparison
    obtain ⟨noNewline, ordinary, -, -, -⟩ := facts kind isInfix
    rw [pair]
    refine .sign reached.within noNewline ordinary noKeyword
      ((reached.ready.infixes _ _ infixed (Nat.le_refl _)).trans
        (Parse.infixNext_of_room infixed room node)) fun r₁ behind => ?_
    have step : Parse.step r₁.parser (.plain .assign "=") =
        some ⟨.operand, .rightOf .synthetic node sign .relational :: frames⟩ := by
      rw [behind.parser, Parse.afterInfix, Token.plain_kind, if_pos isLessOrGreater, ← whole]
      rfl
    refine .sign behind.toWithin (by decide) rfl rfl step fun r₂ behind => ?_
    exact next r₂ (behind.due (Parse.expects_operand _) rfl (by decide)) (behind.inert rfl)

theorem ReadsExpression.binary {loc : Location} {sign : Text} {left right : Node}
    (level : Parse.Level) (loose : tightness ≤ level.rank + 2)
    (mem : sign ∈ Grammar.levelSigns level)
    (first : ReadsExpression layout (level.rank + 2) opening left)
    (second : ReadsExpression layout (level.rank + 3) .any right) :
    ReadsExpression layout tightness opening (level.node loc sign left right) := by
  have pieces := Pieces.node_level level loc sign left right layout
  refine ⟨fun depth => pieces depth ▸ (first.opens depth).between layout sign _, ?_⟩
  intro depth stack frames r rest due room guard
  rw [pieces, Pieces.tokens_between, Parse.unplaced_level]
  have quiet : Quiet (tokens (Pieces.operator sign) ++ tokens (Pieces.node layout depth right) ++
      rest) := by
    have quiets : ∀ kind ∈ infixKinds, Token.isQuiet kind = true := by decide
    rcases operator_cases mem with ⟨kind, isInfix, single, -⟩ | ⟨kind, isComparison, t, -, pair, -⟩
    · rw [single]
      exact Token.quiet_cons (quiets kind isInfix) _ _
    · have isInfix : ∀ kind ∈ [TokenKind.less, .greater], kind ∈ infixKinds := by decide
      rw [pair]
      exact Token.quiet_cons (quiets kind (isInfix kind isComparison)) _ _
  refine (first.leads due (room.mono loose) (guard_of_quiet quiet)).append fun r₁ reached => ?_
  refine .infixSign mem reached (room.mono loose) fun r₂ due inert => ?_
  refine (second.leads due ⟨by simp, Nat.le_refl _⟩
    ⟨guard.noArrow, fun _ => ⟨inert, by omega⟩⟩).mono
    fun r₃ reached => ?_
  exact ⟨reached.within, reached.inert, reached.ready.right loose⟩

theorem ReadsExpression.conditional {loc : Location} {test consequent alternate : Node}
    (loose : tightness ≤ 1) (condition : ReadsExpression layout 2 opening test)
    (first : ReadsExpression layout 1 .any consequent)
    (second : ReadsExpression layout 1 .any alternate) :
    ReadsExpression layout tightness opening
      (.conditional loc false test consequent alternate) := by
  refine ⟨fun depth => ?_, ?_⟩
  · simp only [Pieces.node, Pieces.wrapped, List.append_assoc]
    exact (condition.opens depth).append _
  intro depth stack frames r rest due room guard
  have pieces : tokens
      (Pieces.node layout depth (.conditional loc false test consequent alternate)) =
      tokens (Pieces.node layout depth test) ++ .plain .question "?" ::
        (tokens (Pieces.node layout depth consequent) ++ .plain .colon ":" ::
          tokens (Pieces.node layout depth alternate)) := by
    simp [Pieces.node, Pieces.wrapped]
  rw [pieces]
  have quiet : Quiet (.plain .question "?" :: (tokens (Pieces.node layout depth consequent) ++
      .plain .colon ":" :: tokens (Pieces.node layout depth alternate)) ++ rest) := by
    obtain ⟨kind, t, later, same, quiet⟩ := (first.opens depth).head
      (.plain .colon ":" :: tokens (Pieces.node layout depth alternate) ++ rest)
    rw [List.cons_append, List.append_assoc, same]
    exact Token.quiet_question quiet t _ later
  refine (condition.leads due (room.mono (loose.trans (by decide))) (guard_of_quiet quiet)).append
    fun r₁ reached => ?_
  refine .sign reached.within (by decide) rfl rfl ((reached.ready.tests _ rfl (Nat.le_refl _)).trans
    (Parse.infixNext_question rfl (room.mono (loose.trans (by decide))) _)) fun r₂ behind => ?_
  refine (first.leads (behind.due (Parse.expects_operand _) rfl (by decide))
    ⟨by simp, Nat.le_refl _⟩ ⟨rfl, fun _ => ⟨behind.inert rfl, by decide⟩⟩).append
      fun r₃ reached => ?_
  refine .sign reached.within (by decide) rfl rfl (reached.ready.ends _ rfl (by simp))
    fun r₄ behind => ?_
  refine (second.leads (behind.due (Parse.expects_operand _) rfl (by decide))
    ⟨by simp, Nat.le_refl _⟩ ⟨guard.noArrow, fun _ => ⟨behind.inert rfl, by decide⟩⟩).mono
      fun r₅ reached => ?_
  exact ⟨reached.within, reached.inert, reached.ready.last loose rfl⟩

theorem ReadsExpression.assignment {loc : Location} {sign : Text} {target value : Node}
    (loose : tightness ≤ 1) (mem : sign ∈ Grammar.assignSigns)
    (assigned : ReadsExpression layout 10 opening target)
    (inner : ReadsExpression layout 1 .any value) :
    ReadsExpression layout tightness opening (.assignment loc false sign target value) := by
  have signs : ∀ sign ∈ Grammar.assignSigns, ∃ kind ∈ [TokenKind.assign, .compoundAssign],
      Pieces.operator sign = [.token kind sign] := by decide
  obtain ⟨kind, assigns, single⟩ := signs sign mem
  have facts : ∀ kind ∈ [TokenKind.assign, .compoundAssign], Token.isQuiet kind = true ∧
      kind ≠ .newline ∧ isOrdinary kind = true ∧ kind.isKeyword = false ∧
      kind.precedesExpression = true ∧ isInert kind = true ∧ kind ≠ .dot := by decide
  obtain ⟨quiet, noNewline, ordinary, noKeyword, precedes, inert, noPoint⟩ := facts kind assigns
  refine ⟨fun depth => (assigned.opens depth).between layout sign _, ?_⟩
  intro depth stack frames r rest due room guard
  have pieces : tokens (Pieces.node layout depth (.assignment loc false sign target value)) =
      tokens (Pieces.node layout depth target) ++ .plain kind sign ::
        tokens (Pieces.node layout depth value) := by
    simp [Pieces.node, Pieces.wrapped, Pieces.tokens_between, single]
  rw [pieces]
  refine (assigned.leads due room.ten (guard_of_quiet (Token.quiet_cons quiet _ _))).append
    fun r₁ reached => ?_
  refine .sign reached.within noNewline ordinary noKeyword
    (reached.ready.assign (room.mono loose) (by simpa using assigns)) fun r₂ behind => ?_
  refine (inner.leads (behind.due (Parse.expects_operand _) precedes noPoint)
    ⟨by simp, Nat.le_refl _⟩ ⟨guard.noArrow, fun _ => ⟨behind.inert inert, by decide⟩⟩).mono
      fun r₃ reached => ?_
  exact ⟨reached.within, reached.inert, reached.ready.last loose rfl⟩

theorem ReadsExpression.sequence {loc : Location} {first : Node} {others : List Node}
    (several : others ≠ []) (leading : ReadsExpression layout 1 opening first)
    (each : ∀ e ∈ others, ReadsExpression layout 1 .any e) :
    ReadsExpression layout 0 opening (.sequence loc false (first :: others)) := by
  have pieces (depth : Nat) : Pieces.node layout depth (.sequence loc false (first :: others)) =
      Pieces.node layout depth first ++ (Pieces.comma :: Pieces.space layout ++
        Pieces.commas layout (others.map (Pieces.node layout depth))) := by
    obtain ⟨second, rest, rfl⟩ := List.exists_cons_of_ne_nil several
    simp [Pieces.node, Pieces.wrapped, Pieces.commas, Pieces.join_cons_cons]
  refine ⟨fun depth => pieces depth ▸ (leading.opens depth).append _, ?_⟩
  intro depth stack frames r rest due room guard
  have quiet : Quiet rest := by
    refine ⟨guard.noArrow, ?_⟩
    cases key : Token.followsKey rest with
    | false => rfl
    | true => exact absurd (guard.keeps key).2 (by decide)
  simp only [pieces, Pieces.tokens_append, List.cons_append, Pieces.tokens_comma,
    Pieces.tokens_space, List.nil_append]
  refine (leading.leads due (room.mono (by decide))
    (guard_of_quiet (Token.quiet_cons rfl _ _))).append
    fun r₁ reached => ?_
  have step : Parse.step r₁.parser (.plain .comma ",") =
      some ⟨.operand, .sequence .synthetic [first.unplaced] :: frames⟩ := by
    rw [reached.ready.ends _ rfl (by simp), Parse.expressionEnd_comma room rfl]
  refine .sign reached.within (by decide) rfl rfl step fun r₂ behind => ?_
  refine (Leads.expressions (.sequence .synthetic) each (fun _ => Nat.le_refl _) ?_ several
    (behind.due (Parse.expects_operand _) rfl (by decide)) quiet).mono ?_
  · rintro ⟨kind, text, loc⟩ ⟨⟩ node done
    rfl
  · rintro r₃ ⟨last, done, listed, reached⟩
    refine ⟨reached.within, reached.inert, ?_⟩
    have ready := reached.ready.sequence room
    rw [listed] at ready
    simpa [Node.unplaced] using ready

/-- The tokens of the elements of an array. -/
def elementTokens (layout : Layout) (depth : Nat) (elements : List Node) : List Token :=
  tokens (Pieces.commas layout
    (Pieces.arrayItems elements (elements.map (Pieces.node layout depth))))

theorem elementTokens_hole (layout : Layout) (depth : Nat) (elements : List Node) :
    elementTokens layout depth (.absent :: elements) =
      .plain .comma "," :: elementTokens layout depth elements := by
  cases elements with
  | nil => simp [elementTokens, Pieces.arrayItems, Pieces.commas, Pieces.join, Pieces.node]
  | cons second others =>
    simp only [elementTokens, Pieces.arrayItems, List.getLast?_cons_cons, List.map_cons]
    split <;> simp [Pieces.commas, Pieces.join_cons_cons, Pieces.node]

theorem elementTokens_cons (layout : Layout) (depth : Nat) (first second : Node)
    (others : List Node) :
    elementTokens layout depth (first :: second :: others) =
      tokens (Pieces.node layout depth first) ++
        .plain .comma "," :: elementTokens layout depth (second :: others) := by
  simp only [elementTokens, Pieces.arrayItems, List.getLast?_cons_cons, List.map_cons]
  split <;> simp [Pieces.commas, Pieces.join_cons_cons]

/-- The elements of an array behind its bracket. -/
theorem Leads.elements {elements : List Node}
    (each : ∀ e ∈ elements, e = .absent ∨ e ≠ .absent ∧ ReadsExpression layout 1 .any e)
    {done : List Node} (due : Due (.bracket :: stack) .any (.elements .synthetic done :: frames) r)
    (parser : r.parser = ⟨.operand, .elements .synthetic done :: frames⟩) :
    Leads r (elementTokens layout depth elements ++ [.plain .rightBracket "]"]) rest
      (Reached stack tightness
        (.array .synthetic false (done.reverse ++ elements.map Node.unplaced)) frames) := by
  induction elements generalizing r done with
  | nil =>
    refine .closing due.within (by decide) rfl (by rw [parser]; rfl) fun r₁ behind => .nil ?_
    simpa using behind.reached rfl (.inr rfl)
  | cons first others ih =>
    obtain ⟨firstReads, othersRead⟩ := List.forall_mem_cons.mp each
    rcases firstReads with rfl | ⟨given, reads⟩
    · rw [elementTokens_hole]
      refine .sign due.within (by decide) rfl rfl (by rw [parser]; rfl) fun r₁ behind => ?_
      have leads := ih othersRead (behind.due (Parse.expects_operand _) rfl (by decide))
        behind.parser
      simpa [Node.unplaced] using leads
    · have room : Room 1 (.elements .synthetic done :: frames) := ⟨by simp, Nat.le_refl _⟩
      cases others with
      | nil =>
        have single : elementTokens layout depth [first] =
            tokens (Pieces.node layout depth first) := by
          cases first <;> first | exact absurd rfl given | rfl
        rw [single]
        refine (reads.leads due room (guard_of_quiet (Token.quiet_cons rfl _ _))).append
          fun r₁ reached => ?_
        refine .closing reached.within (by decide) rfl (reached.ready.ends _ rfl (by simp))
          fun r₂ behind => .nil ?_
        simpa using behind.reached rfl (.inr rfl)
      | cons second others =>
        rw [elementTokens_cons, List.append_assoc]
        refine (reads.leads due room (guard_of_quiet (Token.quiet_cons rfl _ _))).append
          fun r₁ reached => ?_
        refine .sign reached.within (by decide) rfl rfl (reached.ready.ends _ rfl (by simp))
          fun r₂ behind => ?_
        have leads := ih othersRead (behind.due (Parse.expects_operand _) rfl (by decide))
          behind.parser
        simpa using leads

theorem ReadsExpression.array {loc : Location} {elements : List Node}
    (each : ∀ e ∈ elements, e = .absent ∨ e ≠ .absent ∧ ReadsExpression layout 1 .any e) :
    ReadsExpression layout tightness opening (.array loc false elements) := by
  have pieces (depth : Nat) : Pieces.node layout depth (.array loc false elements) =
      Pieces.leftBracket :: Pieces.commas layout
        (Pieces.arrayItems elements (elements.map (Pieces.node layout depth))) ++
          [Pieces.rightBracket] := by
    simp [Pieces.node, Pieces.wrapped]
  refine ⟨fun depth => pieces depth ▸ ⟨.leftBracket, _, _, rfl, rfl, ?_⟩, ?_⟩
  · simp only [Lexeme.Spells]
    decide
  intro depth stack frames r rest due room guard
  simp only [pieces, List.cons_append, Pieces.tokens_leftBracket, Pieces.tokens_append]
  refine .leftBracket due.within (due.expects _ rfl) fun r₁ behind => ?_
  have same : (Node.array loc false elements).unplaced =
      .array .synthetic false (List.reverse [] ++ elements.map Node.unplaced) := by
    simp [Node.unplaced]
  rw [same]
  exact .elements each (behind.due (Parse.expects_operand _) rfl (by decide)) behind.parser

end Reader

end TypeGloss
