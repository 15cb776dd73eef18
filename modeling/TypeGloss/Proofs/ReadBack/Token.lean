import TypeGloss.Proofs.Pieces
import TypeGloss.Proofs.ReadBack.Reader

/-!
# One token more

What a reader does with a token of a printed tree. Between the tokens of an expression or a type no
line end is pending, and a parenthesis opens no header and no parameter list of a function. A token
keeps both, and its kind is the one that was meant when the tree was printed.
-/

namespace TypeGloss

@[simp] theorem Token.plain_kind (kind : TokenKind) (t : Text) : (Token.plain kind t).kind = kind :=
  rfl

@[simp]
theorem Token.plain_text (kind : TokenKind) (t : Text) : (Token.plain kind t).text = t := rfl

@[simp] theorem Token.plain_loc (kind : TokenKind) (t : Text) :
    (Token.plain kind t).loc = .synthetic := rfl

@[simp] theorem Token.retype_plain (kind other : TokenKind) (t : Text) :
    (Token.plain kind t).retype other = .plain other t := rfl

namespace Token

/-- Tokens at whose start neither a key nor the parameters of an arrow function end. -/
def Quiet (rest : List Token) : Prop := arrowFollows rest = false ∧ followsKey rest = false

/-- Kinds that continue neither a key nor the parameters of an arrow function. -/
def isQuiet : TokenKind → Bool
  | .arrow | .colon | .question | .newline => false
  | _ => true

theorem quiet_cons {kind : TokenKind} (quiet : isQuiet kind = true) (t : Text)
    (rest : List Token) : Quiet (.plain kind t :: rest) := by
  have apart : kind ≠ .arrow ∧ kind ≠ .colon ∧ kind ≠ .question ∧ kind ≠ .newline := by
    refine ⟨?_, ?_, ?_, ?_⟩ <;> rintro rfl <;> cases quiet
  constructor
  · simp [arrowFollows, apart]
  · simp [followsKey, significant, apart]

/-- A question mark makes a key only before a colon. -/
theorem quiet_question {kind : TokenKind} (quiet : isQuiet kind = true) (t u : Text)
    (rest : List Token) : Quiet (.plain .question u :: .plain kind t :: rest) := by
  have apart : kind ≠ .colon ∧ kind ≠ .newline := by
    refine ⟨?_, ?_⟩ <;> rintro rfl <;> cases quiet
  constructor
  · simp [arrowFollows]
  · simp [followsKey, significant, apart]

end Token

namespace Pieces

variable (ps qs : List Piece) (layout : Layout)

@[simp] theorem tokens_name (t : Text) :
    tokens (name t :: ps) = .plain (wordKind t) t :: tokens ps := rfl

@[simp] theorem tokens_keyword (word : Keyword) :
    tokens (keyword word :: ps) = .plain (.keyword word) word.spelling :: tokens ps := rfl

@[simp] theorem tokens_leftParen : tokens (leftParen :: ps) = .plain .leftParen "(" :: tokens ps :=
  rfl

@[simp] theorem tokens_rightParen :
    tokens (rightParen :: ps) = .plain .rightParen ")" :: tokens ps := rfl

@[simp] theorem tokens_leftBrace :
    tokens (leftBrace :: ps) = .plain .leftBrace "\x7b" :: tokens ps := rfl

@[simp] theorem tokens_rightBrace :
    tokens (rightBrace :: ps) = .plain .rightBrace "\x7d" :: tokens ps := rfl

@[simp] theorem tokens_leftBracket :
    tokens (leftBracket :: ps) = .plain .leftBracket "[" :: tokens ps := rfl

@[simp] theorem tokens_rightBracket :
    tokens (rightBracket :: ps) = .plain .rightBracket "]" :: tokens ps := rfl

@[simp] theorem tokens_comma : tokens (comma :: ps) = .plain .comma "," :: tokens ps := rfl

@[simp] theorem tokens_semicolon :
    tokens (semicolon :: ps) = .plain .semicolon ";" :: tokens ps := rfl

@[simp] theorem tokens_colon : tokens (colon :: ps) = .plain .colon ":" :: tokens ps := rfl

@[simp] theorem tokens_question : tokens (question :: ps) = .plain .question "?" :: tokens ps := rfl

@[simp] theorem tokens_assign : tokens (assign :: ps) = .plain .assign "=" :: tokens ps := rfl

@[simp] theorem tokens_arrow : tokens (arrow :: ps) = .plain .arrow "=>" :: tokens ps := rfl

@[simp] theorem tokens_dot : tokens (dot :: ps) = .plain .dot "." :: tokens ps := rfl

@[simp] theorem tokens_newline : tokens (newline :: ps) = .plain .newline "\n" :: tokens ps := rfl

@[simp] theorem tokens_space : tokens (space layout) = [] := by cases layout <;> rfl

@[simp] theorem tokens_blankIf (needed : Bool) : tokens (blankIf needed) = [] := by
  cases needed <;> rfl

@[simp] theorem tokens_indent (depth : Nat) : tokens (indent depth) = [] := by
  unfold indent
  induction 2 * depth with
  | zero => rfl
  | succ n ih => exact ih

@[simp] theorem tokens_parens :
    tokens (parens ps) = .plain .leftParen "(" :: (tokens ps ++ [.plain .rightParen ")"]) := by
  simp [parens]

theorem tokens_flatten (items : List (List Piece)) :
    tokens items.flatten = (items.map tokens).flatten := by
  induction items with
  | nil => rfl
  | cons first others ih => rw [List.flatten_cons, tokens_append, ih]; rfl

theorem tokens_between (sign : Text) :
    tokens (between layout ps sign qs) = tokens ps ++ (tokens (operator sign) ++ tokens qs) := by
  unfold between
  split <;> simp

theorem tokens_before (sign : Text) :
    tokens (before sign ps) = tokens (operator sign) ++ tokens ps := by
  simp [before]

end Pieces

namespace Reader

/-- Inside open brackets, with no line end pending. -/
structure Calm (stack : List Enclosure) (awaiting : Bool) (r : Reader) : Prop where
  stack : r.terminators.stack = stack
  awaiting : r.terminators.awaitingBody = awaiting
  pending : r.terminators.pending = none

/-- Between the tokens of an expression, a type or a list. -/
structure Within (stack : List Enclosure) (awaiting : Bool) (r : Reader) : Prop
    extends Calm stack awaiting r where
  paren : r.terminators.parenEnclosure = .paren

/-- Directly behind a token, by its kinds before and after terminators were inserted. -/
structure Behind (stack : List Enclosure) (awaiting : Bool) (before last : TokenKind)
    (parser : Parse.State) (r : Reader) : Prop extends Within stack awaiting r where
  sameLine : r.onNewLine = false
  before : r.before = some before
  last : r.terminators.last = some last
  parser : r.parser = parser

/-- A reserved word that comes next stays one. -/
def Keeps (r : Reader) (rest : List Token) : Prop :=
  Token.namesProperty r.before r.onNewLine rest = false

/-- A reserved word that comes next stays one whatever follows it. -/
def Inert (r : Reader) : Prop := ∀ rest, r.Keeps rest

variable {stack : List Enclosure} {awaiting : Bool} {r : Reader} {ts rest : List Token} {t : Text}
  {p : Parse.State} {Q : Reader → Prop} {before last : TokenKind}

/-- Behind which no member of an object or of a type body starts on the same line. -/
def isInert : TokenKind → Bool
  | .dot | .leftBrace | .comma | .semicolon => false
  | _ => true

theorem Behind.inert (behind : Behind stack awaiting before last p r)
    (inert : isInert before = true) : r.Inert := by
  intro rest
  rw [Keeps, behind.before, behind.sameLine]
  cases before <;> first | rfl | cases inert

theorem Behind.keeps (behind : Behind stack awaiting before last p r)
    (noPoint : before ≠ .dot) (noKey : Token.followsKey rest = false) : r.Keeps rest := by
  rw [Keeps, behind.before, Token.namesProperty, noKey, Bool.and_false, Bool.or_false]
  exact decide_eq_false noPoint

theorem keeps_of_quiet (noPoint : r.before ≠ some .dot) (quiet : Token.Quiet rest) :
    r.Keeps rest := by
  rw [Keeps]
  cases before : r.before with
  | none => rfl
  | some kind => simpa [Token.namesProperty, quiet.2, before] using noPoint

theorem Within.noFunction (within : Within stack awaiting r) :
    r.terminators.last.any TokenKind.startsFunction = false := by
  have paren := within.paren
  rw [Bool.eq_false_iff]
  intro starts
  rw [TerminatorState.parenEnclosure, if_pos starts] at paren
  split at paren <;> cases paren

/-- The reader behind a token that a parenthesis may follow. -/
theorem Calm.track (calm : Calm stack awaiting r) (awaits : Bool) {kind : TokenKind}
    (noHeader : kind.opensHeader = false) (noFunction : kind.startsFunction = false)
    (noName : kind = .name → r.terminators.last.any TokenKind.startsFunction = false)
    (before : TokenKind) (t : Text) (parser : Parse.State) :
    Behind (r.terminators.stackAfter kind)
      (awaits || r.terminators.closed? kind == some .signature) before kind parser
      ⟨some before, false,
        { r.terminators with awaitingBody := awaits }.track (.plain kind t), parser⟩ where
  stack := rfl
  awaiting := rfl
  pending := calm.pending
  paren := by
    have noSignature : ¬(kind = .name ∧ r.terminators.last.any TokenKind.startsFunction = true) :=
      fun both => by simp [noName both.1] at both
    simpa [TerminatorState.parenEnclosure, TerminatorState.track, TerminatorState.remember,
      noHeader, noFunction] using noSignature
  sameLine := rfl
  before := rfl
  last := rfl
  parser := rfl

/-- A token is given to the parser with the kind that marks and brackets give it. -/
theorem Calm.take (calm : Calm stack awaiting r) {kind named marked : TokenKind}
    (noNewline : kind ≠ .newline ∧ marked ≠ .newline)
    (name : r.named (.plain kind t) rest = .plain named t)
    (mark : Token.arrowMark (.plain named t) rest = .plain marked t)
    (noSemicolon : marked ≠ .semicolon)
    (noBlock : marked ≠ .rightBrace ∨ stack.head? ≠ some .block ∨
      r.terminators.canTerminate = false)
    {last : TokenKind} {awaits : Bool} (retyped : r.terminators.retyped marked = (last, awaits))
    (step : Parse.step r.parser (.plain last t) = some p) :
    r.take (.plain kind t) rest = some ⟨some named, false,
      { r.terminators with awaitingBody := awaits }.track (.plain last t), p⟩ := by
  have settle : r.terminators.settle marked = (r.terminators, []) := by
    simp [TerminatorState.settle, calm.pending]
  have close : r.terminators.closeStatement (.plain marked t) = (r.terminators, []) := by
    rw [TerminatorState.closeStatement, if_neg]
    rintro ⟨isBrace, terminates, isBlock⟩
    rcases noBlock with noBrace | noBlock | settled
    · exact noBrace isBrace
    · exact noBlock (calm.stack ▸ isBlock)
    · simp [settled] at terminates
  have stepped : r.terminators.step (.plain marked t) =
      ({ r.terminators with awaitingBody := awaits }.track (.plain last t), [.plain last t]) := by
    rw [TerminatorState.step_other _ noNewline.2 noSemicolon]
    simp only [TerminatorState.afterToken, TerminatorState.insertedBefore,
      TerminatorState.beforeToken, Token.plain_kind, settle, close, retyped, Token.retype_plain]
    rfl
  rw [Reader.take, if_neg (show (Token.plain kind t).kind ≠ .newline from noNewline.1)]
  simp only [name, mark, stepped]
  simp only [Parse.feed, List.foldlM_cons, List.foldlM_nil, step, bind, Option.bind_some, pure,
    Option.map_some]
  rfl

theorem Behind.of_eq {other : List Enclosure} {awaits : Bool}
    (behind : Behind stack awaiting before last p r) (inside : stack = other)
    (same : awaiting = awaits) : Behind other awaits before last p r := by
  subst inside same
  exact behind

theorem named_of_isKeyword_eq_false {kind : TokenKind} (noKeyword : kind.isKeyword = false) :
    r.named (.plain kind t) rest = .plain kind t := by
  simp [Reader.named, noKeyword]

theorem Keeps.named {kind : TokenKind} (keeps : r.Keeps rest) :
    r.named (.plain kind t) rest = .plain kind t := by
  rw [Keeps] at keeps
  simp [Reader.named, keeps]

theorem arrowMark_of_ne {kind : TokenKind} (noParen : kind ≠ .leftParen) :
    Token.arrowMark (.plain kind t) rest = .plain kind t := by
  simp [Token.arrowMark, noParen]

theorem retyped_of_ne {s : TerminatorState} {kind : TokenKind} (noBrace : kind ≠ .leftBrace)
    (noFunction : kind ≠ .keyword .functionKw) : s.retyped kind = (kind, s.awaitingBody) := by
  rw [TerminatorState.retyped, if_neg noBrace, if_neg (fun both => noFunction both.1)]

/-- Kinds that no bracket and no look ahead changes, and that leave the brackets as they are. -/
def isOrdinary : TokenKind → Bool
  | .leftParen | .rightParen | .leftBrace | .rightBrace | .leftBracket | .rightBracket | .newline
  | .semicolon | .terminator | .objectBrace | .arrowParen | .functionExpr
  | .keyword .functionKw | .keyword .ifKw | .keyword .whileKw | .keyword .forKw => false
  | _ => true

theorem Leads.ordinary (within : Within stack awaiting r) {kind named : TokenKind}
    (noNewline : kind ≠ .newline) (name : r.named (.plain kind t) (ts ++ rest) = .plain named t)
    (ordinary : isOrdinary named = true) (step : Parse.step r.parser (.plain named t) = some p)
    (next : ∀ r, Behind stack awaiting named named p r → Leads r ts rest Q) :
    Leads r (.plain kind t :: ts) rest Q := by
  have plain : named ≠ .leftParen ∧ named ≠ .leftBrace ∧ named ≠ .keyword .functionKw ∧
      named ≠ .newline ∧ named ≠ .semicolon ∧ named ≠ .rightBrace := by
    refine ⟨?_, ?_, ?_, ?_, ?_, ?_⟩ <;> rintro rfl <;> cases ordinary
  have noHeader : named.opensHeader = false := by
    unfold TokenKind.opensHeader
    split <;> first | rfl | cases ordinary
  have noStart : named.startsFunction = false := by
    unfold TokenKind.startsFunction
    split <;> first | rfl | cases ordinary
  have closes : TerminatorState.closes named = false := by
    unfold TerminatorState.closes
    split <;> first | rfl | cases ordinary
  have opened : r.terminators.opened? named = none := by
    unfold TerminatorState.opened?
    split <;> first | rfl | cases ordinary
  obtain ⟨noParen, noBrace, noFunction, noNewline', noSemicolon, noEnd⟩ := plain
  refine .cons (within.take ⟨noNewline, noNewline'⟩ name (arrowMark_of_ne noParen) noSemicolon
    (.inl noEnd) (retyped_of_ne noBrace noFunction) step) (next _ ?_)
  refine (within.track _ noHeader noStart (fun _ => within.noFunction) named t p).of_eq ?_ ?_
  · simp [TerminatorState.stackAfter, opened, closes, within.stack]
  · simp [TerminatorState.closed?, closes, within.awaiting]

/-- Signs, literals and names. -/
theorem Leads.sign (within : Within stack awaiting r) {kind : TokenKind}
    (noNewline : kind ≠ .newline) (ordinary : isOrdinary kind = true)
    (noKeyword : kind.isKeyword = false) (step : Parse.step r.parser (.plain kind t) = some p)
    (next : ∀ r, Behind stack awaiting kind kind p r → Leads r ts rest Q) :
    Leads r (.plain kind t :: ts) rest Q :=
  .ordinary within noNewline (by simp [Reader.named, noKeyword]) ordinary step next

/-- Reserved words that stay such. -/
theorem Leads.keyword (within : Within stack awaiting r) {word : Keyword}
    (ordinary : isOrdinary (.keyword word) = true) (keeps : r.Keeps (ts ++ rest))
    (step : Parse.step r.parser (.plain (.keyword word) t) = some p)
    (next : ∀ r, Behind stack awaiting (.keyword word) (.keyword word) p r → Leads r ts rest Q) :
    Leads r (.plain (.keyword word) t :: ts) rest Q :=
  .ordinary within (by simp) keeps.named ordinary step next

/-- Words that name a property. -/
theorem Leads.word (within : Within stack awaiting r)
    (names : Token.namesProperty r.before r.onNewLine (ts ++ rest) = true)
    (step : Parse.step r.parser (.plain .name t) = some p)
    (next : ∀ r, Behind stack awaiting .name .name p r → Leads r ts rest Q) :
    Leads r (.plain (Pieces.wordKind t) t :: ts) rest Q := by
  refine .ordinary within ?_ ?_ rfl step next
  · unfold Pieces.wordKind
    cases Keyword.ofSpelling? t <;> simp
  · unfold Pieces.wordKind
    cases Keyword.ofSpelling? t <;> simp [Reader.named, names, TokenKind.isKeyword]

theorem Leads.leftParen (calm : Calm stack awaiting r)
    (noArrow : Token.closesIntoArrow 0 (ts ++ rest) = false)
    (step : Parse.step r.parser (.plain .leftParen t) = some p)
    (next : ∀ r',
      Behind (r.terminators.parenEnclosure :: stack) awaiting .leftParen .leftParen p r' →
      Leads r' ts rest Q) :
    Leads r (.plain .leftParen t :: ts) rest Q := by
  refine .cons (calm.take (by decide) (named_of_isKeyword_eq_false rfl)
    (by simp [Token.arrowMark, noArrow]) (by decide) (.inl (by decide))
    (retyped_of_ne (by decide) (by decide)) step) (next _ ?_)
  refine (calm.track _ rfl rfl (by simp) .leftParen t p).of_eq ?_ ?_
  · simp [TerminatorState.stackAfter, TerminatorState.opened?, calm.stack]
  · simp [TerminatorState.closed?, TerminatorState.closes, calm.awaiting]

theorem Leads.arrowParen (within : Within stack awaiting r)
    (closes : Token.closesIntoArrow 0 (ts ++ rest) = true)
    (step : Parse.step r.parser (.plain .arrowParen t) = some p)
    (next : ∀ r, Behind (.paren :: stack) awaiting .leftParen .arrowParen p r →
      Leads r ts rest Q) :
    Leads r (.plain .leftParen t :: ts) rest Q := by
  refine .cons (within.take (by decide) (named_of_isKeyword_eq_false rfl)
    (by simp only [Token.arrowMark, Token.plain_kind, closes]; rfl) (by decide) (.inl (by decide))
    (retyped_of_ne (by decide) (by decide)) step) (next _ ?_)
  refine (within.track _ rfl rfl (by simp) .leftParen t p).of_eq ?_ ?_
  · simp [TerminatorState.stackAfter, TerminatorState.opened?, within.stack, within.paren]
  · simp [TerminatorState.closed?, TerminatorState.closes, within.awaiting]

theorem Leads.leftBracket (within : Within stack awaiting r)
    (step : Parse.step r.parser (.plain .leftBracket t) = some p)
    (next : ∀ r, Behind (.bracket :: stack) awaiting .leftBracket .leftBracket p r →
      Leads r ts rest Q) :
    Leads r (.plain .leftBracket t :: ts) rest Q := by
  refine .cons (within.take (by decide) (named_of_isKeyword_eq_false rfl)
    (arrowMark_of_ne (by decide)) (by decide) (.inl (by decide))
    (retyped_of_ne (by decide) (by decide)) step) (next _ ?_)
  refine (within.track _ rfl rfl (by simp) .leftBracket t p).of_eq ?_ ?_
  · simp [TerminatorState.stackAfter, TerminatorState.opened?, within.stack]
  · simp [TerminatorState.closed?, TerminatorState.closes, within.awaiting]

/-- Whether a brace opens an object or a type. -/
def opensObject (awaiting : Bool) (last : Option TokenKind) : Bool :=
  if awaiting then last.any TokenKind.precedesTypeBrace else last.any TokenKind.precedesExpression

theorem Leads.objectBrace (within : Within stack awaiting r)
    (opens : opensObject awaiting r.terminators.last = true)
    (step : Parse.step r.parser (.plain .objectBrace t) = some p)
    (next : ∀ r, Behind (.object :: stack) awaiting .leftBrace .objectBrace p r →
      Leads r ts rest Q) :
    Leads r (.plain .leftBrace t :: ts) rest Q := by
  have retyped : r.terminators.retyped .leftBrace = (.objectBrace, awaiting) := by
    rw [TerminatorState.retyped, if_pos rfl, within.awaiting]
    cases awaiting <;> simp_all [opensObject]
  refine .cons (within.take (by decide) (named_of_isKeyword_eq_false rfl)
    (arrowMark_of_ne (by decide)) (by decide) (.inl (by decide)) retyped step) (next _ ?_)
  refine (within.track _ rfl rfl (by simp) .leftBrace t p).of_eq ?_ ?_
  · simp [TerminatorState.stackAfter, TerminatorState.opened?, within.stack]
  · simp [TerminatorState.closed?, TerminatorState.closes]

theorem Leads.blockBrace (within : Within stack awaiting r)
    (opens : opensObject awaiting r.terminators.last = false)
    (step : Parse.step r.parser (.plain .leftBrace t) = some p)
    (next : ∀ r, Behind (.block :: stack) false .leftBrace .leftBrace p r →
      r.terminators.canTerminate = false → Leads r ts rest Q) :
    Leads r (.plain .leftBrace t :: ts) rest Q := by
  have retyped : r.terminators.retyped .leftBrace = (.leftBrace, false) := by
    rw [TerminatorState.retyped, if_pos rfl, within.awaiting]
    cases awaiting <;> simp_all [opensObject]
  refine .cons (within.take (by decide) (named_of_isKeyword_eq_false rfl)
    (arrowMark_of_ne (by decide)) (by decide) (.inl (by decide)) retyped step) (next _ ?_ rfl)
  refine (within.track _ rfl rfl (by simp) .leftBrace t p).of_eq ?_ ?_
  · simp [TerminatorState.stackAfter, TerminatorState.opened?, within.stack]
  · simp [TerminatorState.closed?, TerminatorState.closes]

/-- A closing bracket, other than that of a block. -/
theorem Leads.closingAny {enclosure : Enclosure} {kind : TokenKind}
    (within : Within (enclosure :: stack) awaiting r) (noBlock : enclosure ≠ .block)
    (closes : TerminatorState.closes kind = true)
    (step : Parse.step r.parser (.plain kind t) = some p)
    (next : ∀ r, Behind stack (awaiting || enclosure == .signature) kind kind p r →
      Leads r ts rest Q) :
    Leads r (.plain kind t :: ts) rest Q := by
  have plain : kind ∈ [TokenKind.rightParen, .rightBracket, .rightBrace] := by
    unfold TerminatorState.closes at closes
    split at closes <;> first | decide | cases closes
  have facts : ∀ kind ∈ [TokenKind.rightParen, .rightBracket, .rightBrace],
      kind ≠ .newline ∧ kind.isKeyword = false ∧ kind ≠ .leftParen ∧ kind ≠ .semicolon ∧
        kind ≠ .leftBrace ∧ kind ≠ .keyword .functionKw ∧ kind.opensHeader = false ∧
        kind.startsFunction = false ∧ kind ≠ .name := by decide
  obtain ⟨noNewline, noKeyword, noParen, noSemicolon, noBrace, noFunction, noHeader, noStart,
    noName⟩ := facts kind plain
  have opened : r.terminators.opened? kind = none := by
    unfold TerminatorState.opened?
    split <;> first | rfl | simp at plain
  refine .cons (within.take ⟨noNewline, noNewline⟩ (named_of_isKeyword_eq_false noKeyword)
    (arrowMark_of_ne noParen) noSemicolon (.inr (.inl (by simpa using noBlock)))
    (retyped_of_ne noBrace noFunction) step) (next _ ?_)
  refine (within.track _ noHeader noStart (absurd · noName) kind t p).of_eq ?_ ?_
  · simp [TerminatorState.stackAfter, opened, closes, within.stack]
  · simp [TerminatorState.closed?, closes, within.awaiting, within.stack]

/-- The brace that ends a block, where no statement is open. -/
theorem Leads.closingBlock (calm : Calm (.block :: stack) awaiting r)
    (settled : r.terminators.canTerminate = false)
    (step : Parse.step r.parser (.plain .rightBrace t) = some p)
    (next : ∀ r, Behind stack awaiting .rightBrace .rightBrace p r →
      r.terminators.closedBlock = true → Leads r ts rest Q) :
    Leads r (.plain .rightBrace t :: ts) rest Q := by
  refine .cons (calm.take (by decide) (named_of_isKeyword_eq_false rfl)
    (arrowMark_of_ne (by decide)) (by decide) (.inr (.inr settled))
    (retyped_of_ne (by decide) (by decide)) step) (next _ ?_ ?_)
  · refine (calm.track _ rfl rfl (by simp) .rightBrace t p).of_eq ?_ ?_
    · simp [TerminatorState.stackAfter, TerminatorState.opened?, TerminatorState.closes, calm.stack]
    · simp [TerminatorState.closed?, TerminatorState.closes, calm.stack, calm.awaiting]
  · simp [TerminatorState.track, TerminatorState.remember, TerminatorState.closed?,
      TerminatorState.closes, calm.stack]

/-- A closing bracket, other than that of a block or of the parameters of a function. -/
theorem Leads.closing {enclosure : Enclosure} {kind : TokenKind}
    (within : Within (enclosure :: stack) awaiting r)
    (plain : enclosure ≠ .block ∧ enclosure ≠ .signature)
    (closes : TerminatorState.closes kind = true)
    (step : Parse.step r.parser (.plain kind t) = some p)
    (next : ∀ r, Behind stack awaiting kind kind p r → Leads r ts rest Q) :
    Leads r (.plain kind t :: ts) rest Q :=
  .closingAny within plain.1 closes step fun r behind =>
    next r (behind.of_eq rfl (by simp [plain.2]))

/-- Before a parenthesis that opens a header or a parameter list. -/
structure Heads (enclosure : Enclosure) (stack : List Enclosure) (awaiting : Bool)
    (parser : Parse.State) (r : Reader) : Prop extends Calm stack awaiting r where
  paren : r.terminators.parenEnclosure = enclosure
  parser : r.parser = parser

/-- The word before a header. -/
theorem Leads.headerWord (within : Within stack awaiting r) {word : Keyword}
    (header : (TokenKind.keyword word).opensHeader = true) (keeps : r.Keeps (ts ++ rest))
    (step : Parse.step r.parser (.plain (.keyword word) t) = some p)
    (next : ∀ r, Heads .header stack awaiting p r → Leads r ts rest Q) :
    Leads r (.plain (.keyword word) t :: ts) rest Q := by
  have noFunction : (TokenKind.keyword word) ≠ .keyword .functionKw := by
    rintro ⟨⟩
    cases header
  refine .cons (within.take (by simp) keeps.named (arrowMark_of_ne (by simp)) (by simp)
    (.inl (by simp)) (retyped_of_ne (by simp) noFunction) step) (next _ ⟨⟨?_, ?_, ?_⟩, ?_, rfl⟩)
  · exact within.stack
  · simp [TerminatorState.track, TerminatorState.remember, TerminatorState.closed?,
      TerminatorState.closes, within.awaiting]
  · exact within.pending
  · simp [TerminatorState.parenEnclosure, TerminatorState.track, TerminatorState.remember, header]

/-- The word `function`, by the kind that it has here. -/
theorem Leads.functionWord (within : Within stack awaiting r) {kind : TokenKind}
    (retyped : r.terminators.retyped (.keyword .functionKw) = (kind, awaiting))
    (starts : kind.startsFunction = true) (keeps : r.Keeps (ts ++ rest))
    (step : Parse.step r.parser (.plain kind t) = some p)
    (next : ∀ r, Heads .signature stack awaiting p r →
      r.terminators.last.any TokenKind.startsFunction = true → Leads r ts rest Q) :
    Leads r (.plain (.keyword .functionKw) t :: ts) rest Q := by
  have noHeader : kind.opensHeader = false ∧ TerminatorState.closes kind = false ∧
      ∀ s : TerminatorState, s.opened? kind = none := by
    unfold TokenKind.startsFunction at starts
    split at starts <;> first | exact ⟨rfl, rfl, fun _ => rfl⟩ | cases starts
  refine .cons (within.take (by simp) keeps.named (arrowMark_of_ne (by simp)) (by simp)
    (.inl (by simp)) retyped step) (next _ ⟨⟨?_, ?_, ?_⟩, ?_, rfl⟩ starts)
  · simp [TerminatorState.track, TerminatorState.remember, TerminatorState.stackAfter, noHeader,
      within.stack]
  · simp [TerminatorState.track, TerminatorState.remember, TerminatorState.closed?, noHeader]
  · exact within.pending
  · simp [TerminatorState.parenEnclosure, TerminatorState.track, TerminatorState.remember, starts,
      noHeader]

/-- The name of a function. -/
theorem Leads.functionName {p' : Parse.State} (heads : Heads .signature stack awaiting p r)
    (starts : r.terminators.last.any TokenKind.startsFunction = true)
    (step : Parse.step r.parser (.plain .name t) = some p')
    (next : ∀ r, Heads .signature stack awaiting p' r → Leads r ts rest Q) :
    Leads r (.plain .name t :: ts) rest Q := by
  refine .cons (heads.take (by decide) (named_of_isKeyword_eq_false rfl)
    (arrowMark_of_ne (by decide)) (by decide) (.inl (by decide))
    (retyped_of_ne (by decide) (by decide)) step) (next _ ⟨⟨?_, ?_, ?_⟩, ?_, rfl⟩)
  · exact heads.stack
  · simp [TerminatorState.track, TerminatorState.remember, TerminatorState.closed?,
      TerminatorState.closes, heads.awaiting]
  · exact heads.pending
  · simp [TerminatorState.parenEnclosure, TerminatorState.track, TerminatorState.remember, starts,
      TokenKind.opensHeader, TokenKind.startsFunction]

theorem Leads.semicolon (within : Within stack awaiting r)
    (step : Parse.step r.parser (.plain .terminator t) = some p)
    (next : ∀ r, Behind stack awaiting .semicolon .terminator p r →
      r.terminators.canTerminate = false → Leads r ts rest Q) :
    Leads r (.plain .semicolon t :: ts) rest Q := by
  have settle : r.terminators.settle .semicolon = (r.terminators, []) := by
    simp [TerminatorState.settle, within.pending]
  have taken : r.take (.plain .semicolon t) (ts ++ rest) =
      some ⟨some .semicolon, false, r.terminators.terminated, p⟩ := by
    rw [Reader.take, if_neg (by rintro ⟨⟩)]
    have named : r.named (.plain .semicolon t) (ts ++ rest) = .plain .semicolon t :=
      named_of_isKeyword_eq_false rfl
    have mark : Token.arrowMark (.plain .semicolon t) (ts ++ rest) = .plain .semicolon t :=
      arrowMark_of_ne (by decide)
    simp only [named, mark]
    rw [TerminatorState.step_semicolon _ rfl, settle]
    simp only [Parse.feed, List.nil_append, Token.retype_plain, List.foldlM_cons, List.foldlM_nil,
      step, bind, Option.bind_some, pure, Option.map_some]
    rfl
  have calm : Calm stack awaiting ⟨some .semicolon, false, r.terminators.terminated, p⟩ :=
    ⟨within.stack, within.awaiting, within.pending⟩
  exact .cons taken (next _ ⟨⟨calm, rfl⟩, rfl, rfl, rfl, rfl⟩ rfl)

/-- A line end where no statement is open. -/
theorem Leads.blankLine (settled : r.terminators.canTerminate = false)
    (next : Leads { r with onNewLine := true } ts rest Q) :
    Leads r (.plain .newline t :: ts) rest Q := by
  have stays : r.terminators.newline .synthetic = r.terminators := by
    simp [TerminatorState.newline, settled]
  have taken : r.take (.plain .newline t) (ts ++ rest) =
      some { r with onNewLine := true, terminators := r.terminators.newline .synthetic } := rfl
  rw [stays] at taken
  exact .cons taken next

/-- Behind a list the last item of which is not yet part of it. -/
def Listed (E : Node → List Node → Reader → Prop) (items : List Node) (r : Reader) : Prop :=
  ∃ last others, (last :: others).reverse = items ∧ E last others r

/-- Items with commas between them. Before each item the items done so far are known. -/
theorem Leads.commas {items : List Node} {pieces : Node → List Piece} {layout : Layout}
    (P : List Node → Reader → Prop) {E : Node → List Node → Reader → Prop}
    (item : ∀ n ∈ items, ∀ done r rest, P done r → Token.Quiet rest →
      Leads r (Pieces.tokens (pieces n)) rest (E n.unplaced done))
    (comma : ∀ n done r ts rest Q, E n done r → (∀ r', P (n :: done) r' → Leads r' ts rest Q) →
      Leads r (.plain .comma "," :: ts) rest Q)
    (nonempty : items ≠ []) {done : List Node} (start : P done r) (quiet : Token.Quiet rest) :
    Leads r (Pieces.tokens (Pieces.commas layout (items.map pieces))) rest
      (Listed E (done.reverse ++ items.map Node.unplaced)) := by
  induction items generalizing r done with
  | nil => exact absurd rfl nonempty
  | cons first others ih =>
    obtain ⟨reads, othersRead⟩ := List.forall_mem_cons.mp item
    cases others with
    | nil =>
      refine (reads done r rest start quiet).mono fun r' ended => ?_
      exact ⟨first.unplaced, done, by simp, ended⟩
    | cons second others =>
      simp only [List.map_cons, Pieces.commas, Pieces.join_cons_cons, Pieces.tokens_append,
        List.append_assoc]
      refine (reads done r _ start (Token.quiet_cons rfl _ _)).append fun r₁ ended => ?_
      simp only [Pieces.tokens_comma, Pieces.tokens_space, List.cons_append, List.nil_append]
      refine comma _ _ _ _ _ _ ended fun r₂ start => ?_
      have leads := ih othersRead (by simp) start
      simpa [Pieces.commas] using leads

end Reader

end TypeGloss
