import TypeGloss.Proofs.Marks
import TypeGloss.Token.Stream
import Mathlib.Data.List.Forall2

/-!
# Laws of token streams

What the marks and terminators of a stream promise about each token: how it is spelled, which token
stands before the brace of an object or a function that stands as an expression, and where a
reserved word may have become a name.
-/

namespace TypeGloss

namespace Token

open Lexeme (Spells IsName isWordText)

/-- The texts of the tokens of a stream. -/
def Formed : TokenKind → Text → Prop
  | .name, t => isWordText t = true
  | .terminator, t => t = [] ∨ t = ";"
  | .objectBrace, t => t = "\x7b"
  | .arrowParen, t => t = "("
  | .functionExpr, t => t = "function"
  | kind, t => Spells kind t

/-- Whether a colon comes next, with a question mark before it or without. -/
def keyFollows : List Token → Bool
  | [] => false
  | a :: more => a.kind = .colon || (a.kind = .question && more.head?.any fun b => b.kind = .colon)

/-- Kinds behind which a reserved word may be the key of a member. -/
def precedesKey : TokenKind → Bool
  | .leftBrace | .objectBrace | .comma | .terminator | .name | .keyword .nullKw | .rightParen
  | .rightBracket | .rightBrace => true
  | _ => false

/-- Kinds that end a member of a type body, but not an expression. -/
def endsTypeOnly : TokenKind → Bool
  | .keyword .voidKw | .greater => true
  | _ => false

/-- Whether a line ends directly behind a token that ends a type but not an expression. -/
def breaksOperator : List Token → Bool
  | a :: b :: rest => (endsTypeOnly a.kind && b.kind = .newline) || breaksOperator (b :: rest)
  | _ => false

/-- What holds of a token behind a kind and before other tokens. -/
structure LawfulAt (broken : Prop) (last : Option TokenKind) (t : Token) (rest : List Token) :
    Prop where
  formed : Formed t.kind t.text
  brace : t.kind = .objectBrace →
    ∃ k, last = some k ∧ (k.precedesExpression = true ∨ k = .bar)
  function : t.kind = .functionExpr →
    ∃ k, last = some k ∧ (k.precedesExpression = true ∨ k = .arrow)
  name : t.kind = .name → IsName t.text ∨ last = some .dot ∨
    (keyFollows rest = true ∧
      ∃ k, last = some k ∧ (precedesKey k = true ∨ (endsTypeOnly k = true ∧ broken)))

/-- A stream all of whose tokens are lawful. -/
def Lawful (broken : Prop) : Option TokenKind → List Token → Prop
  | _, [] => True
  | last, t :: rest => LawfulAt broken last t rest ∧ Lawful broken (some t.kind) rest

/-- What the marks of property names promise about a token. -/
def KeyedAt (broken : Prop) (before : Option TokenKind) (onNewLine : Bool) (t : Token)
    (rest : List Token) : Prop :=
  Spells t.kind t.text ∨ (t.kind = .arrowParen ∧ t.text = "(") ∨
    (t.kind = .name ∧ isWordText t.text = true ∧ namesProperty before onNewLine rest = true ∧
      ∀ k, before = some k → endsTypeOnly k = true → broken)

/-- What the marks of property names promise about tokens with line feeds between them. -/
def Keyed (broken : Prop) : Option TokenKind → Bool → List Token → Prop
  | _, _, [] => True
  | before, onNewLine, t :: rest =>
    if t.kind = .newline then Keyed broken before true rest
    else KeyedAt broken before onNewLine t rest ∧ Keyed broken (some t.kind) false rest

/-- Two tokens that are alike to what looks ahead for a key. -/
def AlikeAhead (a b : Token) : Prop :=
  (a.kind = .newline ↔ b.kind = .newline) ∧ (a.kind = .colon ↔ b.kind = .colon) ∧
    (a.kind = .question ↔ b.kind = .question)

theorem AlikeAhead.refl (a : Token) : AlikeAhead a a := ⟨.rfl, .rfl, .rfl⟩

theorem followsKey_congr {ts ts' : List Token} (alike : List.Forall₂ AlikeAhead ts ts') :
    followsKey ts = followsKey ts' := by
  have significantAlike : List.Forall₂ AlikeAhead (significant ts) (significant ts') := by
    induction alike with
    | nil => exact .nil
    | @cons a b as bs first rest ih =>
      unfold significant at ih ⊢
      rw [List.filter_cons, List.filter_cons]
      by_cases newline : a.kind = .newline
      · rw [if_neg (by simp [newline]), if_neg (by simp [first.1.mp newline])]
        exact ih
      · rw [if_pos (by simp [newline]), if_pos (by simp [mt first.1.mpr newline])]
        exact .cons first ih
  unfold followsKey
  revert significantAlike
  generalize significant ts = us
  generalize significant ts' = us'
  intro alike
  cases alike with
  | nil => rfl
  | cons first rest =>
    cases rest with
    | nil => simp [first.2.1, first.2.2]
    | cons second rest => simp [first.2.1, first.2.2, second.2.1]

private theorem alikeAhead_retype {t : Token} {kind : TokenKind} (plain : t.kind ≠ .newline)
    (noColon : t.kind ≠ .colon) (noQuestion : t.kind ≠ .question) (plain' : kind ≠ .newline)
    (noColon' : kind ≠ .colon) (noQuestion' : kind ≠ .question) : AlikeAhead (t.retype kind) t := by
  simp [AlikeAhead, Token.retype, *]

theorem alikeAhead_markPropertyNames (ts : List Token) (before : Option TokenKind)
    (onNewLine : Bool) :
    List.Forall₂ AlikeAhead (markPropertyNamesFrom before onNewLine ts) ts := by
  induction ts generalizing before onNewLine with
  | nil => exact .nil
  | cons t rest ih =>
    rw [markPropertyNamesFrom]
    split
    · exact .cons (.refl t) (ih before true)
    · refine .cons ?_ (ih _ false)
      split
      · rename_i marked
        have keyword : t.kind.isKeyword = true := (Bool.and_eq_true _ _ ▸ marked).1
        have other {kind : TokenKind} (noKeyword : kind.isKeyword = false) : t.kind ≠ kind := by
          rintro rfl
          rw [noKeyword] at keyword
          cases keyword
        exact alikeAhead_retype (other rfl) (other rfl) (other rfl) (by decide) (by decide)
          (by decide)
      · exact .refl t

theorem alikeAhead_markArrows (ts : List Token) :
    List.Forall₂ AlikeAhead (markArrows ts) ts := by
  induction ts with
  | nil => exact .nil
  | cons t rest ih =>
    refine .cons ?_ ih
    unfold arrowMark
    split
    · rename_i marked
      apply alikeAhead_retype <;> simp [marked.1]
    · exact .refl t

private theorem noMember_of_endsTypeOnly {k : TokenKind} (typeOnly : endsTypeOnly k = true) :
    k ≠ .dot ∧ opensMember k = false := by
  cases k with
  | keyword word => exact ⟨TokenKind.noConfusion, rfl⟩
  | greater => exact ⟨TokenKind.noConfusion, rfl⟩
  | _ => cases typeOnly

/-- Marking the property names of spelled tokens keeps the promise about them. -/
theorem keyed_markPropertyNames {broken : Prop} (ts : List Token) (before : Option TokenKind)
    (onNewLine : Bool) (spelled : ∀ t ∈ ts, Spells t.kind t.text)
    (inside : breaksOperator ts = true → broken)
    (atFront : ∀ k, before = some k → endsTypeOnly k = true →
      (onNewLine = true ∨ ∃ t, ts.head? = some t ∧ t.kind = .newline) → broken) :
    Keyed broken before onNewLine (markPropertyNamesFrom before onNewLine ts) := by
  induction ts generalizing before onNewLine with
  | nil => trivial
  | cons t rest ih =>
    have spelledRest : ∀ t ∈ rest, Spells t.kind t.text := fun u mem => spelled u (.tail t mem)
    have insideRest : breaksOperator rest = true → broken := by
      intro breaks
      apply inside
      cases rest with
      | nil => cases breaks
      | cons u rest => simp [breaksOperator, breaks]
    rw [markPropertyNamesFrom]
    by_cases newline : t.kind = .newline
    · simp only [newline, if_true, Keyed]
      apply ih before true spelledRest insideRest
      intro k isBefore typeOnly _
      exact atFront k isBefore typeOnly (.inr ⟨t, rfl, newline⟩)
    · simp only [newline, if_false]
      have tailKeyed (kind : TokenKind) (same : endsTypeOnly kind = true → kind = t.kind) :
          Keyed broken (some kind) false (markPropertyNamesFrom (some kind) false rest) := by
        apply ih (some kind) false spelledRest insideRest
        rintro k ⟨⟩ typeOnly (impossible | ⟨u, first, lineEnd⟩)
        · cases impossible
        · apply inside
          cases rest with
          | nil => cases first
          | cons v rest =>
            obtain rfl : v = u := by simpa using first
            have here : endsTypeOnly t.kind = true := same typeOnly ▸ typeOnly
            simp [breaksOperator, here, lineEnd]
      split
      · rename_i marked
        rw [Bool.and_eq_true] at marked
        obtain ⟨keyword, names⟩ := marked
        rw [Keyed, if_neg (by simp [Token.retype])]
        refine ⟨.inr (.inr ⟨rfl, ?_, ?_, ?_⟩), tailKeyed .name (by simp [endsTypeOnly])⟩
        · cases kind : t.kind with
          | keyword word =>
            have spelling : t.text = word.spelling := by
              simpa [Spells, kind] using spelled t (.head rest)
            exact spelling ▸ Lexeme.isWordText_spelling word
          | _ => simp [kind, TokenKind.isKeyword] at keyword
        · simpa only [namesProperty, followsKey_congr (alikeAhead_markPropertyNames _ _ _)]
            using names
        · intro k isBefore typeOnly
          apply atFront k isBefore typeOnly
          left
          subst isBefore
          cases onNewLine with
          | true => rfl
          | false => simp [namesProperty, noMember_of_endsTypeOnly typeOnly] at names
      · rw [Keyed, if_neg newline]
        exact ⟨.inl (spelled t (.head rest)), tailKeyed t.kind fun _ => rfl⟩

/-- Marking the parentheses of arrow parameters keeps the promise about keys. -/
theorem keyed_markArrows {broken : Prop} (ts : List Token) (before before' : Option TokenKind)
    (onNewLine : Bool) (keyed : Keyed broken before onNewLine ts)
    (same : before' = before ∨ (before = some .leftParen ∧ before' = some .arrowParen)) :
    Keyed broken before' onNewLine (markArrows ts) := by
  induction ts generalizing before before' onNewLine with
  | nil => trivial
  | cons t rest ih =>
    rw [Keyed] at keyed
    rw [markArrows, arrowMark]
    by_cases newline : t.kind = .newline
    · rw [if_pos newline] at keyed
      simp only [newline, reduceCtorEq, false_and, if_false, Keyed, if_true]
      exact ih before before' true keyed same
    · rw [if_neg newline] at keyed
      split
      · rename_i marked
        have text : t.text = "(" := by
          rcases keyed.1 with spells | ⟨kind, text⟩ | ⟨kind, -⟩
          · rw [marked.1] at spells
            have all : ∀ sign ∈ Lexeme.signs, sign.2 = .leftParen → sign.1 = "(" := by decide
            exact all _ spells rfl
          · exact text
          · rw [marked.1] at kind
            cases kind
        rw [Keyed, if_neg (by simp [Token.retype])]
        refine ⟨.inr (.inl ⟨rfl, text⟩), ih (some .leftParen) _ false ?_ (.inr ⟨rfl, rfl⟩)⟩
        exact marked.1 ▸ keyed.2
      · rw [Keyed, if_neg newline]
        refine ⟨?_, ih _ _ false keyed.2 (.inl rfl)⟩
        rcases keyed.1 with spells | paren | ⟨kind, word, names, breaks⟩
        · exact .inl spells
        · exact .inr (.inl paren)
        · rcases same with rfl | ⟨rfl, rfl⟩
          · refine .inr (.inr ⟨kind, word, ?_, breaks⟩)
            simpa only [namesProperty, followsKey_congr (alikeAhead_markArrows rest)] using names
          · simp [namesProperty, opensMember, endsMember] at names

end Token

namespace TerminatorState

open Token

/-- The kind that an emitted kind was before terminators were inserted. -/
def Image (before kind : TokenKind) : Prop :=
  (kind = before ∧ before ≠ .semicolon) ∨ (before = .semicolon ∧ kind = .terminator) ∨
    (before = .leftBrace ∧ kind = .objectBrace) ∨
    (before = .keyword .functionKw ∧ kind = .functionExpr)

/-- How a state remembers what came before. -/
structure Tied (before : Option TokenKind) (s : TerminatorState) : Prop where
  last : ∀ b, before = some b → ∃ k, s.last = some k ∧ Image b k
  terminates : s.canTerminate = true → ∃ k, s.last = some k ∧ k.endsStatement = true
  pending : s.pending.isSome = true → s.canTerminate = true

theorem run_cons (s : TerminatorState) (t : Token) (rest : List Token) :
    s.run (t :: rest) = (s.step t).2 ++ (s.step t).1.run rest := rfl

theorem step_newline (s : TerminatorState) {t : Token} (kind : t.kind = .newline) :
    s.step t = (s.newline t.loc, []) := by
  simp [step, kind]

theorem step_semicolon (s : TerminatorState) {t : Token} (kind : t.kind = .semicolon) :
    s.step t = ((s.settle .semicolon).1.terminated,
      (s.settle .semicolon).2 ++ [t.retype .terminator]) := by
  simp [step, kind]

/-- The state before a token that is no semicolon, when it is settled what stands before it. -/
def beforeToken (s : TerminatorState) (t : Token) : TerminatorState :=
  ((s.settle t.kind).1.closeStatement t).1

/-- The terminators inserted before a token that is no semicolon. -/
def insertedBefore (s : TerminatorState) (t : Token) : List Token :=
  (s.settle t.kind).2 ++ ((s.settle t.kind).1.closeStatement t).2

/-- The state behind a token that is no semicolon. -/
def afterToken (s : TerminatorState) (t : Token) : TerminatorState :=
  { s.beforeToken t with awaitingBody := ((s.beforeToken t).retyped t.kind).2 }.track
    (t.retype ((s.beforeToken t).retyped t.kind).1)

theorem step_other (s : TerminatorState) {t : Token} (noNewline : t.kind ≠ .newline)
    (noSemicolon : t.kind ≠ .semicolon) :
    s.step t = (s.afterToken t,
      s.insertedBefore t ++ [t.retype ((s.beforeToken t).retyped t.kind).1]) := by
  simp only [step, if_neg noNewline, if_neg noSemicolon]
  rfl

/-- A terminator is lawful wherever it stands. -/
theorem lawfulAt_terminator {broken : Prop} {last : Option TokenKind} {t : Token}
    {rest : List Token} (kind : t.kind = .terminator) (text : t.text = [] ∨ t.text = ";") :
    LawfulAt broken last t rest where
  formed := by rw [kind]; exact text
  brace := by simp [kind]
  function := by simp [kind]
  name := by simp [kind]

private theorem run_continued {s : TerminatorState} {ts : List Token} {a : Token}
    {more : List Token} (next : significant ts = a :: more)
    (sign : a.kind = .colon ∨ a.kind = .question) :
    ∃ s' rest, s.run ts = a :: run s' rest ∧ significant rest = more := by
  induction ts generalizing s with
  | nil => cases next
  | cons t rest ih =>
    unfold significant at next
    rw [List.filter_cons] at next
    by_cases newline : t.kind = .newline
    · simp only [newline, ne_eq, not_true_eq_false, decide_false, Bool.false_eq_true, if_false]
        at next
      obtain ⟨s', rest', eq, same⟩ := @ih (s.newline t.loc) next
      exact ⟨s', rest', by simp [run, step, newline, eq], same⟩
    · simp only [ne_eq, newline, not_false_eq_true, decide_true, if_true, List.cons.injEq] at next
      obtain ⟨rfl, tail⟩ := next
      have goesOn : ∀ s : TerminatorState, s.continues t.kind = true := by
        intro s
        rcases sign with kind | kind <;> simp [continues, kind, TokenKind.continuesStatement]
      have settled : ∃ s', s.settle t.kind = (s', []) := by
        unfold settle
        split
        · exact ⟨_, rfl⟩
        · exact ⟨{ s with pending := none }, by simp [goesOn]⟩
      obtain ⟨s', settled⟩ := settled
      have emitted : (s.step t).2 = [t] := by
        obtain ⟨kind, text, loc⟩ := t
        rcases sign with rfl | rfl <;> simp [step, settled, closeStatement, retyped, Token.retype]
      exact ⟨(s.step t).1, rest, by rw [run_cons, emitted]; rfl, tail⟩

private theorem keyFollows_run {s : TerminatorState} {ts : List Token}
    (follows : followsKey ts = true) : keyFollows (s.run ts) = true := by
  unfold followsKey at follows
  match next : significant ts with
  | [] => simp [next] at follows
  | a :: more =>
    rw [next] at follows
    by_cases colon : a.kind = .colon
    · obtain ⟨s', rest, eq, -⟩ := @run_continued s ts a more next (.inl colon)
      simp [eq, keyFollows, colon]
    · match more with
      | [] => simp [colon] at follows
      | b :: more =>
        simp only [List.take_succ_cons, List.take_zero, colon, decide_false, Bool.false_or,
          Bool.and_eq_true, decide_eq_true_eq, List.any_cons, List.any_nil, Bool.or_false]
          at follows
        obtain ⟨s', rest, eq, same⟩ := @run_continued s ts a (b :: more) next (.inr follows.1)
        obtain ⟨s'', rest', eq', -⟩ := @run_continued s' rest b more same (.inl follows.2)
        simp [eq, eq', keyFollows, follows.1, follows.2]

theorem Tied.newline {before : Option TokenKind} {s : TerminatorState} (tied : Tied before s)
    (loc : Location) : Tied before (s.newline loc) := by
  unfold TerminatorState.newline
  split
  · rename_i ends
    simp only [Bool.and_eq_true] at ends
    exact ⟨tied.last, tied.terminates, fun _ => ends.1.2⟩
  · exact tied

/-- The last kind behind what was emitted before a token: the kind before, or a terminator, which
stands only behind a kind that can end a statement. -/
private def Passed (before after : TerminatorState) (emitted : List Token) : Prop :=
  (after.last = before.last ∧ emitted = []) ∨
    (after.last = some .terminator ∧ (∃ k, before.last = some k ∧ k.endsStatement = true) ∧
      ∃ loc, emitted = [inserted loc])

private theorem passed_settle {before : Option TokenKind} {s : TerminatorState}
    (tied : Tied before s) (kind : TokenKind) :
    Passed s (s.settle kind).1 (s.settle kind).2 := by
  unfold settle
  split
  · exact .inl ⟨rfl, rfl⟩
  · rename_i loc pending
    simp only
    split
    · exact .inl ⟨rfl, rfl⟩
    · exact .inr ⟨rfl, tied.terminates (tied.pending (by simp [pending])), loc, rfl⟩

private theorem passed_closeStatement {s : TerminatorState}
    (terminates : s.canTerminate = true → ∃ k, s.last = some k ∧ k.endsStatement = true)
    (t : Token) : Passed s (s.closeStatement t).1 (s.closeStatement t).2 := by
  unfold closeStatement
  split
  · rename_i closes
    exact .inr ⟨rfl, terminates closes.2.1, t.loc, rfl⟩
  · exact .inl ⟨rfl, rfl⟩

private theorem Passed.lawful {broken : Prop} {before after : TerminatorState}
    {emitted rest : List Token} (passed : Passed before after emitted)
    (lawful : Lawful broken after.last rest) : Lawful broken before.last (emitted ++ rest) := by
  rcases passed with ⟨same, rfl⟩ | ⟨same, -, loc, rfl⟩
  · rwa [List.nil_append, ← same]
  · rw [same] at lawful
    exact ⟨lawfulAt_terminator rfl (.inl rfl), lawful⟩

private theorem settle_terminates {before : Option TokenKind} {s : TerminatorState}
    (tied : Tied before s) (kind : TokenKind)
    (canTerminate : (s.settle kind).1.canTerminate = true) :
    ∃ k, (s.settle kind).1.last = some k ∧ k.endsStatement = true := by
  unfold settle at canTerminate ⊢
  split at canTerminate
  · exact tied.terminates canTerminate
  · simp only at canTerminate ⊢
    split at canTerminate
    · rename_i goesOn
      rw [if_pos goesOn]
      exact tied.terminates canTerminate
    · cases canTerminate

private theorem settle_pending (s : TerminatorState) (kind : TokenKind) :
    (s.settle kind).1.pending = none := by
  unfold settle
  split
  · assumption
  · simp only
    split <;> rfl

private theorem closeStatement_pending (s : TerminatorState) (t : Token) :
    (s.closeStatement t).1.pending = s.pending := by
  unfold closeStatement
  split <;> rfl

private theorem image_retyped (s : TerminatorState) {kind : TokenKind} (plain : kind ≠ .semicolon) :
    Image kind (s.retyped kind).1 := by
  unfold retyped
  split
  · rename_i isBrace
    subst isBrace
    split
    · split
      · exact .inr (.inr (.inl ⟨rfl, rfl⟩))
      · exact .inl ⟨rfl, plain⟩
    · split
      · exact .inr (.inr (.inl ⟨rfl, rfl⟩))
      · exact .inl ⟨rfl, plain⟩
  · split
    · rename_i isFunction
      exact .inr (.inr (.inr ⟨isFunction.1, rfl⟩))
    · exact .inl ⟨rfl, plain⟩

private theorem precedesExpression_of_typeBrace {k : TokenKind}
    (precedes : k.precedesTypeBrace = true) : k.precedesExpression = true ∨ k = .bar := by
  cases k with
  | colon | less | comma | bar => simp [TokenKind.precedesExpression]
  | _ => cases precedes

private theorem last_of_retyped_objectBrace {s : TerminatorState} {kind : TokenKind}
    (plain : kind ≠ .objectBrace) (brace : (s.retyped kind).1 = .objectBrace) :
    ∃ k, s.last = some k ∧ (k.precedesExpression = true ∨ k = .bar) := by
  unfold retyped at brace
  split at brace
  · split at brace
    · split at brace
      · rename_i typeBrace
        obtain ⟨k, last, precedes⟩ := (Option.any_eq_true _ _).mp typeBrace
        exact ⟨k, last, precedesExpression_of_typeBrace precedes⟩
      · cases brace
    · split at brace
      · rename_i expression
        obtain ⟨k, last, precedes⟩ := (Option.any_eq_true _ _).mp expression
        exact ⟨k, last, .inl precedes⟩
      · cases brace
  · split at brace
    · cases brace
    · exact absurd brace plain

private theorem last_of_retyped_functionExpr {s : TerminatorState} {kind : TokenKind}
    (plain : kind ≠ .functionExpr) (function : (s.retyped kind).1 = .functionExpr) :
    ∃ k, s.last = some k ∧ (k.precedesExpression = true ∨ k = .arrow) := by
  unfold retyped at function
  split at function
  · split at function <;> split at function <;> cases function
  · split at function
    · rename_i isFunction
      rcases isFunction.2 with expression | arrow
      · obtain ⟨k, last, precedes⟩ := (Option.any_eq_true _ _).mp expression
        exact ⟨k, last, .inl precedes⟩
      · exact ⟨.arrow, arrow, .inr rfl⟩
    · exact absurd function plain

private theorem unmarked_of_spells {kind : TokenKind} {t : Text} (spells : Lexeme.Spells kind t) :
    kind ∉ [TokenKind.terminator, .objectBrace, .arrowParen, .functionExpr] := by
  have none : ∀ sign ∈ Lexeme.signs,
      sign.2 ∉ [TokenKind.terminator, .objectBrace, .arrowParen, .functionExpr] := by decide
  intro mem
  simp only [List.mem_cons, List.not_mem_nil, or_false] at mem
  rcases mem with rfl | rfl | rfl | rfl <;> exact none _ spells (by simp)

private theorem formed_retyped {broken : Prop} {before : Option TokenKind} {onNewLine : Bool}
    {t : Token} {rest : List Token} (keyed : KeyedAt broken before onNewLine t rest)
    (plain : t.kind ≠ .semicolon) (s : TerminatorState) :
    Formed (s.retyped t.kind).1 t.text := by
  have text {kind : TokenKind} {text : Text}
      (only : ∀ sign ∈ Lexeme.signs, sign.2 = kind → sign.1 = text)
      (spells : (t.text, kind) ∈ Lexeme.signs) : t.text = text := only _ spells rfl
  rcases keyed with spells | ⟨kind, paren⟩ | ⟨kind, word, -⟩
  · rcases image_retyped s plain with ⟨same, -⟩ | ⟨semicolon, -⟩ | ⟨kind, brace⟩ | ⟨kind, function⟩
    · rw [same]
      have unmarked := unmarked_of_spells spells
      cases kind : t.kind <;> rw [kind] at spells unmarked <;> try exact spells
      · exact spells.1
      all_goals simp at unmarked
    · exact absurd semicolon plain
    · rw [kind] at spells
      rw [brace]
      exact text (by decide) spells
    · rw [kind] at spells
      rw [function]
      exact spells
  · have same : (s.retyped t.kind).1 = .arrowParen := by simp [retyped, kind]
    rw [same]
    exact paren
  · have same : (s.retyped t.kind).1 = .name := by simp [retyped, kind]
    rw [same]
    exact word

private theorem passed_beforeToken {before : Option TokenKind} {s : TerminatorState}
    (tied : Tied before s) (t : Token) : Passed s (s.beforeToken t) (s.insertedBefore t) := by
  have settled := passed_settle tied t.kind
  have closed := passed_closeStatement (settle_terminates tied t.kind) t
  unfold beforeToken insertedBefore
  rcases settled with ⟨same, none⟩ | ⟨same, ends, loc, one⟩
  · rw [none, List.nil_append]
    rcases closed with ⟨same', none'⟩ | ⟨same', ends', loc', one'⟩
    · exact .inl ⟨same'.trans same, none'⟩
    · exact .inr ⟨same', same ▸ ends', loc', one'⟩
  · rcases closed with ⟨same', none'⟩ | ⟨-, ⟨k, last, ends'⟩, -⟩
    · exact .inr ⟨same'.trans same, ends, loc, by rw [one, none', List.append_nil]⟩
    · obtain rfl : TokenKind.terminator = k := by simpa [same] using last
      cases ends'

private theorem precedesKey_of_member {k : TokenKind} (noSemicolon : k ≠ .semicolon)
    (member : opensMember k = true ∨ endsMember k = true) :
    precedesKey k = true ∨ endsTypeOnly k = true := by
  cases k with
  | semicolon => exact absurd rfl noSemicolon
  | leftBrace | comma | name | rightParen | rightBracket | rightBrace | greater =>
    simp [precedesKey, endsTypeOnly]
  | keyword word =>
    cases word with
    | voidKw | nullKw => simp [precedesKey, endsTypeOnly]
    | _ => rcases member with member | member <;> cases member
  | _ => rcases member with member | member <;> cases member

private theorem lawfulAt_retyped {broken : Prop} {before : Option TokenKind} {onNewLine : Bool}
    {t : Token} {rest emitted : List Token} {s after : TerminatorState} (tied : Tied before s)
    (keyed : KeyedAt broken before onNewLine t rest) (plain : t.kind ≠ .semicolon)
    (passed : Passed s after emitted) (next : TerminatorState) :
    LawfulAt broken after.last (t.retype (after.retyped t.kind).1) (next.run rest) where
  formed := formed_retyped keyed plain after
  brace := by
    intro kind
    refine last_of_retyped_objectBrace ?_ kind
    rcases keyed with spells | ⟨other, -⟩ | ⟨other, -⟩
    · exact fun brace => unmarked_of_spells spells (by simp [brace])
    · simp [other]
    · simp [other]
  function := by
    intro kind
    refine last_of_retyped_functionExpr ?_ kind
    rcases keyed with spells | ⟨other, -⟩ | ⟨other, -⟩
    · exact fun function => unmarked_of_spells spells (by simp [function])
    · simp [other]
    · simp [other]
  name := by
    intro kind
    have isName : t.kind = .name := by
      rcases image_retyped after plain with ⟨same, -⟩ | ⟨-, same⟩ | ⟨-, same⟩ | ⟨-, same⟩
      · exact same ▸ kind
      all_goals
        rw [show (t.retype (after.retyped t.kind).1).kind = (after.retyped t.kind).1 from rfl, same]
          at kind
        cases kind
    rcases keyed with spells | ⟨other, -⟩ | ⟨-, -, names, breaks⟩
    · rw [isName] at spells
      exact .inl spells
    · simp [isName] at other
    · right
      match before, tied with
      | none, _ => cases names
      | some b, tied =>
      obtain ⟨k, last, image⟩ := tied.last b rfl
      simp only [namesProperty, Bool.or_eq_true, Bool.and_eq_true, decide_eq_true_eq] at names
      rcases names with rfl | ⟨member, follows⟩
      · -- Behind a point nothing can be inserted.
        left
        rcases passed with ⟨same, -⟩ | ⟨-, ⟨k', last', ends⟩, -⟩
        · rw [same, last]
          rcases image with ⟨rfl, -⟩ | ⟨⟨⟩, -⟩ | ⟨⟨⟩, -⟩ | ⟨⟨⟩, -⟩
          rfl
        · obtain rfl : k = k' := by simpa [last] using last'
          rcases image with ⟨rfl, -⟩ | ⟨⟨⟩, -⟩ | ⟨⟨⟩, -⟩ | ⟨⟨⟩, -⟩
          cases ends
      · refine .inr ⟨keyFollows_run follows, ?_⟩
        rcases passed with ⟨same, -⟩ | ⟨same, -⟩
        · refine ⟨k, same.trans last, ?_⟩
          have allowed := breaks b rfl
          rcases image with ⟨rfl, noSemicolon⟩ | ⟨rfl, rfl⟩ | ⟨rfl, rfl⟩ | ⟨rfl, rfl⟩
          · rcases precedesKey_of_member noSemicolon (member.imp id (·.2)) with key | typeOnly
            · exact .inl key
            · exact .inr ⟨typeOnly, allowed typeOnly⟩
          · exact .inl rfl
          · exact .inl rfl
          · simp [opensMember, endsMember] at member
        · exact ⟨.terminator, same, .inl rfl⟩

/-- Inserting terminators makes a lawful stream of tokens with marks. -/
theorem lawful_run {broken : Prop} (ts : List Token) (s : TerminatorState)
    (before : Option TokenKind) (onNewLine : Bool) (keyed : Keyed broken before onNewLine ts)
    (tied : Tied before s) : Lawful broken s.last (s.run ts) := by
  induction ts generalizing s before onNewLine with
  | nil =>
    unfold run finish
    split
    · split
      · exact ⟨lawfulAt_terminator rfl (.inl rfl), trivial⟩
      · trivial
    · trivial
  | cons t rest ih =>
    rw [Keyed] at keyed
    rw [run_cons]
    by_cases newline : t.kind = .newline
    · rw [if_pos newline] at keyed
      rw [step_newline s newline]
      have last : (s.newline t.loc).last = s.last := by
        unfold TerminatorState.newline
        split <;> rfl
      rw [List.nil_append, ← last]
      exact ih _ before true keyed (tied.newline t.loc)
    · rw [if_neg newline] at keyed
      obtain ⟨keyedAt, keyed⟩ := keyed
      by_cases semicolon : t.kind = .semicolon
      · rw [step_semicolon s semicolon, List.append_assoc]
        apply (passed_settle tied .semicolon).lawful
        have text : t.text = ";" := by
          rcases keyedAt with spells | ⟨kind, -⟩ | ⟨kind, -⟩
          · rw [semicolon] at spells
            have only : ∀ sign ∈ Lexeme.signs, sign.2 = .semicolon → sign.1 = ";" := by decide
            exact only _ spells rfl
          · simp [semicolon] at kind
          · simp [semicolon] at kind
        refine ⟨lawfulAt_terminator rfl (.inr text), ?_⟩
        refine ih (s.settle .semicolon).1.terminated _ false keyed ⟨?_, ?_, ?_⟩
        · rintro b ⟨⟩
          exact ⟨.terminator, rfl, .inr (.inl ⟨semicolon, rfl⟩)⟩
        · intro impossible
          cases impossible
        · intro pending
          have none : (s.settle .semicolon).1.terminated.pending = none := settle_pending s _
          simp [none] at pending
      · rw [step_other s newline semicolon, List.append_assoc]
        apply (passed_beforeToken tied t).lawful
        refine ⟨lawfulAt_retyped tied keyedAt semicolon (passed_beforeToken tied t) _, ?_⟩
        refine ih (s.afterToken t) _ false keyed ⟨?_, ?_, ?_⟩
        · rintro b ⟨⟩
          exact ⟨_, rfl, image_retyped _ semicolon⟩
        · intro canTerminate
          refine ⟨_, rfl, ?_⟩
          simp only [afterToken, track, remember, Bool.and_eq_true] at canTerminate
          exact canTerminate.1.1
        · intro pending
          have none : (s.beforeToken t).pending = none := by
            rw [beforeToken, closeStatement_pending, settle_pending]
          simp [afterToken, track, remember, none] at pending

end TerminatorState

/-- The stream of spelled tokens is lawful. -/
theorem Token.lawful_refine {ts : List Token} (spelled : ∀ t ∈ ts, Lexeme.Spells t.kind t.text) :
    Token.Lawful (Token.breaksOperator ts = true) none (Token.refine ts) := by
  unfold Token.refine Token.insertTerminators
  rw [Token.markArrowParameters_eq]
  have keyed := Token.keyed_markPropertyNames ts none false spelled id (by simp)
  have marked := Token.keyed_markArrows _ none none false keyed (.inl rfl)
  exact TerminatorState.lawful_run _ {} none false marked ⟨by simp, by simp, by simp⟩

end TypeGloss
