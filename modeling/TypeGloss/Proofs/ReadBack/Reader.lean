import TypeGloss.Proofs.Lawful
import TypeGloss.Proofs.Unplaced

/-!
# Reading token by token

Tokens are marked, terminators are inserted and the result is parsed. A reader does all of this for
one token after the other. Only the marks look ahead: a reader is given the tokens that follow.
-/

namespace TypeGloss

namespace Parse

theorem feed_append (s : State) (ts us : List Token) :
    feed s (ts ++ us) = (feed s ts).bind fun s => feed s us := by
  simp only [feed, List.foldlM_append]
  rfl

theorem read?_append (s : State) (ts us : List Token) :
    read? s (ts ++ us) = (feed s ts).bind fun s => read? s us := by
  rw [read?, feed_append]
  cases feed s ts <;> rfl

end Parse

/-- What is known between two tokens. -/
structure Reader where
  /-- The kind of the token before, line feeds aside. -/
  before : Option TokenKind
  /-- Whether a line feed came since. -/
  onNewLine : Bool
  terminators : TerminatorState
  parser : Parse.State

namespace Reader

/-- A token that is a name if it names a property. -/
def named (r : Reader) (t : Token) (rest : List Token) : Token :=
  if t.kind.isKeyword && Token.namesProperty r.before r.onNewLine rest then t.retype .name else t

/-- The reader behind a token. -/
def take (r : Reader) (t : Token) (rest : List Token) : Option Reader :=
  if t.kind = .newline then
    some { r with onNewLine := true, terminators := r.terminators.newline t.loc }
  else
    let named := r.named t rest
    let after := r.terminators.step (Token.arrowMark named rest)
    (Parse.feed r.parser after.2).map fun parser => ⟨some named.kind, false, after.1, parser⟩

/-- The program that tokens complete, with the terminator that their end adds. -/
def read? (r : Reader) : List Token → Option Node
  | [] => Parse.read? r.parser r.terminators.finish
  | t :: rest => (r.take t rest).bind fun r => r.read? rest

/-- The reader of a text. -/
def start : Reader := ⟨none, false, {}, Parse.start⟩

theorem arrowFollows_cons (t : Token) (rest : List Token) :
    Token.arrowFollows (t :: rest) =
      if t.kind = .newline then Token.arrowFollows rest else t.kind = .arrow := by
  by_cases newline : t.kind = .newline <;> simp [Token.arrowFollows, newline]

theorem arrowFollows_markPropertyNames (ts : List Token) (before : Option TokenKind)
    (onNewLine : Bool) :
    Token.arrowFollows (Token.markPropertyNamesFrom before onNewLine ts) =
      Token.arrowFollows ts := by
  induction ts generalizing before onNewLine with
  | nil => rfl
  | cons t rest ih =>
    rw [Token.markPropertyNamesFrom]
    split
    case isTrue newline => simp [arrowFollows_cons, newline, ih]
    case isFalse newline =>
      dsimp only
      split
      case isTrue both =>
        have keyword : t.kind.isKeyword = true := (Bool.and_eq_true _ _ ▸ both).1
        cases kind : t.kind <;> simp_all [arrowFollows_cons, Token.retype, TokenKind.isKeyword]
      case isFalse => simp [arrowFollows_cons, newline]

theorem closesIntoArrow_markPropertyNames (ts : List Token) (before : Option TokenKind)
    (onNewLine : Bool) (depth : Nat) :
    Token.closesIntoArrow depth (Token.markPropertyNamesFrom before onNewLine ts) =
      Token.closesIntoArrow depth ts := by
  induction ts generalizing before onNewLine depth with
  | nil => rfl
  | cons t rest ih =>
    have same (before : Option TokenKind) (onNewLine : Bool) (u : Token)
        (left : u.kind = .leftParen ↔ t.kind = .leftParen)
        (right : u.kind = .rightParen ↔ t.kind = .rightParen) :
        Token.closesIntoArrow depth (u :: Token.markPropertyNamesFrom before onNewLine rest) =
          Token.closesIntoArrow depth (t :: rest) := by
      cases depth <;>
        simp [Token.closesIntoArrow, left, right, ih, arrowFollows_markPropertyNames]
    rw [Token.markPropertyNamesFrom]
    split
    case isTrue newline => exact same _ _ t .rfl .rfl
    case isFalse =>
      dsimp only
      split
      case isTrue both =>
        have keyword : t.kind.isKeyword = true := (Bool.and_eq_true _ _ ▸ both).1
        refine same _ _ _ ?_ ?_ <;> cases kind : t.kind <;>
          simp_all [Token.retype, TokenKind.isKeyword]
      case isFalse => exact same _ _ t .rfl .rfl

/-- A reader does what marking, inserting and parsing do one after the other. -/
theorem read?_eq (ts : List Token) (r : Reader) :
    Parse.read? r.parser (r.terminators.run
      (Token.markArrows (Token.markPropertyNamesFrom r.before r.onNewLine ts))) = r.read? ts := by
  induction ts generalizing r with
  | nil => rfl
  | cons t rest ih =>
    rw [read?, take]
    by_cases newline : t.kind = .newline
    · have mark : Token.arrowMark t (Token.markPropertyNamesFrom r.before true rest) = t := by
        simp [Token.arrowMark, newline]
      rw [Token.markPropertyNamesFrom, if_pos newline, Token.markArrows, mark,
        TerminatorState.run_cons, TerminatorState.step_newline _ newline, if_pos newline]
      exact ih { r with onNewLine := true, terminators := r.terminators.newline t.loc }
    · have mark : Token.arrowMark (r.named t rest)
          (Token.markPropertyNamesFrom (some (r.named t rest).kind) false rest) =
            Token.arrowMark (r.named t rest) rest := by
        rw [Token.arrowMark, closesIntoArrow_markPropertyNames]
        rfl
      rw [Token.markPropertyNamesFrom, if_neg newline, if_neg newline]
      change Parse.read? r.parser (r.terminators.run (Token.markArrows (r.named t rest ::
        Token.markPropertyNamesFrom (some (r.named t rest).kind) false rest))) = _
      rw [Token.markArrows, mark, TerminatorState.run_cons, Parse.read?_append]
      dsimp only
      cases Parse.feed r.parser (r.terminators.step (Token.arrowMark (r.named t rest) rest)).2 with
      | none => rfl
      | some parser => exact ih ⟨_, false, _, parser⟩

/-- Tokens before other ones lead to a reader with some property. -/
def Leads (r : Reader) (ts rest : List Token) (Q : Reader → Prop) : Prop :=
  ∃ r', Q r' ∧ r.read? (ts ++ rest) = r'.read? rest

section Leads

variable {r : Reader} {ts us rest : List Token} {P Q : Reader → Prop}

theorem Leads.nil (holds : Q r) : Leads r [] rest Q := ⟨r, holds, rfl⟩

theorem Leads.mono (leads : Leads r ts rest P) (weaker : ∀ r, P r → Q r) : Leads r ts rest Q :=
  let ⟨r', holds, same⟩ := leads
  ⟨r', weaker r' holds, same⟩

theorem Leads.append (first : Leads r ts (us ++ rest) P) (next : ∀ r, P r → Leads r us rest Q) :
    Leads r (ts ++ us) rest Q := by
  obtain ⟨r₁, holds, same⟩ := first
  obtain ⟨r₂, holds, later⟩ := next r₁ holds
  exact ⟨r₂, holds, by rw [List.append_assoc, same, later]⟩

theorem Leads.cons {t : Token} {r' : Reader} (taken : r.take t (ts ++ rest) = some r')
    (next : Leads r' ts rest Q) : Leads r (t :: ts) rest Q := by
  obtain ⟨r₂, holds, later⟩ := next
  exact ⟨r₂, holds, by rw [List.cons_append, read?, taken, Option.bind_some, later]⟩

end Leads

end Reader

end TypeGloss
