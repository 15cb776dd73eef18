import TypeGloss.Proofs.ReadBack.Declaration

/-!
# Between statements

A line end behind a block, or the brace behind it, inserts a terminator that no semicolon stands
for. The parser makes no statement of it. A list of statements goes on as if nothing had been
inserted, and so does the branch before `else`, before which nothing is.
-/

namespace TypeGloss

open Token (Quiet)

namespace TerminatorState

variable (s : TerminatorState)

/-- A pending line end is forgotten, or it inserts a terminator. -/
theorem settle_cases (kind : TokenKind) :
    s.settle kind = ({ s with pending := none }, []) ∨
      ∃ loc, s.settle kind = ({ s with pending := none }.terminated, [inserted loc]) := by
  unfold settle
  split
  case h_1 calm => exact .inl (by rw [← calm])
  case h_2 loc pending =>
    dsimp only
    split
    · exact .inl rfl
    · exact .inr ⟨loc, rfl⟩

theorem settle_of_pending {s : TerminatorState} (calm : s.pending = none) (kind : TokenKind) :
    s.settle kind = (s, []) := by
  simp [settle, calm]

/-- A line end is decided about first. -/
theorem step_settle {t : Token} (noNewline : t.kind ≠ .newline) :
    s.step t = (((s.settle t.kind).1.step t).1,
      (s.settle t.kind).2 ++ ((s.settle t.kind).1.step t).2) := by
  have again : (s.settle t.kind).1.settle t.kind = ((s.settle t.kind).1, []) := by
    refine settle_of_pending ?_ t.kind
    rcases s.settle_cases t.kind with same | ⟨loc, same⟩ <;> simp [same, terminated, remember]
  simp only [step, if_neg noNewline, again]
  split <;> simp

/-- A brace that ends a block first ends the statement before it. -/
theorem step_terminated {s : TerminatorState} {t : Token} (brace : t.kind = .rightBrace)
    (calm : s.pending = none) (terminates : s.canTerminate = true)
    (inBlock : s.stack.head? = some .block) :
    s.step t = ((s.terminated.step t).1, inserted t.loc :: (s.terminated.step t).2) := by
  have noNewline : t.kind ≠ .newline := by simp [brace]
  have noSemicolon : t.kind ≠ .semicolon := by simp [brace]
  have calm' : s.terminated.pending = none := calm
  have first : s.closeStatement t = (s.terminated, [inserted t.loc]) :=
    if_pos ⟨brace, terminates, inBlock⟩
  have second : s.terminated.closeStatement t = (s.terminated, []) :=
    if_neg (by simp [terminated, remember])
  rw [step_other _ noNewline noSemicolon, step_other _ noNewline noSemicolon]
  simp only [afterToken, insertedBefore, beforeToken, settle_of_pending calm,
    settle_of_pending calm', first, second]
  rfl

end TerminatorState

namespace Parse

/-- A state in a list of statements, by the frames to which the statements so far were added. -/
structure Lists (frames : List Frame) (s : State) : Prop where
  starts : ∀ t, t.kind ≠ .keyword .elseKw → step s t = statementStart t frames
  ends : finish? s = finish? ⟨.statement, frames⟩
  /-- What is no statement of its own adds nothing. -/
  silent : ∀ node, Frame.settle node true frames = some frames

theorem Lists.inserted {frames : List Frame} {s : State} (lists : Lists frames s)
    (loc : Location) :
    ∃ next, step s (TerminatorState.inserted loc) = some next ∧ Lists frames next := by
  refine ⟨⟨.finished (.emptyStatement loc) true, frames⟩, ?_, ?_, ?_, lists.silent⟩
  · rw [lists.starts _ (by simp [TerminatorState.inserted])]
    rfl
  · intro t noElse
    simp [step, statementNext, noElse, lists.silent]
  · simp [finish?, lists.silent]

/-- A state behind a statement. If it does not end in an open `if`, an `else` may follow. -/
structure Done (closed : Bool) (node : Node) (frames : List Frame) (s : State) : Prop where
  next : ∀ t, (t.kind = .keyword .elseKw → closed = true) →
    step s t = statementNext t node false frames
  ends : finish? s = finish? ⟨.finished node false, frames⟩

theorem done_finished (closed : Bool) (node : Node) (frames : List Frame) :
    Done closed node frames ⟨.finished node false, frames⟩ := ⟨fun _ _ => rfl, rfl⟩

/-- The last part of a statement, and the whole statement. -/
theorem Done.outer {closed : Bool} {node outer : Node} {frame : Frame} {frames : List Frame}
    {s : State} (done : Done closed node (frame :: frames) s)
    (settle : Frame.settle node false (frame :: frames) = Frame.settle outer false frames)
    (attach : closed = true →
      Frame.attachElse node (frame :: frames) = Frame.attachElse outer frames) :
    Done closed outer frames s where
  next t allowed := by
    rw [done.next t allowed, statementNext, statementNext]
    by_cases isElse : t.kind = .keyword .elseKw
    · rw [if_pos isElse, if_pos isElse, attach (allowed isElse)]
    · rw [if_neg isElse, if_neg isElse, settle]
  ends := by rw [done.ends, finish?, finish?]; simp only [settle]

/-- A statement behind which a list goes on. -/
theorem Done.lists {closed : Bool} {node : Node} {frames outer : List Frame} {s : State}
    (done : Done closed node frames s) (settle : Frame.settle node false frames = some outer)
    (silent : ∀ node, Frame.settle node true outer = some outer) : Lists outer s where
  starts t noElse := by
    rw [done.next t fun isElse => absurd isElse noElse, statementNext, if_neg noElse, settle]
  ends := by rw [done.ends, finish?, finish?]; simp only [settle]
  silent := silent

end Parse

namespace Reader

open Parse (Frame)
open Pieces (tokens)

variable {stack : List Enclosure} {frames : List Frame} {r : Reader} {ts rest : List Token}
  {t : Text} {p : Parse.State} {Q : Reader → Prop} {before last : TokenKind}

/-- The kind of a token that both marks have seen. -/
theorem mark_kind (r : Reader) (t : Token) (rest : List Token) :
    (Token.arrowMark (r.named t rest) rest).kind ∈ [t.kind, .name, .arrowParen] := by
  have named : (r.named t rest).kind ∈ [t.kind, .name] := by
    unfold Reader.named
    split <;> simp [Token.retype]
  unfold Token.arrowMark
  split
  · simp [Token.retype]
  · simp only [List.mem_cons, List.not_mem_nil, or_false] at named ⊢
    rcases named with same | same <;> simp [same]

/-- A token is taken as if no line end had been pending, behind what the line end inserts. -/
theorem take_settle {t : Token} (noNewline : t.kind ≠ .newline)
    (fed : Parse.feed r.parser
      (r.terminators.settle (Token.arrowMark (r.named t rest) rest).kind).2 = some p) :
    r.take t rest = { r with
      terminators := (r.terminators.settle (Token.arrowMark (r.named t rest) rest).kind).1
      parser := p }.take t rest := by
  have marked : (Token.arrowMark (r.named t rest) rest).kind ≠ .newline := by
    have kinds := mark_kind r t rest
    intro newline
    simp [newline, Ne.symm noNewline] at kinds
  have same (s : TerminatorState) (p : Parse.State) :
      ({ r with terminators := s, parser := p } : Reader).named t rest = r.named t rest := rfl
  rw [take, take, if_neg noNewline, if_neg noNewline]
  simp only [same]
  rw [TerminatorState.step_settle _ marked, Parse.feed_append, fed]
  rfl

/-- A reserved word before which a pending line end inserts nothing. -/
theorem Keeps.take_eq {word : Keyword} {s : TerminatorState} (keeps : r.Keeps rest)
    (forgets : s.settle (.keyword word) = (r.terminators, [])) :
    { r with terminators := s }.take (.plain (.keyword word) t) rest =
      r.take (.plain (.keyword word) t) rest := by
  have noNewline : (Token.plain (.keyword word) t).kind ≠ .newline := by simp
  have marked : Token.arrowMark ({ r with terminators := s }.named (.plain (.keyword word) t) rest)
      rest = .plain (.keyword word) t := by
    have keeps : Keeps { r with terminators := s } rest := keeps
    rw [keeps.named]
    exact arrowMark_of_ne (by simp)
  have taken := take_settle (r := { r with terminators := s }) (p := r.parser) noNewline
    (by rw [marked, Token.plain_kind, forgets]; rfl)
  rwa [marked, Token.plain_kind, forgets] at taken

/-- Between the statements of a list. A line end may be pending. -/
structure Listing (stack : List Enclosure) (frames : List Frame) (r : Reader) : Prop where
  stack : r.terminators.stack = stack
  awaiting : r.terminators.awaitingBody = false
  noPoint : r.before ≠ some .dot
  last : ∀ kind, r.terminators.last = some kind →
    kind ∈ [TokenKind.leftBrace, .rightBrace, .terminator]
  parser : Parse.Lists frames r.parser

/-- Where a statement starts on its own. -/
structure Fresh (stack : List Enclosure) (frames : List Frame) (r : Reader) : Prop
    extends Within stack false r where
  noPoint : r.before ≠ some .dot
  noOperand : r.terminators.last.any TokenKind.precedesExpression = false
  noArrow : r.terminators.last ≠ some .arrow
  starts : ∀ t, t.kind ≠ .keyword .elseKw →
    Parse.step r.parser t = Parse.statementStart t frames

/-- Behind a statement. Only the brace of a block may be followed by a line end that counts. -/
structure Finished (closed : Bool) (stack : List Enclosure) (frames : List Frame) (node : Node)
    (r : Reader) : Prop extends Within stack false r where
  noPoint : r.before ≠ some .dot
  last : r.terminators.last = some .terminator ∨ r.terminators.last = some .rightBrace
  closes : r.terminators.canTerminate = true → r.terminators.closedBlock = true
  parser : Parse.Done closed node frames r.parser

theorem Behind.fresh (behind : Behind stack false before last ⟨.statement, frames⟩ r)
    (noPoint : before ≠ .dot) (noOperand : last.precedesExpression = false)
    (noArrow : last ≠ .arrow) : Fresh stack frames r where
  toWithin := behind.toWithin
  noPoint := by simpa [behind.before] using noPoint
  noOperand := by simpa [behind.last] using noOperand
  noArrow := by simpa [behind.last] using noArrow
  starts t _ := by rw [behind.parser]; rfl

/-- Behind the brace of a block. -/
theorem Behind.finished {node : Node} (closed : Bool)
    (behind : Behind stack false .rightBrace .rightBrace ⟨.finished node false, frames⟩ r)
    (closedBlock : r.terminators.closedBlock = true) : Finished closed stack frames node r where
  toWithin := behind.toWithin
  noPoint := by simp [behind.before]
  last := .inr behind.last
  closes _ := closedBlock
  parser := behind.parser ▸ Parse.done_finished _ _ _

/-- Behind the semicolon of a statement. -/
theorem Behind.finished_semicolon {node : Node} (closed : Bool)
    (behind : Behind stack false .semicolon .terminator ⟨.finished node false, frames⟩ r)
    (settled : r.terminators.canTerminate = false) : Finished closed stack frames node r where
  toWithin := behind.toWithin
  noPoint := by simp [behind.before]
  last := .inl behind.last
  closes canTerminate := by simp [settled] at canTerminate
  parser := behind.parser ▸ Parse.done_finished _ _ _

theorem Finished.listing {closed : Bool} {node : Node} {outer : List Frame}
    (finished : Finished closed stack frames node r)
    (settle : Frame.settle node false frames = some outer)
    (silent : ∀ node, Frame.settle node true outer = some outer) : Listing stack outer r where
  stack := finished.stack
  awaiting := finished.awaiting
  noPoint := finished.noPoint
  last kind isLast := by
    rcases finished.last with last | last <;> rw [last] at isLast <;> cases isLast <;> decide
  parser := finished.parser.lists settle silent

/-- A statement in a frame, and the statement that the frame makes of it. -/
theorem Finished.outer {closed : Bool} {frame : Frame} {node outer : Node}
    (finished : Finished closed stack (frame :: frames) node r)
    (settle : Frame.settle node false (frame :: frames) = Frame.settle outer false frames)
    (attach : closed = true →
      Frame.attachElse node (frame :: frames) = Frame.attachElse outer frames) :
    Finished closed stack frames outer r :=
  ⟨finished.toWithin, finished.noPoint, finished.last, finished.closes,
    finished.parser.outer settle attach⟩

theorem Listing.within (listing : Listing stack frames r) (calm : r.terminators.pending = none) :
    Within stack false r := by
  refine ⟨⟨listing.stack, listing.awaiting, calm⟩, ?_⟩
  cases isLast : r.terminators.last with
  | none => simp [TerminatorState.parenEnclosure, isLast]
  | some kind =>
    have facts : ∀ kind ∈ [TokenKind.leftBrace, .rightBrace, .terminator],
        kind.opensHeader = false ∧ kind.startsFunction = false ∧ kind ≠ .name := by decide
    simp [TerminatorState.parenEnclosure, isLast, facts kind (listing.last kind isLast)]

theorem Listing.fresh (listing : Listing stack frames r) (calm : r.terminators.pending = none) :
    Fresh stack frames r := by
  have facts : ∀ kind ∈ [TokenKind.leftBrace, .rightBrace, .terminator],
      kind.precedesExpression = false ∧ kind ≠ .arrow := by decide
  refine ⟨listing.within calm, listing.noPoint, ?_, ?_, listing.parser.starts⟩
  · cases isLast : r.terminators.last with
    | none => rfl
    | some kind => exact (facts kind (listing.last kind isLast)).1
  · intro isLast
    exact (facts .arrow (listing.last .arrow isLast)).2 rfl

/-- What the next token does, it does as if no line end were pending. -/
theorem Listing.settled (listing : Listing stack frames r) {t : Token}
    (noNewline : t.kind ≠ .newline)
    (rest : List Token) : ∃ r', Listing stack frames r' ∧ r'.terminators.pending = none ∧
      r.take t rest = r'.take t rest := by
  rcases r.terminators.settle_cases (Token.arrowMark (r.named t rest) rest).kind with
    same | ⟨loc, same⟩
  · have taken := take_settle (p := r.parser) noNewline (by rw [same]; rfl)
    rw [same] at taken
    exact ⟨{ r with terminators := { r.terminators with pending := none } },
      ⟨listing.stack, listing.awaiting, listing.noPoint, listing.last, listing.parser⟩, rfl, taken⟩
  · obtain ⟨p, stepped, lists⟩ := listing.parser.inserted loc
    have fed : Parse.feed r.parser [TerminatorState.inserted loc] = some p := by
      simp [Parse.feed, stepped]
    have taken := take_settle (p := p) noNewline (by rw [same]; exact fed)
    simp only [same] at taken
    refine ⟨_, ⟨?_, ?_, ?_, ?_, ?_⟩, ?_, taken⟩
    · exact listing.stack
    · exact listing.awaiting
    · exact listing.noPoint
    · rintro kind ⟨⟩
      decide
    · exact lists
    · rfl

/-- A list goes on behind a line end. -/
theorem Listing.newline (listing : Listing stack frames r) (loc : Location) :
    Listing stack frames
      { r with onNewLine := true, terminators := r.terminators.newline loc } := by
  unfold TerminatorState.newline
  split
  · exact ⟨listing.stack, listing.awaiting, listing.noPoint, listing.last, listing.parser⟩
  · exact ⟨listing.stack, listing.awaiting, listing.noPoint, listing.last, listing.parser⟩

theorem Leads.newline (next : Leads { r with
      onNewLine := true, terminators := r.terminators.newline .synthetic } ts rest Q) :
    Leads r (.plain .newline t :: ts) rest Q :=
  .cons rfl next

/-- A token in a list of statements starts one, whether or not a line end is pending. -/
theorem Listing.leads {kind : TokenKind} (listing : Listing stack frames r)
    (noNewline : kind ≠ .newline)
    (next : ∀ r, Fresh stack frames r → Leads r (.plain kind t :: ts) rest Q) :
    Leads r (.plain kind t :: ts) rest Q := by
  have noNewline : (Token.plain kind t).kind ≠ .newline := noNewline
  obtain ⟨r', listing, calm, same⟩ := listing.settled noNewline (ts ++ rest)
  obtain ⟨r'', holds, read⟩ := next r' (listing.fresh calm)
  refine ⟨r'', holds, ?_⟩
  rw [← read, List.cons_append, read?, read?, same]

/-- The brace behind the statements of a block. -/
theorem Leads.blockEnd {loc : Location} {done : List Node}
    (listing : Listing (.block :: stack) (.block loc done :: frames) r)
    (next : ∀ r, Behind stack false .rightBrace .rightBrace
      (Parse.endBlock (.block loc done.reverse) frames) r →
        r.terminators.closedBlock = true → Leads r ts rest Q) :
    Leads r (.plain .rightBrace t :: ts) rest Q := by
  have noNewline : (Token.plain .rightBrace t).kind ≠ .newline := by simp
  have ends (s : Parse.State) (lists : Parse.Lists (.block loc done :: frames) s) :
      Parse.step s (.plain .rightBrace t) =
        some (Parse.endBlock (.block loc done.reverse) frames) := by
    rw [lists.starts _ (by simp)]
    rfl
  obtain ⟨r₁, listing, calm, same⟩ := listing.settled noNewline (ts ++ rest)
  -- A second terminator is inserted for the brace, unless the line end has inserted one.
  obtain ⟨r₂, listing, calm, settled, later⟩ : ∃ r₂, Listing (.block :: stack)
      (.block loc done :: frames) r₂ ∧ r₂.terminators.pending = none ∧
      r₂.terminators.canTerminate = false ∧
      r₁.take (.plain .rightBrace t) (ts ++ rest) =
        r₂.take (.plain .rightBrace t) (ts ++ rest) := by
    cases terminates : r₁.terminators.canTerminate with
    | false => exact ⟨r₁, listing, calm, terminates, rfl⟩
    | true =>
      obtain ⟨p, stepped, lists⟩ := listing.parser.inserted .synthetic
      refine ⟨{ r₁ with terminators := r₁.terminators.terminated, parser := p },
        ⟨listing.stack, listing.awaiting, listing.noPoint, ?_, lists⟩, calm, rfl, ?_⟩
      · rintro kind ⟨⟩
        decide
      · have named (r : Reader) :
            r.named (.plain .rightBrace t) (ts ++ rest) = .plain .rightBrace t :=
          named_of_isKeyword_eq_false rfl
        have mark : Token.arrowMark (.plain .rightBrace t) (ts ++ rest) = .plain .rightBrace t :=
          arrowMark_of_ne (by decide)
        have inBlock : r₁.terminators.stack.head? = some .block := by rw [listing.stack]; rfl
        have brace : (Token.plain .rightBrace t).kind = .rightBrace := rfl
        rw [take, take, if_neg noNewline, if_neg noNewline]
        simp only [named, mark]
        rw [TerminatorState.step_terminated brace calm terminates inBlock]
        simp only [Parse.feed, List.foldlM_cons, Token.plain_loc, stepped, bind, Option.bind_some]
  obtain ⟨r₃, holds, read⟩ := Leads.closingBlock (listing.within calm).toCalm settled
    (ends _ listing.parser) next
  refine ⟨r₃, holds, ?_⟩
  rw [← read, List.cons_append, read?, read?, same, later]

theorem Leads.elseWord {loc : Location} {test node : Node}
    (finished : Finished true stack (.thenBranch loc test :: frames) node r)
    (quiet : Quiet (ts ++ rest))
    (next : ∀ r, Fresh stack (.elseBranch loc test node :: frames) r → Leads r ts rest Q) :
    Leads r (.plain (.keyword .elseKw) t :: ts) rest Q := by
  have step : Parse.step r.parser (.plain (.keyword .elseKw) t) =
      some ⟨.statement, .elseBranch loc test node :: frames⟩ := by
    rw [finished.parser.next _ fun _ => rfl]
    rfl
  exact .keyword finished.toWithin rfl (keeps_of_quiet finished.noPoint quiet) step
    fun r₁ behind => next r₁ (behind.fresh (by decide) rfl (by decide))

/-- A line end before `else` inserts nothing, because only a block can stand before it. -/
theorem Leads.newlineElse {u : Text} {loc : Location} {test node : Node}
    (finished : Finished true stack (.thenBranch loc test :: frames) node r)
    (quiet : Quiet (ts ++ rest))
    (next : ∀ r, Fresh stack (.elseBranch loc test node :: frames) r → Leads r ts rest Q) :
    Leads r (.plain .newline u :: .plain (.keyword .elseKw) t :: ts) rest Q := by
  have below : Finished true stack (.thenBranch loc test :: frames) node
      { r with onNewLine := true } :=
    ⟨⟨⟨finished.stack, finished.awaiting, finished.pending⟩, finished.paren⟩, finished.noPoint,
      finished.last, finished.closes, finished.parser⟩
  refine .newline ?_
  unfold TerminatorState.newline
  split
  case isFalse => exact .elseWord below quiet next
  case isTrue counts =>
    have closedBlock : r.terminators.closedBlock = true := finished.closes (by grind)
    have forgets : { r.terminators with pending := some .synthetic }.settle (.keyword .elseKw) =
        (r.terminators, []) := by
      have calm := finished.pending
      cases same : r.terminators
      simp_all [TerminatorState.settle, TerminatorState.continues]
    have taken := (keeps_of_quiet below.noPoint quiet).take_eq (t := t) forgets
    obtain ⟨r₁, holds, read⟩ := Leads.elseWord (t := t) below quiet next
    refine ⟨r₁, holds, ?_⟩
    rw [← read, List.cons_append, read?, read?]
    exact congrArg (Option.bind · fun r => r.read? (ts ++ rest)) taken

/-- The end of a program, behind its statements. -/
theorem Listing.read?_nil {done : List Node} (listing : Listing [] [.program done] r) :
    r.read? [] = some (.program .first done.reverse) := by
  have finish : r.terminators.finish = [] ∨
      ∃ loc, r.terminators.finish = [TerminatorState.inserted loc] := by
    unfold TerminatorState.finish
    split
    · split
      · exact .inr ⟨_, rfl⟩
      · exact .inl rfl
    · exact .inl rfl
  rw [read?, Parse.read?]
  rcases finish with same | ⟨loc, same⟩
  · rw [same]
    exact listing.parser.ends
  · obtain ⟨p, stepped, lists⟩ := listing.parser.inserted loc
    have fed : Parse.feed r.parser [TerminatorState.inserted loc] = some p := by
      simp [Parse.feed, stepped]
    rw [same, fed, Option.bind_some, lists.ends]
    rfl

end Reader

end TypeGloss
