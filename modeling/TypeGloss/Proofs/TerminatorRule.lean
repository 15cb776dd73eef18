import TypeGloss.Proofs.Lawful

/-!
# The rule for terminators

Where terminators are inserted, said without the state that inserts them. What a bracket encloses,
and whether a statement can end, is read off the kinds emitted so far, the latest first. Between two
tokens a terminator is inserted if the first can end a statement and either a line ends between them
where line ends count and the second does not continue the statement, or the second closes a block.
At the end one is inserted if the last token can end a statement.

The state that inserts terminators is a function of these kinds, and each token keeps it so.
-/

namespace TypeGloss

open TerminatorState (closes inserted)

namespace Emitted

/-- What an opening parenthesis encloses behind kinds: the header of a statement behind its word,
the parameters of a function behind `function` and the name it may have. -/
def parenEnclosure : List TokenKind → Enclosure
  | [] => .paren
  | last :: before =>
    if last.opensHeader then .header
    else if last.startsFunction || (last = .name && before.head?.any TokenKind.startsFunction) then
      .signature
    else .paren

/-- The brackets that are open behind kinds, the innermost first. Every closing bracket closes the
innermost one. -/
def enclosures : List TokenKind → List Enclosure
  | [] => []
  | .leftParen :: before | .arrowParen :: before => parenEnclosure before :: enclosures before
  | .leftBracket :: before => .bracket :: enclosures before
  | .leftBrace :: before => .block :: enclosures before
  | .objectBrace :: before => .object :: enclosures before
  | .rightParen :: before | .rightBracket :: before | .rightBrace :: before =>
    (enclosures before).tail
  | _ :: before => enclosures before

/-- What the latest kind closed. -/
def lastClosed? : List TokenKind → Option Enclosure
  | [] => none
  | last :: before => if closes last then (enclosures before).head? else none

/-- Whether the parameters of a function have ended and its body has not started. -/
def awaitsBody : List TokenKind → Bool
  | [] => false
  | last :: before =>
    lastClosed? (last :: before) == some .signature || (last ≠ .leftBrace && awaitsBody before)

/-- Whether the latest kind can end a statement: it is of the kinds that do, and it closes neither
a header nor the parameters of a function. -/
def canEnd : List TokenKind → Bool
  | [] => false
  | last :: before =>
    last.endsStatement && lastClosed? (last :: before) != some .header &&
      lastClosed? (last :: before) != some .signature

/-- Whether a brace behind kinds opens an object or a type. -/
def opensObject (kinds : List TokenKind) : Bool :=
  kinds.head?.any
    (if awaitsBody kinds then TokenKind.precedesTypeBrace else TokenKind.precedesExpression)

/-- Whether `function` behind kinds starts an expression. -/
def opensFunction (kinds : List TokenKind) : Bool :=
  kinds.head?.any fun last => last.precedesExpression || last = .arrow

/-- The kind under which a token is emitted behind kinds. -/
def kindOf (kinds : List TokenKind) (kind : TokenKind) : TokenKind :=
  if kind = .semicolon then .terminator
  else if kind = .leftBrace ∧ opensObject kinds then .objectBrace
  else if kind = .keyword .functionKw ∧ opensFunction kinds then .functionExpr
  else kind

/-- Whether line ends count behind kinds: outside all brackets, or directly in a block. -/
def InStatementList (kinds : List TokenKind) : Prop :=
  enclosures kinds = [] ∨ (enclosures kinds).head? = some .block

instance (kinds : List TokenKind) : Decidable (InStatementList kinds) :=
  inferInstanceAs (Decidable (_ ∨ _))

/-- Whether line feeds end a statement before the next kind. -/
def LineEnds (kinds : List TokenKind) (feeds : List Token) (next : TokenKind) : Prop :=
  feeds ≠ [] ∧ InStatementList kinds ∧ next.continuesStatement = false ∧
    ¬ (next = .keyword .elseKw ∧ lastClosed? kinds = some .block)

instance (kinds : List TokenKind) (feeds : List Token) (next : TokenKind) :
    Decidable (LineEnds kinds feeds next) := inferInstanceAs (Decidable (_ ∧ _ ∧ _ ∧ _))

/-- Whether the next kind closes a block. -/
def BlockEnds (kinds : List TokenKind) (next : TokenKind) : Prop :=
  next = .rightBrace ∧ (enclosures kinds).head? = some .block

instance (kinds : List TokenKind) (next : TokenKind) : Decidable (BlockEnds kinds next) :=
  inferInstanceAs (Decidable (_ ∧ _))

/-- Whether a statement ends between the latest kind and the next, with line feeds between. -/
def StatementEnds (kinds : List TokenKind) (feeds : List Token) (next : TokenKind) : Prop :=
  canEnd kinds = true ∧ (LineEnds kinds feeds next ∨ BlockEnds kinds next)

instance (kinds : List TokenKind) (feeds : List Token) (next : TokenKind) :
    Decidable (StatementEnds kinds feeds next) := inferInstanceAs (Decidable (_ ∧ _))

/-- The place of the first line feed, or another place if there is none. -/
def firstFeed (feeds : List Token) (other : Location) : Location :=
  (feeds.head?.map Token.loc).getD other

end Emitted

/-- A token and the line feeds behind it. -/
structure Spaced where
  /-- A token that is no line feed. -/
  token : Token
  /-- The line feeds between the token and the next one. -/
  feeds : List Token
  deriving DecidableEq, Repr

/-- The tokens as they came. -/
def Spaced.tokens (spaced : Spaced) : List Token := spaced.token :: spaced.feeds

/-- Whether a token is a line feed. -/
def Token.isFeed (t : Token) : Bool := t.kind = .newline

/-- The tokens other than line feeds, each with the line feeds behind it. -/
def Token.spaced : List Token → List Spaced
  | [] => []
  | t :: rest => if t.isFeed then spaced rest else ⟨t, rest.takeWhile isFeed⟩ :: spaced rest

/-- What is emitted for a token: the token itself with its kind, and the terminators inserted behind
it. -/
structure Emission where
  /-- The token it is emitted for. -/
  source : Spaced
  /-- The token with the kind under which it is emitted. -/
  token : Token
  /-- The terminators behind it. -/
  terminators : List Token
  deriving DecidableEq, Repr

namespace Emission

/-- The emitted tokens. -/
def output (emission : Emission) : List Token := emission.token :: emission.terminators

/-- The kinds emitted behind others, the latest first. -/
def kindsBehind (kinds : List TokenKind) (emitted : List Token) : List TokenKind :=
  (emitted.map Token.kind).reverse ++ kinds

theorem kindsBehind_cons (kinds : List TokenKind) (first : Token) (rest : List Token) :
    kindsBehind kinds (first :: rest) = kindsBehind (first.kind :: kinds) rest := by
  simp [kindsBehind]

theorem kindsBehind_append (kinds : List TokenKind) (emitted more : List Token) :
    kindsBehind kinds (emitted ++ more) = kindsBehind (kindsBehind kinds emitted) more := by
  simp [kindsBehind]

end Emission

namespace Emitted

/-- The terminators behind a token, by the rule, given the kinds up to the token, the token itself
with its line feeds, and the next token. -/
def terminators (kinds : List TokenKind) (last : Spaced) : Option Token → List Token
  | some next =>
    if StatementEnds kinds last.feeds next.kind then [inserted (firstFeed last.feeds next.loc)]
    else []
  | none =>
    if canEnd kinds then
      [inserted (if InStatementList kinds then firstFeed last.feeds last.token.loc
        else last.token.loc)]
    else []

/-- What the rule emits for tokens behind kinds. -/
def emissions (kinds : List TokenKind) : List Spaced → List Emission
  | [] => []
  | first :: rest =>
    let kind := kindOf kinds first.token.kind
    let emission : Emission :=
      ⟨first, first.token.retype kind,
        terminators (kind :: kinds) first (rest.head?.map Spaced.token)⟩
    emission :: emissions (Emission.kindsBehind kinds emission.output) rest

@[simp] theorem map_source_emissions (kinds : List TokenKind) (cells : List Spaced) :
    (emissions kinds cells).map Emission.source = cells := by
  induction cells generalizing kinds with
  | nil => rfl
  | cons first rest ih => rw [emissions, List.map_cons, ih]

/-- What is emitted for a token depends on the kinds emitted before and on the next token alone. -/
theorem emission_eq {kinds : List TokenKind} {cells : List Spaced} {before after : List Emission}
    {emission : Emission} (split : emissions kinds cells = before ++ emission :: after) :
    let earlier := Emission.kindsBehind kinds (before.flatMap Emission.output)
    emission.token =
        emission.source.token.retype (kindOf earlier emission.source.token.kind) ∧
      emission.terminators = terminators (emission.token.kind :: earlier) emission.source
        (after.head?.map fun next => next.source.token) := by
  induction cells generalizing kinds before with
  | nil => simp [emissions] at split
  | cons first rest ih =>
    rw [emissions] at split
    cases before with
    | nil =>
      obtain ⟨rfl, same⟩ := List.cons.inj split
      have next : rest.head?.map Spaced.token =
          after.head?.map fun next => next.source.token := by
        rw [← map_source_emissions _ rest, same, List.head?_map, Option.map_map]
        rfl
      exact ⟨rfl, by rw [← next]; rfl⟩
    | cons head before =>
      obtain ⟨rfl, same⟩ := List.cons.inj split
      rw [List.flatMap_cons, Emission.kindsBehind_append]
      exact ih same

end Emitted

namespace Spaced

/-- A token that is no line feed, with nothing but line feeds behind it. -/
structure IsCell (cell : Spaced) : Prop where
  token : cell.token.isFeed = false
  feeds : ∀ t ∈ cell.feeds, t.isFeed = true

end Spaced

namespace Token

theorem isCell_of_mem_spaced (ts : List Token) : ∀ cell ∈ spaced ts, cell.IsCell := by
  induction ts with
  | nil => simp [spaced]
  | cons t rest ih =>
    rw [spaced]
    split
    · exact ih
    · rename_i noFeed
      refine List.forall_mem_cons.mpr ⟨⟨by simpa using noFeed, ?_⟩, ih⟩
      intro u mem
      exact List.mem_takeWhile_imp mem

/-- Nothing is lost when tokens are put together with their line feeds. -/
theorem takeWhile_append_spaced (ts : List Token) :
    ts.takeWhile isFeed ++ (spaced ts).flatMap Spaced.tokens = ts := by
  induction ts with
  | nil => rfl
  | cons t rest ih =>
    rw [spaced, List.takeWhile_cons]
    cases feed : t.isFeed with
    | true => simp [ih]
    | false => simp [Spaced.tokens, ih]

end Token

namespace TerminatorState

open Emitted
open Emission (kindsBehind kindsBehind_cons)

/-- A state that is the one behind emitted kinds, the pending line end and the last place apart. -/
structure Follows (kinds : List TokenKind) (s : TerminatorState) : Prop where
  stack : s.stack = enclosures kinds
  last : s.last = kinds.head?
  beforeLast : s.beforeLast = kinds.tail.head?
  canTerminate : s.canTerminate = canEnd kinds
  closedBlock : s.closedBlock = (lastClosed? kinds == some .block)
  awaitingBody : s.awaitingBody = awaitsBody kinds

/-- The line end that is pending behind kinds and line feeds. -/
def pendingFeed (kinds : List TokenKind) (feeds : List Token) : Option Location :=
  if canEnd kinds ∧ InStatementList kinds then feeds.head?.map Token.loc else none

variable {kinds : List TokenKind} {s : TerminatorState}

theorem follows_start : Follows [] {} := ⟨rfl, rfl, rfl, rfl, rfl, rfl⟩

namespace Follows

theorem withPending (follows : Follows kinds s) (pending : Option Location) :
    Follows kinds { s with pending := pending } :=
  ⟨follows.stack, follows.last, follows.beforeLast, follows.canTerminate, follows.closedBlock,
    follows.awaitingBody⟩

theorem terminated (follows : Follows kinds s) : Follows (.terminator :: kinds) s.terminated where
  stack := follows.stack
  last := rfl
  beforeLast := follows.last
  canTerminate := rfl
  closedBlock := rfl
  awaitingBody := follows.awaitingBody

theorem inStatementList (follows : Follows kinds s) :
    s.inStatementList = true ↔ InStatementList kinds := by
  unfold TerminatorState.inStatementList InStatementList
  rw [← follows.stack]
  cases s.stack <;> simp

theorem parenEnclosure (follows : Follows kinds s) :
    s.parenEnclosure = Emitted.parenEnclosure kinds := by
  unfold TerminatorState.parenEnclosure
  rw [follows.last, follows.beforeLast]
  cases kinds with
  | nil => rfl
  | cons last before =>
    simp only [Emitted.parenEnclosure, List.head?_cons, Option.any_some, List.tail_cons,
      Option.some.injEq, Bool.or_eq_true, Bool.and_eq_true, decide_eq_true_eq]
    split_ifs <;> simp_all

theorem stackAfter (follows : Follows kinds s) (kind : TokenKind) :
    s.stackAfter kind = enclosures (kind :: kinds) := by
  unfold TerminatorState.stackAfter
  cases kind <;> simp [opened?, enclosures, closes, follows.stack, follows.parenEnclosure]

/-- The state gives a token the kind that the emitted kinds give it. -/
theorem retyped_fst (follows : Follows kinds s) {kind : TokenKind}
    (noSemicolon : kind ≠ .semicolon) : (s.retyped kind).1 = kindOf kinds kind := by
  unfold TerminatorState.retyped kindOf opensObject opensFunction
  rw [follows.last, follows.awaitingBody, if_neg noSemicolon]
  by_cases brace : kind = .leftBrace
  · subst brace
    cases awaitsBody kinds <;> simp <;> split_ifs <;> rfl
  · cases kinds with
    | nil => simp [brace]
    | cons last before =>
      simp only [brace, List.head?_cons, Option.any_some, Option.some.injEq, false_and, if_false,
        Bool.or_eq_true, decide_eq_true_eq]
      split_ifs <;> rfl

/-- Only the brace of a body ends the wait for one. -/
theorem retyped_snd (s : TerminatorState) (kind : TokenKind) :
    (s.retyped kind).2 = (decide ((s.retyped kind).1 ≠ .leftBrace) && s.awaitingBody) := by
  unfold TerminatorState.retyped
  split_ifs with brace awaiting typeBrace expression function <;> simp_all

/-- The state behind a token that is no semicolon. -/
theorem track (follows : Follows kinds s) {t : Token} (noSemicolon : t.kind ≠ .semicolon) :
    Follows (kindOf kinds t.kind :: kinds)
      ({ s with awaitingBody := (s.retyped t.kind).2 }.track
        (t.retype (s.retyped t.kind).1)) := by
  have kind : (t.retype (s.retyped t.kind).1).kind = kindOf kinds t.kind :=
    follows.retyped_fst noSemicolon
  have closed : s.closed? (kindOf kinds t.kind) = lastClosed? (kindOf kinds t.kind :: kinds) := by
    rw [closed?, lastClosed?, follows.stack]
  constructor
  · exact kind ▸ follows.stackAfter _
  · exact congrArg some kind
  · exact follows.last
  · change (_ && s.closed? _ != _ && s.closed? _ != _) = _
    rw [kind, closed]
    rfl
  · change (s.closed? _ == _) = _
    rw [kind, closed]
  · change ((s.retyped t.kind).2 || s.closed? _ == _) = _
    rw [kind, closed, retyped_snd, follows.retyped_fst noSemicolon, follows.awaitingBody,
      Bool.or_comm]
    rfl

/-- Line feeds leave the first of them pending, where line ends count. -/
theorem run_feeds (follows : Follows kinds s) {feeds : List Token}
    (each : ∀ t ∈ feeds, t.isFeed = true) (rest : List Token) :
    s.run (feeds ++ rest) =
      { s with pending := s.pending.or (pendingFeed kinds feeds) }.run rest := by
  induction feeds generalizing s with
  | nil => simp [pendingFeed]
  | cons t feeds ih =>
    obtain ⟨feed, others⟩ := List.forall_mem_cons.mp each
    have counts : (s.canTerminate = true ∧ s.inStatementList = true) ↔
        canEnd kinds = true ∧ InStatementList kinds := by
      rw [follows.canTerminate, follows.inStatementList]
    rw [List.cons_append, run_cons, step_newline s (by simpa [Token.isFeed] using feed),
      List.nil_append, newline]
    split
    · rename_i starts
      simp only [Bool.and_eq_true, Option.isNone_iff_eq_none] at starts
      rw [ih (follows.withPending _) others]
      simp [pendingFeed, counts.mp ⟨starts.1.2, starts.2⟩, starts.1.1]
    · rename_i stays
      simp only [Bool.and_eq_true, Option.isNone_iff_eq_none] at stays
      rw [ih follows others]
      cases pending : s.pending with
      | some loc => rfl
      | none =>
        have noCount : ¬ (canEnd kinds = true ∧ InStatementList kinds) :=
          fun both => stays ⟨⟨pending, (counts.mpr both).1⟩, (counts.mpr both).2⟩
        simp [pendingFeed, noCount]

theorem continues_iff (follows : Follows kinds s) (next : TokenKind) :
    s.continues next = false ↔ next.continuesStatement = false ∧
      ¬ (next = .keyword .elseKw ∧ lastClosed? kinds = some .block) := by
  simp [continues, follows.closedBlock]

/-- A line end that is pending is settled by the rule for line ends. -/
theorem settle (follows : Follows kinds s) {feeds : List Token}
    (pending : s.pending = pendingFeed kinds feeds) (next : TokenKind) (other : Location) :
    (canEnd kinds = true ∧ LineEnds kinds feeds next ∧
      s.settle next =
        ({ s with pending := none }.terminated, [inserted (firstFeed feeds other)])) ∨
    (¬ (canEnd kinds = true ∧ LineEnds kinds feeds next) ∧
      s.settle next = ({ s with pending := none }, [])) := by
  have calm (noFeed : s.pending = none) : s.settle next = ({ s with pending := none }, []) := by
    have same : { s with pending := none } = s := by rw [← noFeed]
    rw [same, TerminatorState.settle, noFeed]
  by_cases counts : canEnd kinds = true ∧ InStatementList kinds
  · cases feeds with
    | nil => exact .inr ⟨fun both => both.2.1 rfl, calm (by rw [pending, pendingFeed]; simp)⟩
    | cons feed feeds =>
      have waits : s.pending = some feed.loc := by rw [pending, pendingFeed, if_pos counts]; rfl
      have decided := (follows.withPending none).continues_iff next
      rw [TerminatorState.settle, waits]
      cases goesOn : { s with pending := none }.continues next with
      | false =>
        have lineEnds : LineEnds kinds (feed :: feeds) next :=
          ⟨by simp, counts.2, decided.mp goesOn⟩
        exact .inl ⟨counts.1, lineEnds, by simp [goesOn, firstFeed]⟩
      | true =>
        refine .inr ⟨fun both => ?_, by simp [goesOn]⟩
        have ends := decided.mpr both.2.2.2
        rw [goesOn] at ends
        cases ends
  · exact .inr ⟨fun both => counts ⟨both.1, both.2.2.1⟩,
      calm (by rw [pending, pendingFeed, if_neg counts])⟩

/-- What the state inserts before a token is what the rule inserts there. -/
theorem insertedBefore (follows : Follows kinds s) {last : Spaced}
    (pending : s.pending = pendingFeed kinds last.feeds) (t : Token) :
    s.insertedBefore t = terminators kinds last (some t) ∧
      (s.beforeToken t).pending = none ∧
      Follows (kindsBehind kinds (terminators kinds last (some t))) (s.beforeToken t) := by
  unfold TerminatorState.insertedBefore TerminatorState.beforeToken
  rcases follows.settle pending t.kind t.loc with ⟨ends, lineEnds, settled⟩ | ⟨goesOn, settled⟩
  · have one : terminators kinds last (some t) = [inserted (firstFeed last.feeds t.loc)] :=
      if_pos ⟨ends, .inl lineEnds⟩
    -- A statement that has ended does not end again before a brace.
    have closed (s : TerminatorState) : s.terminated.closeStatement t = (s.terminated, []) :=
      if_neg fun closes => Bool.noConfusion closes.2.1
    rw [settled, one, closed]
    exact ⟨rfl, rfl, (follows.withPending none).terminated⟩
  · have calm := follows.withPending none
    rw [settled, closeStatement, List.nil_append]
    by_cases closes : t.kind = .rightBrace ∧ s.canTerminate = true ∧ s.stack.head? = some .block
    · have blockEnds : BlockEnds kinds t.kind := ⟨closes.1, follows.stack ▸ closes.2.2⟩
      have ends : canEnd kinds = true := follows.canTerminate ▸ closes.2.1
      have noFeeds : last.feeds = [] := by
        by_contra feeds
        refine goesOn ⟨ends, feeds, .inr blockEnds.2, ?_⟩
        simp [closes.1, TokenKind.continuesStatement]
      have one : terminators kinds last (some t) = [inserted t.loc] := by
        rw [terminators, if_pos ⟨ends, .inr blockEnds⟩, noFeeds]
        rfl
      rw [if_pos closes, one]
      exact ⟨rfl, rfl, calm.terminated⟩
    · have none : terminators kinds last (some t) = [] := by
        refine if_neg ?_
        rintro ⟨ends, lineEnds | blockEnds⟩
        · exact goesOn ⟨ends, lineEnds⟩
        · exact closes ⟨blockEnds.1, follows.canTerminate ▸ ends, follows.stack ▸ blockEnds.2⟩
      rw [if_neg closes, none]
      exact ⟨rfl, rfl, calm⟩

/-- One token that is no line feed: what is emitted for it and before it, and the state behind. -/
theorem step (follows : Follows kinds s) {last : Spaced}
    (pending : s.pending = pendingFeed kinds last.feeds) {t : Token} (noFeed : t.isFeed = false) :
    let before := terminators kinds last (some t)
    let kind := kindOf (kindsBehind kinds before) t.kind
    (s.step t).2 = before ++ [t.retype kind] ∧
      Follows (kind :: kindsBehind kinds before) (s.step t).1 ∧ (s.step t).1.pending = none ∧
      (canEnd (kind :: kindsBehind kinds before) = true → (s.step t).1.lastLoc = some t.loc) := by
  intro before kind
  have noNewline : t.kind ≠ .newline := by simpa [Token.isFeed] using noFeed
  obtain ⟨emitted, calm, behind⟩ := follows.insertedBefore pending t
  by_cases semicolon : t.kind = .semicolon
  · have isTerminator : kind = .terminator := if_pos semicolon
    have noBrace (s : TerminatorState) : s.closeStatement t = (s, []) :=
      if_neg fun closes => by simp [semicolon] at closes
    have stepped : s.step t = ((s.beforeToken t).terminated,
        s.insertedBefore t ++ [t.retype .terminator]) := by
      rw [step_semicolon s semicolon, TerminatorState.beforeToken,
        TerminatorState.insertedBefore, semicolon, noBrace, List.append_nil]
    rw [stepped, emitted, isTerminator]
    exact ⟨rfl, behind.terminated, calm, fun ends => by cases ends⟩
  · have same := behind.retyped_fst semicolon
    rw [step_other s noNewline semicolon, emitted, same]
    exact ⟨rfl, behind.track semicolon, calm, fun _ => rfl⟩

/-- The end of the text: what the state adds is what the rule adds. -/
theorem finish (follows : Follows kinds s) {last : Spaced}
    (pending : s.pending = pendingFeed kinds last.feeds)
    (place : canEnd kinds = true → s.lastLoc = some last.token.loc) :
    s.finish = terminators kinds last none := by
  rw [TerminatorState.finish, terminators, follows.canTerminate]
  split
  · rename_i ends
    rw [pending, place ends, pendingFeed]
    by_cases counts : InStatementList kinds
    · cases feeds : last.feeds with
      | nil => simp [counts, firstFeed]
      | cons feed more => simp [ends, counts, firstFeed]
    · simp [counts]
  · rfl

/-- From a state on, the rule decides what is emitted for all tokens that come. -/
theorem run (follows : Follows kinds s) (last : Spaced) {rest : List Spaced}
    (cells : ∀ cell ∈ rest, cell.IsCell) (pending : s.pending = pendingFeed kinds last.feeds)
    (place : canEnd kinds = true → s.lastLoc = some last.token.loc) :
    let ending := terminators kinds last (rest.head?.map Spaced.token)
    s.run (rest.flatMap Spaced.tokens) =
      ending ++ (emissions (kindsBehind kinds ending) rest).flatMap Emission.output := by
  induction rest generalizing kinds s last with
  | nil =>
    change s.finish = _ ++ []
    rw [List.append_nil]
    exact follows.finish pending place
  | cons cell rest ih =>
    intro ending
    obtain ⟨isCell, others⟩ := List.forall_mem_cons.mp cells
    obtain ⟨emitted, behind, calm, placed⟩ := follows.step pending isCell.token
    have feeds := behind.run_feeds isCell.feeds (rest.flatMap Spaced.tokens)
    rw [calm, Option.none_or] at feeds
    have others := ih (behind.withPending (pendingFeed _ cell.feeds)) cell others rfl placed
    rw [List.flatMap_cons, Spaced.tokens, List.cons_append, run_cons, emitted, feeds, others,
      emissions, List.flatMap_cons, Emission.output, kindsBehind_cons]
    simp only [List.append_assoc, List.cons_append]
    rfl

end Follows

end TerminatorState

namespace Token

open Emitted
open Emission (kindsBehind)

/-- Inserting terminators emits what the rule emits. -/
theorem insertTerminators_eq (ts : List Token) :
    insertTerminators ts = (emissions [] (spaced ts)).flatMap Emission.output := by
  have feeds := TerminatorState.follows_start.run_feeds
    (fun t (mem : t ∈ ts.takeWhile isFeed) => List.mem_takeWhile_imp mem)
    ((spaced ts).flatMap Spaced.tokens)
  rw [takeWhile_append_spaced] at feeds
  have noStart (next : Option Token) : terminators [] ⟨inserted .first, []⟩ next = [] := by
    cases next <;> simp [terminators, StatementEnds, canEnd]
  have ruled := TerminatorState.follows_start.run ⟨inserted .first, []⟩ (isCell_of_mem_spaced ts)
    rfl nofun
  rw [noStart] at ruled
  rw [insertTerminators, feeds]
  exact ruled

/-- Terminators stand exactly where the rule says. Every token that is no line feed is emitted once,
under the kind that the kinds emitted before it give it. Between it and the next token one
terminator is inserted if a statement ends there, and none otherwise; behind the last token one is
inserted if that token can end a statement. A terminator stands at the first line feed in front of
it, or else at the token that closes the block or at the last token. -/
theorem insertTerminators_rule (ts : List Token) :
    ∃ emissions : List Emission,
      emissions.map Emission.source = spaced ts ∧
      insertTerminators ts = emissions.flatMap Emission.output ∧
      ∀ before emission after, emissions = before ++ emission :: after →
        let earlier := kindsBehind [] (before.flatMap Emission.output)
        let kinds := emission.token.kind :: earlier
        let source := emission.source
        emission.token = source.token.retype (kindOf earlier source.token.kind) ∧
        (∀ next rest, after = next :: rest → emission.terminators =
          if StatementEnds kinds source.feeds next.source.token.kind then
            [inserted (firstFeed source.feeds next.source.token.loc)]
          else []) ∧
        (after = [] → emission.terminators =
          if canEnd kinds then
            [inserted (if InStatementList kinds then firstFeed source.feeds source.token.loc
              else source.token.loc)]
          else []) := by
  refine ⟨emissions [] (spaced ts), map_source_emissions _ _, insertTerminators_eq ts, ?_⟩
  intro before emission after split earlier kinds source
  obtain ⟨token, ending⟩ := emission_eq split
  refine ⟨token, ?_, ?_⟩
  · rintro next rest rfl
    exact ending
  · rintro rfl
    exact ending

end Token

end TypeGloss
