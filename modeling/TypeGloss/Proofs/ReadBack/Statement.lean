import TypeGloss.Proofs.ReadBack.Terminator

/-!
# Statements are read back

Where a statement starts, the tokens of a statement lead to a state that waits for what follows the
statement. A state inside a branch or a loop waits for it on behalf of everything that ends there.
Lists of statements are read one statement after the other, on one line or on many.
-/

namespace TypeGloss

open Lexeme (IsName)
open Grammar (NameSlot ResultSlot FitsInterface)
open Token (Quiet)

namespace Pieces

/-- Pieces that start with a token that continues nothing. -/
def Starts (ps : List Piece) : Prop :=
  ∃ kind t ts, tokens ps = .plain kind t :: ts ∧ Token.isQuiet kind = true

theorem Starts.quiet {ps : List Piece} (starts : Starts ps) (rest : List Token) :
    Quiet (tokens ps ++ rest) := by
  obtain ⟨kind, t, ts, same, quiet⟩ := starts
  rw [same]
  exact Token.quiet_cons quiet _ _

theorem Opens.starts {ps : List Piece} (opens : Opens ps) (qs : List Piece) :
    Starts (ps ++ qs) := by
  obtain ⟨kind, t, ts, same, quiet⟩ := (opens.append qs).head []
  exact ⟨kind, t, ts, by simpa using same, quiet⟩

theorem tokens_body (layout : Layout) (afterWord : Bool) (statement : Node) (ps : List Piece) :
    tokens (body layout afterWord statement ps) = tokens (sealed statement ps) := by
  unfold body
  split
  case isTrue block => cases statement <;> simp_all [sealed, Print.isBlock]
  case isFalse => simp

theorem tokens_headerPart (layout : Layout) (part : Node) (ps : List Piece) :
    tokens (headerPart layout part ps) = tokens ps := by
  unfold headerPart
  split <;> simp

end Pieces

namespace Parse

/-- Frames in which a statement may stand. -/
structure Hosts (frames : List Frame) : Prop where
  block : ∀ body, endBlock body frames = ⟨.finished body false, frames⟩
  declaration : ∀ d, endDeclarators d frames = ⟨.finished d false, frames⟩

/-- The frames of a list of statements, by the statements that it has so far. -/
structure Collects (frames : List Node → List Frame) : Prop where
  settle : ∀ node done, Frame.settle node false (frames done) = some (frames (node :: done))
  silent : ∀ node done, Frame.settle node true (frames done) = some (frames done)
  hosts : ∀ done, Hosts (frames done)

theorem collects_program : Collects fun done => [.program done] :=
  ⟨fun _ _ => rfl, fun _ _ => rfl, fun _ => ⟨fun _ => rfl, fun _ => rfl⟩⟩

theorem collects_block (loc : Location) (frames : List Frame) :
    Collects fun done => .block loc done :: frames :=
  ⟨fun _ _ => rfl, fun _ _ => rfl, fun _ => ⟨fun _ => rfl, fun _ => rfl⟩⟩

theorem statementStart_of_opensExpression {t : Token} (opens : opensExpression t.kind = true)
    (frames : List Frame) : statementStart t frames = operandStart t (.expression :: frames) := by
  obtain ⟨kind, text, loc⟩ := t
  unfold statementStart
  split <;> first | rfl | simp_all [opensExpression]

end Parse

namespace Reader

open Parse (Frame Hosts Room)
open Pieces (tokens Starts)

variable {layout : Layout} {depth : Nat} {stack : List Enclosure} {frames : List Frame}
  {r : Reader} {ts rest : List Token} {t : Text} {p : Parse.State} {Q : Reader → Prop}
  {before last : TokenKind} {node : Node} {closed : Bool} {loc : Location}

/-- A statement is read back. -/
structure ReadsStatement (layout : Layout) (closed : Bool) (node : Node) : Prop where
  starts : ∀ depth, Starts (Pieces.sealed node (Pieces.node layout depth node))
  leads : ∀ {depth stack frames r rest}, Fresh stack frames r → Hosts frames →
    Leads r (tokens (Pieces.sealed node (Pieces.node layout depth node))) rest
      (Finished closed stack frames node.unplaced)

/-- Where a declaration starts inside frames. -/
structure Declares (stack : List Enclosure) (frames : List Frame) (r : Reader) : Prop
    extends Within stack false r where
  noPoint : r.before ≠ some .dot
  noOperand : r.terminators.last.any TokenKind.precedesExpression = false
  noArrow : r.terminators.last ≠ some .arrow
  binds : ∀ t, t.kind ∈ declarationKinds → Parse.step r.parser t =
    some ⟨.declaratorName, .declarators t.loc t.text [] :: frames⟩
  function : ∀ t, t.kind = .keyword .functionKw →
    Parse.step r.parser t = some ⟨.functionName t.loc false, frames⟩

/-- A declaration is read back, as a statement or behind `export`. -/
structure ReadsDeclared (layout : Layout) (node : Node) : Prop where
  starts : ∀ depth, Starts (Pieces.sealed node (Pieces.node layout depth node))
  leads : ∀ {depth stack frames r rest} closed, Declares stack frames r → Hosts frames →
    Leads r (tokens (Pieces.sealed node (Pieces.node layout depth node))) rest
      (Finished closed stack frames node.unplaced)

theorem Fresh.due (fresh : Fresh stack frames r) :
    Due stack .noObjectOrFunction (.expression :: frames) r where
  within := fresh.toWithin
  expects t opens := by
    have noElse : t.kind ≠ .keyword .elseKw := by
      intro isElse
      rw [isElse] at opens
      cases opens
    rw [fresh.starts t noElse, Parse.statementStart_of_opensExpression opens]
  noPoint := fresh.noPoint
  object := nofun
  function := nofun

theorem Fresh.declares (fresh : Fresh stack frames r) : Declares stack frames r where
  toWithin := fresh.toWithin
  noPoint := fresh.noPoint
  noOperand := fresh.noOperand
  noArrow := fresh.noArrow
  binds t mem := by
    obtain ⟨kind, text, loc⟩ := t
    simp only [declarationKinds, List.mem_cons, List.not_mem_nil, or_false] at mem
    rcases mem with rfl | rfl | rfl <;> exact fresh.starts _ (by simp)
  function t isFunction := by
    obtain ⟨kind, text, loc⟩ := t
    cases isFunction
    exact fresh.starts _ (by simp)

theorem Fresh.keeps (fresh : Fresh stack frames r) (quiet : Quiet rest) : r.Keeps rest :=
  keeps_of_quiet fresh.noPoint quiet

/-- What a word at the start of a statement does. -/
theorem Fresh.step (fresh : Fresh stack frames r) {word : Keyword} (noElse : word ≠ .elseKw) :
    Parse.step r.parser (.plain (.keyword word) t) =
      Parse.statementStart (.plain (.keyword word) t) frames :=
  fresh.starts _ (by simpa using noElse)

/-- A part behind which only its end follows, and the semicolon. -/
theorem Leads.statementEnd
    (ended : Ended stack [.terminator] (fun _ => some ⟨.finished node false, frames⟩) r)
    (closed : Bool) : Leads r [.plain .semicolon ";"] rest (Finished closed stack frames node) :=
  .semicolon ended.within (ended.ends _ (by simp)) fun _ behind settled =>
    .nil (behind.finished_semicolon closed settled)

theorem reads_expressionStatement {e : Node}
    (inner : ReadsExpression layout 0 .noObjectOrFunction e)
    (plain : Print.startsAmbiguously e = false) :
    ReadsStatement layout closed (.expressionStatement loc e) := by
  have pieces (depth : Nat) : Pieces.sealed (.expressionStatement loc e)
      (Pieces.node layout depth (.expressionStatement loc e)) =
        Pieces.node layout depth e ++ [Pieces.semicolon] := by
    simp [Pieces.sealed, Pieces.node, plain, Pieces.wrapped]
  refine ⟨fun depth => pieces depth ▸ (inner.opens depth).starts _, ?_⟩
  intro depth stack frames r rest fresh hosts
  rw [pieces, Pieces.tokens_append]
  refine (inner.leads fresh.due ⟨by simp, Nat.le_refl _⟩
    (guard_of_quiet (Token.quiet_cons rfl _ _))).append fun r₁ reached => ?_
  refine .statementEnd ⟨reached.within, fun t isEnd => ?_⟩ closed
  obtain ⟨kind, text, place⟩ := t
  obtain rfl := List.mem_singleton.mp isEnd
  exact reached.ready.ends _ rfl (by simp)

/-- A word and its semicolon. -/
theorem reads_word_statement (word : Keyword)
    (pieces : ∀ depth, tokens (Pieces.sealed node (Pieces.node layout depth node)) =
      [.plain (.keyword word) word.spelling, .plain .semicolon ";"])
    (ordinary : isOrdinary (.keyword word) = true ∧ word ≠ .elseKw)
    (step : ∀ frames, ∃ p,
      Parse.statementStart (.plain (.keyword word) word.spelling) frames = some p ∧
        Parse.step p (.plain .terminator ";") = some ⟨.finished node.unplaced false, frames⟩) :
    ReadsStatement layout closed node := by
  refine ⟨fun depth => ⟨_, _, _, pieces depth, rfl⟩, ?_⟩
  intro depth stack frames r rest fresh hosts
  obtain ⟨p, first, second⟩ := step frames
  rw [pieces]
  refine .keyword fresh.toWithin ordinary.1 (fresh.keeps (Token.quiet_cons rfl _ _))
    ((fresh.step ordinary.2).trans first) fun r₁ behind => ?_
  exact .semicolon behind.toWithin (behind.parser ▸ second) fun r₂ behind settled =>
    .nil (behind.finished_semicolon closed settled)

/-- A word, its argument and a semicolon. -/
theorem reads_argument_statement (word : Keyword) (frame : Frame) {argument : Node}
    (inner : ReadsExpression layout 0 .any argument)
    (pieces : ∀ depth, tokens (Pieces.sealed node (Pieces.node layout depth node)) =
      .plain (.keyword word) word.spelling ::
        (tokens (Pieces.node layout depth argument) ++ [.plain .semicolon ";"]))
    (ordinary : isOrdinary (.keyword word) = true ∧ word ≠ .elseKw)
    (precedes : (TokenKind.keyword word).precedesExpression = true)
    (room : ∀ frames, Room 0 (frame :: frames))
    (first : ∀ frames, Parse.statementStart (.plain (.keyword word) word.spelling) frames =
      some ⟨.operand, frame :: frames⟩)
    (second : ∀ frames t, t.kind = .terminator →
      Parse.expressionEnd t ⟨argument.unplaced, .synthetic, .operand⟩ (frame :: frames) =
        some ⟨.finished node.unplaced false, frames⟩) :
    ReadsStatement layout closed node := by
  refine ⟨fun depth => ⟨_, _, _, pieces depth, rfl⟩, ?_⟩
  intro depth stack frames r rest fresh hosts
  rw [pieces]
  refine .keyword fresh.toWithin ordinary.1 (fresh.keeps ?_)
    ((fresh.step ordinary.2).trans (first frames)) fun r₁ behind => ?_
  · rw [List.append_assoc]
    exact (inner.opens depth).quiet _
  refine (inner.leads (behind.due (Parse.expects_operand _) precedes (by simp)) (room frames)
    (guard_of_quiet (Token.quiet_cons rfl _ _))).append fun r₂ reached => ?_
  refine .statementEnd ⟨reached.within, fun t isEnd => ?_⟩ closed
  have isEnd := List.mem_singleton.mp isEnd
  rw [reached.ready.ends t (by rw [isEnd]; rfl) (by simp [isEnd]), second frames t isEnd]

theorem reads_return {argument : Node}
    (inner : argument = .absent ∨
      argument.isAbsent = false ∧ ReadsExpression layout 0 .any argument) :
    ReadsStatement layout closed (.returnStatement loc argument) := by
  rcases inner with rfl | ⟨given, inner⟩
  · exact reads_word_statement .returnKw (fun _ => rfl) (by decide) fun _ => ⟨_, rfl, rfl⟩
  · refine reads_argument_statement .returnKw (.returned .synthetic) inner ?_ (by decide) rfl
      (fun _ => ⟨by simp, Nat.le_refl _⟩) (fun _ => rfl) ?_
    · intro depth
      simp [Pieces.sealed, Pieces.node, given]
    · rintro frames ⟨kind, text, place⟩ ⟨⟩
      rfl

theorem reads_throw {argument : Node} (inner : ReadsExpression layout 0 .any argument) :
    ReadsStatement layout closed (.throwStatement loc argument) := by
  refine reads_argument_statement .throwKw (.thrown .synthetic) inner ?_ (by decide) rfl
    (fun _ => ⟨by simp, Nat.le_refl _⟩) (fun _ => rfl) ?_
  · intro depth
    simp [Pieces.sealed, Pieces.node]
  · rintro frames ⟨kind, text, place⟩ ⟨⟩
    rfl

theorem reads_empty : ReadsStatement layout closed (.emptyStatement loc) := by
  refine ⟨fun depth => ⟨_, _, _, rfl, rfl⟩, ?_⟩
  intro depth stack frames r rest fresh hosts
  exact .semicolon fresh.toWithin (fresh.starts _ (by simp)) fun r₁ behind settled =>
    .nil (behind.finished_semicolon closed settled)

theorem reads_variables {keyword : Text} {declarators : List Node}
    (mem : keyword ∈ Grammar.declarationWords)
    (inner : ReadsDeclaration layout (.variableDeclaration loc keyword declarators)) :
    ReadsDeclared layout (.variableDeclaration loc keyword declarators) := by
  have words : ∀ word ∈ Grammar.declarationWords,
      Token.isQuiet (Pieces.wordKind word) = true := by decide
  have pieces (depth : Nat) : tokens (Pieces.sealed (.variableDeclaration loc keyword declarators)
      (Pieces.node layout depth (.variableDeclaration loc keyword declarators))) =
        tokens (Pieces.node layout depth (.variableDeclaration loc keyword declarators)) ++
          [.plain .semicolon ";"] := by
    simp [Pieces.sealed]
  refine ⟨fun depth => ⟨_, _, _, rfl, words keyword mem⟩, ?_⟩
  intro depth stack frames r rest closed declares hosts
  rw [pieces]
  refine (inner declares.toWithin declares.noPoint declares.binds
    (Token.quiet_cons rfl _ _)).append fun r₁ ended => ?_
  rw [hosts.declaration] at ended
  exact .statementEnd ended closed

theorem reads_function {R : Prop} {name body result : Node} {params : List Node}
    (slot : NameSlot name) (each : ∀ p ∈ params, ReadsParam layout p)
    (block : ReadsBlock layout body) (typed : ResultSlot (.rendered R) result) :
    ReadsDeclared layout (.functionDeclaration loc name params body result) := by
  have pieces (depth : Nat) : Pieces.sealed (.functionDeclaration loc name params body result)
      (Pieces.node layout depth (.functionDeclaration loc name params body result)) =
        functionPieces layout depth name params body result := by
    simp [Pieces.sealed, Pieces.node, functionPieces]
  refine ⟨fun depth => pieces depth ▸ ⟨_, _, _, rfl, rfl⟩, ?_⟩
  intro depth stack frames r rest closed declares hosts
  have retyped : r.terminators.retyped (.keyword .functionKw) = (.keyword .functionKw, false) := by
    rw [TerminatorState.retyped, if_neg (by simp), if_neg, declares.awaiting]
    simp [declares.noOperand, declares.noArrow]
  rw [pieces]
  refine (Leads.function slot each block typed declares.toWithin declares.noPoint retyped rfl
    declares.function).mono fun r₁ arrived => ?_
  obtain ⟨behind, closedBlock⟩ := arrived
  have whole : (Node.functionDeclaration loc name params body result).unplaced =
      Parse.Header.node ⟨.synthetic, false, name.unplaced⟩ (params.map Node.unplaced)
        body.unplaced result.unplaced := by
    simp [Node.unplaced, Parse.Header.node]
  rw [whole]
  exact behind.finished closed closedBlock

theorem ReadsDeclared.statement (inner : ReadsDeclared layout node) :
    ReadsStatement layout closed node :=
  ⟨inner.starts, fun fresh hosts => inner.leads closed fresh.declares hosts⟩

/-- The statements of a list, each on a line of its own or all on one. -/
theorem Leads.statements {collect : List Node → List Frame} (collects : Parse.Collects collect)
    {lineEnd : List Token} (lines : lineEnd = [] ∨ lineEnd = [.plain .newline "\n"])
    {statements : List Node} (each : ∀ s ∈ statements, ReadsStatement layout false s)
    {done : List Node} (listing : Listing stack (collect done) r) :
    Leads r (statements.flatMap fun s =>
      tokens (Pieces.sealed s (Pieces.node layout depth s)) ++ lineEnd) rest
      (Listing stack (collect ((statements.map Node.unplaced).reverse ++ done))) := by
  induction statements generalizing r done with
  | nil => exact .nil listing
  | cons first others ih =>
    obtain ⟨reads, othersRead⟩ := List.forall_mem_cons.mp each
    have whole : ((first :: others).map Node.unplaced).reverse ++ done =
        (others.map Node.unplaced).reverse ++ first.unplaced :: done := by simp
    obtain ⟨kind, t, ts, opening, quiet⟩ := reads.starts depth
    have noNewline : kind ≠ .newline := by
      rintro rfl
      cases quiet
    rw [List.flatMap_cons, whole, List.append_assoc]
    refine .append (P := Finished false stack (collect done) first.unplaced) ?_
      fun r₁ finished => ?_
    · rw [opening]
      refine listing.leads noNewline fun r₁ fresh => ?_
      rw [← opening]
      exact reads.leads fresh (collects.hosts done)
    have listing := finished.listing (collects.settle _ _) fun node => collects.silent node _
    rcases lines with rfl | rfl
    · exact ih othersRead listing
    · exact .newline (ih othersRead (listing.newline _))

theorem tokens_join_newline (first : List Piece) (others : List (List Piece)) :
    tokens (Pieces.join [Pieces.newline] (first :: others)) ++ [.plain .newline "\n"] =
      (first :: others).flatMap fun line => tokens line ++ [.plain .newline "\n"] := by
  induction others generalizing first with
  | nil => simp [Pieces.join]
  | cons second others ih =>
    rw [Pieces.join_cons_cons, List.flatMap_cons, ← ih second]
    simp

/-- Lines in braces, as tokens. -/
theorem tokens_lines (layout : Layout) (depth : Nat) (lines : List (List Piece)) :
    ∃ lineEnd, (lineEnd = [] ∨ lineEnd = [Token.plain .newline "\n"]) ∧
      tokens (Pieces.braced layout depth lines) = .plain .leftBrace "\x7b" ::
        (lineEnd ++ ((lines.flatMap fun line => tokens line ++ lineEnd) ++
          [.plain .rightBrace "\x7d"])) := by
  cases lines with
  | nil => exact ⟨[], .inl rfl, rfl⟩
  | cons line lines =>
    cases layout with
    | compact =>
      refine ⟨[], .inl rfl, ?_⟩
      simp [Pieces.braced, Pieces.tokens_flatten, List.flatMap]
    | pretty =>
      refine ⟨_, .inr rfl, ?_⟩
      have shape : tokens (Pieces.braced .pretty depth (line :: lines)) =
          .plain .leftBrace "\x7b" :: .plain .newline "\n" ::
            ((tokens (Pieces.join [Pieces.newline] ((Pieces.indent (depth + 1) ++ line) ::
              lines.map (Pieces.indent (depth + 1) ++ ·))) ++ [.plain .newline "\n"]) ++
                [.plain .rightBrace "\x7d"]) := by
        simp [Pieces.braced]
      rw [shape, tokens_join_newline]
      simp [List.flatMap_map]

theorem reads_block {body : List Node} (each : ∀ s ∈ body, ReadsStatement layout false s) :
    ReadsBlock layout (.block loc body) := by
  intro depth stack awaiting frames r rest within opens step
  have collects := Parse.collects_block .synthetic frames
  obtain ⟨lineEnd, lines, shape⟩ := tokens_lines layout depth
    (body.map fun s => Pieces.sealed s (Pieces.node layout (depth + 1) s))
  have pieces : tokens (Pieces.blockOf layout depth (.block loc body)) =
      .plain .leftBrace "\x7b" :: (lineEnd ++ ((body.flatMap fun s =>
        tokens (Pieces.sealed s (Pieces.node layout (depth + 1) s)) ++ lineEnd) ++
          [.plain .rightBrace "\x7d"])) := by
    rw [List.flatMap_map] at shape
    rw [← shape, Pieces.blockOf, Pieces.block, Pieces.nodes_eq_map, List.zipWith_map_right,
      List.zipWith_self]
  rw [pieces]
  refine .blockBrace within opens (step _ rfl) fun r₁ behind settled => ?_
  have listing : Listing (.block :: stack) (.block .synthetic [] :: frames) r₁ :=
    ⟨behind.stack, behind.awaiting, by simp [behind.before], by simp [behind.last], by
      rw [behind.parser]
      exact ⟨fun _ _ => rfl, rfl, fun node => collects.silent node []⟩⟩
  have inside (r : Reader)
      (listing : Listing (.block :: stack) (.block .synthetic [] :: frames) r) :
      Leads r ((body.flatMap fun s => tokens (Pieces.sealed s (Pieces.node layout (depth + 1) s)) ++
        lineEnd) ++ [.plain .rightBrace "\x7d"]) rest fun r =>
          Behind stack false .rightBrace .rightBrace
            (Parse.endBlock (Node.block loc body).unplaced frames) r ∧
              r.terminators.closedBlock = true := by
    refine (Leads.statements collects lines each listing).append fun r₂ listing => ?_
    have whole : (Node.block loc body).unplaced = .block .synthetic
        ((body.map Node.unplaced).reverse ++ []).reverse := by simp [Node.unplaced]
    rw [whole]
    exact .blockEnd listing fun r₃ behind closedBlock => .nil ⟨behind, closedBlock⟩
  rcases lines with rfl | rfl
  · exact inside r₁ listing
  · exact .newline (inside _ (listing.newline _))

/-- A block as a statement. -/
theorem ReadsBlock.statement {body : List Node} (inner : ReadsBlock layout (.block loc body)) :
    ReadsStatement layout closed (.block loc body) := by
  have pieces (depth : Nat) : Pieces.sealed (.block loc body)
      (Pieces.node layout depth (.block loc body)) =
        Pieces.blockOf layout depth (.block loc body) := by
    simp [Pieces.sealed, Pieces.node, Pieces.blockOf]
  refine ⟨fun depth => ?_, ?_⟩
  · obtain ⟨ts, shape⟩ := tokens_blockOf layout depth (.block loc body)
    exact pieces depth ▸ ⟨_, _, _, shape, rfl⟩
  · intro depth stack frames r rest fresh hosts
    have step (t : Token) (brace : t.kind = .leftBrace) :
        Parse.step r.parser t = some ⟨.statement, .block t.loc [] :: frames⟩ := by
      obtain ⟨kind, text, place⟩ := t
      cases brace
      exact fresh.starts _ (by simp)
    rw [pieces]
    refine (inner fresh.toWithin fresh.noOperand step).mono fun r₁ arrived => ?_
    obtain ⟨behind, closedBlock⟩ := arrived
    rw [hosts.block] at behind
    exact behind.finished closed closedBlock

/-- What stands behind `export`, or behind `export default`. -/
theorem Behind.declares {isDefault : Bool}
    (behind : Behind stack false before last ⟨.exported .synthetic isDefault, frames⟩ r)
    (noPoint : before ≠ .dot) (noOperand : last.precedesExpression = false)
    (noArrow : last ≠ .arrow) : Declares stack (.exported .synthetic isDefault :: frames) r where
  toWithin := behind.toWithin
  noPoint := by simpa [behind.before] using noPoint
  noOperand := by simpa [behind.last] using noOperand
  noArrow := by simpa [behind.last] using noArrow
  binds t mem := by
    obtain ⟨kind, text, loc⟩ := t
    simp only [declarationKinds, List.mem_cons, List.not_mem_nil, or_false] at mem
    rw [behind.parser]
    rcases mem with rfl | rfl | rfl <;> rfl
  function t isFunction := by
    obtain ⟨kind, text, loc⟩ := t
    cases isFunction
    rw [behind.parser]
    rfl

theorem reads_exportNamed {d : Node} (inner : ReadsDeclared layout d) :
    ReadsStatement layout closed (.exportNamed loc d) := by
  refine ⟨fun depth => ⟨_, _, _, rfl, rfl⟩, ?_⟩
  intro depth stack frames r rest fresh hosts
  refine .keyword fresh.toWithin rfl (fresh.keeps ((inner.starts depth).quiet rest))
    (fresh.step (by decide)) fun r₁ behind => ?_
  refine (inner.leads closed (behind.declares (by decide) rfl (by decide))
    ⟨fun _ => rfl, fun _ => rfl⟩).mono fun r₂ finished => ?_
  exact finished.outer rfl fun _ => rfl

theorem reads_exportDefault {d : Node} (inner : ReadsDeclared layout d) :
    ReadsStatement layout closed (.exportDefault loc d) := by
  refine ⟨fun depth => ⟨_, _, _, rfl, rfl⟩, ?_⟩
  intro depth stack frames r rest fresh hosts
  refine .keyword fresh.toWithin rfl (fresh.keeps (Token.quiet_cons rfl _ _))
    (fresh.step (by decide)) fun r₁ behind => ?_
  refine .keyword behind.toWithin rfl (behind.keeps (by decide) ((inner.starts depth).quiet rest).2)
    (by rw [behind.parser]; rfl) fun r₂ behind => ?_
  refine (inner.leads closed (behind.declares (by decide) rfl (by decide))
    ⟨fun _ => rfl, fun _ => rfl⟩).mono fun r₃ finished => ?_
  exact finished.outer rfl fun _ => rfl

theorem reads_interface (fits : FitsInterface node) : ReadsStatement layout closed node := by
  obtain @⟨loc, nameLoc, name, members, isName, each⟩ := fits
  refine ⟨fun depth => ⟨_, _, _, rfl, rfl⟩, ?_⟩
  intro depth stack frames r rest fresh hosts
  obtain ⟨lineEnd, lines, shape⟩ := tokens_lines layout depth
    (members.map fun m => Pieces.terminated (Pieces.node layout (depth + 1) m))
  have pieces : tokens (Pieces.sealed
      (.interfaceDeclaration loc (.identifier nameLoc false name .absent) members)
      (Pieces.node layout depth
        (.interfaceDeclaration loc (.identifier nameLoc false name .absent) members))) =
      .plain (.keyword .interfaceKw) "interface" :: .plain .name name ::
        .plain .leftBrace "\x7b" :: (lineEnd ++ ((members.flatMap fun m =>
          tokens (Pieces.terminated (Pieces.node layout (depth + 1) m)) ++ lineEnd) ++
            [.plain .rightBrace "\x7d"])) := by
    rw [List.flatMap_map] at shape
    rw [← shape]
    simp [Pieces.sealed, Pieces.node, Pieces.nameOf, Pieces.wordKind, isName.2, Keyword.spelling,
      Function.comp_def]
  rw [pieces]
  refine .keyword fresh.toWithin rfl (fresh.keeps (Token.quiet_cons rfl _ _))
    (fresh.step (by decide)) fun r₁ behind => ?_
  refine .sign behind.toWithin (by decide) rfl rfl (by rw [behind.parser]; rfl) fun r₂ behind => ?_
  refine .blockBrace behind.toWithin (by rw [behind.last]; rfl) (by rw [behind.parser]; rfl)
    fun r₃ behind settled => ?_
  have inside (r : Reader) (within : Within (.block :: stack) false r)
      (before : r.before = some .leftBrace) (parser : r.parser = r₃.parser)
      (settled : r.terminators.canTerminate = false) :
      Leads r ((members.flatMap fun m =>
        tokens (Pieces.terminated (Pieces.node layout (depth + 1) m)) ++ lineEnd) ++
          [.plain .rightBrace "\x7d"]) rest (Finished closed stack frames (Node.interfaceDeclaration
            loc (.identifier nameLoc false name .absent) members).unplaced) := by
    refine (Leads.members lines (fun m mem => reads_of_fits (each m mem) layout) within
      (.inl before)
      (parser.trans behind.parser)).append fun r₄ arrived => ?_
    obtain ⟨within, parser, stays⟩ := arrived
    refine .closingBlock within.toCalm (stays settled) (by rw [parser]; rfl)
      fun r₅ behind closedBlock => .nil ?_
    have whole : (Node.interfaceDeclaration loc (.identifier nameLoc false name .absent)
        members).unplaced = .interfaceDeclaration .synthetic
          (.identifier .synthetic false name .absent)
            ((members.map Node.unplaced).reverse ++ []).reverse := by
      simp [Node.unplaced]
    rw [whole]
    exact behind.finished closed closedBlock
  rcases lines with rfl | rfl
  · exact inside r₃ behind.toWithin behind.before rfl settled
  · exact .blankLine settled (inside _
      ⟨⟨behind.stack, behind.awaiting, behind.pending⟩, behind.paren⟩ behind.before rfl settled)

end Reader

end TypeGloss
