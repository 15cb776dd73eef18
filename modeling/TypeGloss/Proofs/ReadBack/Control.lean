import TypeGloss.Proofs.ReadBack.Statement

/-!
# Branches and loops are read back

Their headers stand in parentheses in which a semicolon ends a part. Behind the header a statement
starts that is not part of a list, so that `else` behind it finds its `if`.
-/

namespace TypeGloss

open Token (Quiet)

namespace Reader

open Parse (Frame Hosts Room)
open Pieces (tokens Starts Balanced)

variable {layout : Layout} {depth : Nat} {stack : List Enclosure} {frames : List Frame}
  {r : Reader} {ts rest : List Token} {Q : Reader → Prop} {node : Node} {closed : Bool}
  {loc : Location}

/-- A word and the parenthesis that opens its header. -/
theorem Leads.header {word : Keyword} {headerWord : Parse.HeaderWord} {frame : Frame}
    {inside : List Piece} (fresh : Fresh stack frames r)
    (header : (TokenKind.keyword word).opensHeader = true)
    (first : Parse.statementStart (.plain (.keyword word) word.spelling) frames =
      some ⟨.headerOpen headerWord .synthetic, frames⟩)
    (second : Parse.headerStart (.plain .leftParen "(") headerWord .synthetic frames =
      some ⟨.operand, frame :: frames⟩)
    (balanced : Balanced inside) (quiet : Quiet (ts ++ rest))
    (next : ∀ r, Behind (.header :: stack) false .leftParen .leftParen
      ⟨.operand, frame :: frames⟩ r →
        Leads r (tokens inside ++ .plain .rightParen ")" :: ts) rest Q) :
    Leads r (.plain (.keyword word) word.spelling :: .plain .leftParen "(" ::
      (tokens inside ++ .plain .rightParen ")" :: ts)) rest Q := by
  have noElse : word ≠ .elseKw := by
    rintro rfl
    cases header
  refine .headerWord fresh.toWithin header (fresh.keeps (Token.quiet_cons rfl _ _))
    ((fresh.step noElse).trans first) fun r₁ heads => ?_
  have noArrow : Token.closesIntoArrow 0
      ((tokens inside ++ .plain .rightParen ")" :: ts) ++ rest) = false := by
    rw [List.append_assoc, List.cons_append, balanced.closesIntoArrow]
    exact quiet.1
  refine .leftParen heads.toCalm noArrow (by rw [heads.parser]; exact second) fun r₂ behind => ?_
  rw [heads.paren] at behind
  exact next r₂ behind

/-- The condition of a branch or a loop, and the parenthesis behind it. -/
theorem Leads.condition {frame : Frame} (body : Node → Frame) {test : Node}
    (inner : ReadsExpression layout 0 .any test) (room : Room 0 (frame :: frames))
    (ends : ∀ t, t.kind = .rightParen →
      Parse.expressionEnd t ⟨test.unplaced, .synthetic, .operand⟩ (frame :: frames) =
        some ⟨.statement, body test.unplaced :: frames⟩)
    (behind : Behind (.header :: stack) false .leftParen .leftParen ⟨.operand, frame :: frames⟩ r)
    (next : ∀ r, Fresh stack (body test.unplaced :: frames) r → Leads r ts rest Q) :
    Leads r (tokens (Pieces.node layout depth test) ++ .plain .rightParen ")" :: ts) rest Q := by
  refine (inner.leads (behind.due (Parse.expects_operand _) rfl (by decide)) room
    (guard_of_quiet (Token.quiet_cons rfl _ _))).append fun r₁ reached => ?_
  have step : Parse.step r₁.parser (.plain .rightParen ")") =
      some ⟨.statement, body test.unplaced :: frames⟩ :=
    (reached.ready.ends _ rfl (by simp)).trans (ends _ rfl)
  refine .closing reached.within (by decide) rfl step fun r₂ behind => ?_
  exact next r₂ (behind.fresh (by decide) rfl (by decide))

theorem reads_while {test body : Node} (condition : ReadsExpression layout 0 .any test)
    (inner : ReadsStatement layout closed body) :
    ReadsStatement layout closed (.whileStatement loc test body) := by
  have pieces (depth : Nat) : tokens (Pieces.sealed (.whileStatement loc test body)
      (Pieces.node layout depth (.whileStatement loc test body))) =
        .plain (.keyword .whileKw) Keyword.whileKw.spelling :: .plain .leftParen "(" ::
          (tokens (Pieces.node layout depth test) ++ .plain .rightParen ")" ::
            tokens (Pieces.sealed body (Pieces.node layout depth body))) := by
    simp [Pieces.sealed, Pieces.node, Pieces.tokens_body]
  refine ⟨fun depth => ⟨_, _, _, pieces depth, rfl⟩, ?_⟩
  intro depth stack frames r rest fresh hosts
  rw [pieces]
  refine .header fresh rfl rfl rfl (Pieces.balanced_node layout depth test)
    ((inner.starts depth).quiet rest) fun r₁ behind => ?_
  refine .condition (.whileBody .synthetic) condition ⟨by simp, Nat.le_refl _⟩ ?_ behind
    fun r₂ fresh => ?_
  · rintro ⟨kind, text, place⟩ ⟨⟩
    rfl
  refine (inner.leads fresh ⟨fun _ => rfl, fun _ => rfl⟩).mono fun r₃ finished => ?_
  exact finished.outer rfl fun _ => rfl

theorem reads_if {test consequent : Node} (condition : ReadsExpression layout 0 .any test)
    (inner : ReadsStatement layout false consequent) :
    ReadsStatement layout false (.ifStatement loc test consequent .absent) := by
  have pieces (depth : Nat) : tokens (Pieces.sealed (.ifStatement loc test consequent .absent)
      (Pieces.node layout depth (.ifStatement loc test consequent .absent))) =
        .plain (.keyword .ifKw) Keyword.ifKw.spelling :: .plain .leftParen "(" ::
          (tokens (Pieces.node layout depth test) ++ .plain .rightParen ")" ::
            tokens (Pieces.sealed consequent (Pieces.node layout depth consequent))) := by
    simp [Pieces.sealed, Pieces.node, Pieces.tokens_body, Pieces.elsePart, Node.isAbsent]
  refine ⟨fun depth => ⟨_, _, _, pieces depth, rfl⟩, ?_⟩
  intro depth stack frames r rest fresh hosts
  rw [pieces]
  refine .header fresh rfl rfl rfl (Pieces.balanced_node layout depth test)
    ((inner.starts depth).quiet rest) fun r₁ behind => ?_
  refine .condition (.thenBranch .synthetic) condition ⟨by simp, Nat.le_refl _⟩ ?_ behind
    fun r₂ fresh => ?_
  · rintro ⟨kind, text, place⟩ ⟨⟩
    rfl
  refine (inner.leads fresh ⟨fun _ => rfl, fun _ => rfl⟩).mono fun r₃ finished => ?_
  exact finished.outer rfl (by rintro ⟨⟩)

/-- What stands between the first branch and the second, with `else` on the same line or on the
next one. -/
theorem tokens_elsePart {consequent alternate : Node} (given : alternate.isAbsent = false)
    (ps : List Piece) :
    ∃ lineEnd, (lineEnd = [] ∨ lineEnd = [Token.plain .newline "\n"]) ∧
      tokens (Pieces.elsePart layout depth consequent alternate ps) =
        lineEnd ++ .plain (.keyword .elseKw) "else" :: tokens (Pieces.sealed alternate ps) := by
  unfold Pieces.elsePart Pieces.beforeElse
  cases layout
  · exact ⟨[], .inl rfl, by simp [given, Pieces.tokens_body, Keyword.spelling]⟩
  · cases Print.isBlock consequent
    · exact ⟨_, .inr rfl, by simp [given, Pieces.tokens_body, Keyword.spelling]⟩
    · exact ⟨[], .inl rfl, by simp [given, Pieces.tokens_body, Keyword.spelling]⟩

theorem reads_ifElse {test consequent alternate : Node}
    (condition : ReadsExpression layout 0 .any test) (given : alternate.isAbsent = false)
    (first : ReadsStatement layout true consequent)
    (second : ReadsStatement layout closed alternate) :
    ReadsStatement layout closed (.ifStatement loc test consequent alternate) := by
  have pieces (depth : Nat) : tokens (Pieces.sealed (.ifStatement loc test consequent alternate)
      (Pieces.node layout depth (.ifStatement loc test consequent alternate))) =
        .plain (.keyword .ifKw) Keyword.ifKw.spelling :: .plain .leftParen "(" ::
          (tokens (Pieces.node layout depth test) ++ .plain .rightParen ")" ::
            (tokens (Pieces.sealed consequent (Pieces.node layout depth consequent)) ++
              tokens (Pieces.elsePart layout depth consequent alternate
                (Pieces.node layout depth alternate)))) := by
    simp [Pieces.sealed, Pieces.node, Pieces.tokens_body]
  refine ⟨fun depth => ⟨_, _, _, pieces depth, rfl⟩, ?_⟩
  intro depth stack frames r rest fresh hosts
  have quiet := (second.starts depth).quiet rest
  obtain ⟨lineEnd, lines, shape⟩ := tokens_elsePart given (Pieces.node layout depth alternate)
  rw [pieces]
  refine .header fresh rfl rfl rfl (Pieces.balanced_node layout depth test) ?_ fun r₁ behind => ?_
  · rw [List.append_assoc]
    exact (first.starts depth).quiet _
  refine .condition (.thenBranch .synthetic) condition ⟨by simp, Nat.le_refl _⟩ ?_ behind
    fun r₂ fresh => ?_
  · rintro ⟨kind, text, place⟩ ⟨⟩
    rfl
  refine (first.leads fresh ⟨fun _ => rfl, fun _ => rfl⟩).append fun r₃ finished => ?_
  have later (r : Reader) (fresh : Fresh stack
      (.elseBranch .synthetic test.unplaced consequent.unplaced :: frames) r) :
      Leads r (tokens (Pieces.sealed alternate (Pieces.node layout depth alternate))) rest
        (Finished closed stack frames (Node.ifStatement loc test consequent alternate).unplaced) :=
    (second.leads fresh ⟨fun _ => rfl, fun _ => rfl⟩).mono fun r finished =>
      finished.outer rfl fun _ => rfl
  rw [shape]
  rcases lines with rfl | rfl
  · exact .elseWord finished quiet later
  · exact .newlineElse finished quiet later

/-- The first part of the header of a loop is read back. -/
def ReadsInitializer (layout : Layout) (node : Node) : Prop :=
  ∀ {depth stack frames r rest}, Behind stack false .leftParen .leftParen
    ⟨.operand, .forInit .synthetic :: frames⟩ r → Quiet rest →
    Leads r (tokens (Pieces.node layout depth node)) rest
      (Ended stack [.terminator] fun _ =>
        some ⟨.operand, .forTest .synthetic node.unplaced :: frames⟩)

theorem reads_noInitializer : ReadsInitializer layout .absent := by
  intro depth stack frames r rest behind quiet
  refine .nil ⟨behind.toWithin, ?_⟩
  rintro ⟨kind, text, place⟩ isEnd
  obtain rfl := List.mem_singleton.mp isEnd
  rw [behind.parser]
  rfl

theorem ReadsDeclaration.initializer (inner : ReadsDeclaration layout node) :
    ReadsInitializer layout node := by
  intro depth stack frames r rest behind quiet
  have binds (t : Token) (mem : t.kind ∈ declarationKinds) : Parse.step r.parser t =
      some ⟨.declaratorName, .declarators t.loc t.text [] :: .forInit .synthetic :: frames⟩ := by
    obtain ⟨kind, text, place⟩ := t
    simp only [declarationKinds, List.mem_cons, List.not_mem_nil, or_false] at mem
    rw [behind.parser]
    rcases mem with rfl | rfl | rfl <;> rfl
  exact inner behind.toWithin (by simp [behind.before]) binds quiet

theorem ReadsExpression.initializer (inner : ReadsExpression layout 0 .any node) :
    ReadsInitializer layout node := by
  intro depth stack frames r rest behind quiet
  refine (inner.leads (behind.due (Parse.expects_operand _) rfl (by decide))
    ⟨by simp, Nat.le_refl _⟩ (guard_of_quiet quiet)).mono fun r₁ reached => ⟨reached.within, ?_⟩
  rintro ⟨kind, text, place⟩ isEnd
  obtain rfl := List.mem_singleton.mp isEnd
  exact reached.ready.ends _ rfl (by simp)

/-- A later part of the header of a loop, which may be left out. -/
theorem Leads.headerPart {frame : Frame} (kind : TokenKind) (next : Node → Parse.State)
    (reads : node = .absent ∨ ReadsExpression layout 0 .noObjectOrFunction node)
    (isEnd : Parse.endsExpression kind = true ∧ kind ≠ .comma) (room : Room 0 (frame :: frames))
    (omitted : ∀ t, t.kind = kind → Parse.operandStart t (frame :: frames) = some (next .absent))
    (given : ∀ t, t.kind = kind → Parse.expressionEnd t ⟨node.unplaced, .synthetic, .operand⟩
      (frame :: frames) = some (next node.unplaced))
    (behind : Behind stack false .semicolon .terminator ⟨.operand, frame :: frames⟩ r)
    (quiet : Quiet rest) :
    Leads r (tokens (Pieces.node layout depth node)) rest
      (Ended stack [kind] fun _ => some (next node.unplaced)) := by
  rcases reads with rfl | inner
  · refine .nil ⟨behind.toWithin, fun t isEnd => ?_⟩
    rw [behind.parser]
    exact omitted t (List.mem_singleton.mp isEnd)
  · have due : Due stack .noObjectOrFunction (frame :: frames) r :=
      ⟨behind.toWithin, behind.parser ▸ Parse.expects_operand _, by simp [behind.before], nofun,
        nofun⟩
    refine (inner.leads due room (guard_of_quiet quiet)).mono fun r₁ reached =>
      ⟨reached.within, fun t mem => ?_⟩
    have same := List.mem_singleton.mp mem
    rw [reached.ready.ends t (same ▸ isEnd.1) fun comma => absurd (same.symm.trans comma) isEnd.2]
    exact given t same

theorem reads_for {initializer test step body : Node}
    (initial : ReadsInitializer layout initializer)
    (condition : test = .absent ∨ ReadsExpression layout 0 .noObjectOrFunction test)
    (increment : step = .absent ∨ ReadsExpression layout 0 .noObjectOrFunction step)
    (inner : ReadsStatement layout closed body) :
    ReadsStatement layout closed (.forStatement loc initializer test step body) := by
  have header (depth : Nat) : tokens (Pieces.loopHeader (Pieces.node layout depth initializer)
      (Pieces.headerPart layout test (Pieces.node layout depth test))
      (Pieces.headerPart layout step (Pieces.node layout depth step))) =
        tokens (Pieces.node layout depth initializer) ++ .plain .semicolon ";" ::
          (tokens (Pieces.node layout depth test) ++ .plain .semicolon ";" ::
            tokens (Pieces.node layout depth step)) := by
    simp [Pieces.loopHeader, Pieces.tokens_headerPart]
  have pieces (depth : Nat) : tokens (Pieces.sealed (.forStatement loc initializer test step body)
      (Pieces.node layout depth (.forStatement loc initializer test step body))) =
        .plain (.keyword .forKw) Keyword.forKw.spelling :: .plain .leftParen "(" ::
          (tokens (Pieces.loopHeader (Pieces.node layout depth initializer)
            (Pieces.headerPart layout test (Pieces.node layout depth test))
            (Pieces.headerPart layout step (Pieces.node layout depth step))) ++
              .plain .rightParen ")" ::
                tokens (Pieces.sealed body (Pieces.node layout depth body))) := by
    simp [Pieces.sealed, Pieces.node, Pieces.tokens_body]
  refine ⟨fun depth => ⟨_, _, _, pieces depth, rfl⟩, ?_⟩
  intro depth stack frames r rest fresh hosts
  have balanced := Balanced.loopHeader (Pieces.balanced_node layout depth initializer)
    (.headerPart layout test (Pieces.balanced_node layout depth test))
    (.headerPart layout step (Pieces.balanced_node layout depth step))
  rw [pieces]
  refine .header fresh rfl rfl rfl balanced ((inner.starts depth).quiet rest) fun r₁ behind => ?_
  rw [header]
  simp only [List.append_assoc, List.cons_append]
  refine (initial behind (Token.quiet_cons rfl _ _)).append fun r₂ ended => ?_
  refine .semicolon ended.within (ended.ends _ (by simp)) fun r₃ behind _ => ?_
  refine (Leads.headerPart .terminator (fun test => ⟨.operand,
    .forStep .synthetic initializer.unplaced test :: frames⟩) condition ⟨rfl, by decide⟩
    ⟨by simp, Nat.le_refl _⟩ ?_ ?_ behind (Token.quiet_cons rfl _ _)).append fun r₄ ended => ?_
  · rintro ⟨kind, text, place⟩ ⟨⟩
    rfl
  · rintro ⟨kind, text, place⟩ ⟨⟩
    rfl
  refine .semicolon ended.within (ended.ends _ (by simp)) fun r₅ behind _ => ?_
  refine (Leads.headerPart .rightParen (fun step => ⟨.statement,
    .forBody .synthetic initializer.unplaced test.unplaced step :: frames⟩) increment
    ⟨rfl, by decide⟩ ⟨by simp, Nat.le_refl _⟩ ?_ ?_ behind (Token.quiet_cons rfl _ _)).append
    fun r₆ ended => ?_
  · rintro ⟨kind, text, place⟩ ⟨⟩
    rfl
  · rintro ⟨kind, text, place⟩ ⟨⟩
    rfl
  refine .closing ended.within (by decide) rfl (ended.ends _ (by simp)) fun r₇ behind => ?_
  refine (inner.leads (behind.fresh (by decide) rfl (by decide))
    ⟨fun _ => rfl, fun _ => rfl⟩).mono fun r₈ finished => ?_
  exact finished.outer rfl fun _ => rfl

/-- The tokens of a program, read from the start. -/
theorem read?_program {body : List Node} (each : ∀ s ∈ body, ReadsStatement layout false s) :
    start.read? (tokens (Pieces.node layout depth (.program loc body))) =
      some (.program .first (body.map Node.unplaced)) := by
  obtain ⟨lineEnd, lines, pieces⟩ : ∃ lineEnd,
      (lineEnd = [] ∨ lineEnd = [Token.plain .newline "\n"]) ∧
      tokens (Pieces.node layout depth (.program loc body)) = body.flatMap fun s =>
        tokens (Pieces.sealed s (Pieces.node layout depth s)) ++ lineEnd := by
    cases layout
    · refine ⟨[], .inl rfl, ?_⟩
      simp [Pieces.node, Pieces.tokens_flatten, List.zipWith_map_right, List.zipWith_self,
        List.flatMap, Function.comp_def]
    · refine ⟨_, .inr rfl, ?_⟩
      simp [Pieces.node, Pieces.tokens_flatten, List.zipWith_map_right, List.zipWith_self,
        List.flatMap, Function.comp_def]
  have listing : Listing [] [.program []] start :=
    ⟨rfl, rfl, by rintro ⟨⟩, by rintro _ ⟨⟩, ⟨fun _ _ => rfl, rfl, fun _ => rfl⟩⟩
  obtain ⟨r, listing, read⟩ : Leads start (tokens (Pieces.node layout depth (.program loc body))) []
      (Listing [] [.program ((body.map Node.unplaced).reverse ++ [])]) := by
    rw [pieces]
    exact .statements Parse.collects_program lines each listing
  rw [List.append_nil] at read
  rw [read, listing.read?_nil]
  simp

end Reader

end TypeGloss
