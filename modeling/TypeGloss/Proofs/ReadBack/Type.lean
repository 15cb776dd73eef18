import TypeGloss.Proofs.ReadBack.Expression

/-!
# Types are read back

Where a type is due, the tokens of a type that is written lead to a state that hands the whole type
to the frames around it. In the result of a function a brace opens a type also behind a bar.
-/

namespace TypeGloss

open Lexeme (isWordText IsName IsString)
open Grammar (FitsType TypeForm isLiteral)
open Token (Quiet)

namespace Parse

/-- Kinds that end a type. -/
def endsType : TokenKind → Bool
  | .rightParen | .rightBrace | .leftBrace | .comma | .greater | .assign | .terminator => true
  | _ => false

/-- The end of a type inside frames. -/
def typeEnd (t : Token) (node : Node) (frames : List Frame) : Option State :=
  deliverType t (Frame.closeType node frames).1 (Frame.closeType node frames).2

/-- A state behind a type inside frames. -/
def TypeEnds (node : Node) (frames : List Frame) (s : State) : Prop :=
  ∀ t, endsType t.kind = true → step s t = typeEnd t node frames

theorem typeEnds_operator (node : Node) (bare : Option Text) (frames : List Frame) :
    TypeEnds node frames ⟨.typeOperator ⟨node, .synthetic, bare⟩, frames⟩ := by
  rintro ⟨kind, text, loc⟩ ends
  cases kind <;> first | rfl | cases ends

end Parse

namespace Reader

open Parse (Frame TypeEnds)
open Pieces (tokens)

variable {layout : Layout} {depth : Nat} {stack : List Enclosure} {awaiting : Bool}
  {frames : List Frame} {r : Reader} {ts rest : List Token} {t : Text} {p : Parse.State}
  {Q : Reader → Prop} {before last : TokenKind} {node : Node}

/-- Where a type is due inside frames. -/
structure TypeDue (stack : List Enclosure) (awaiting : Bool) (frames : List Frame) (r : Reader) :
    Prop where
  within : Within stack awaiting r
  noPoint : r.before ≠ some .dot
  parser : r.parser = ⟨.typeOperand, frames⟩

/-- Behind a type. A brace that follows opens no type. -/
structure TypeReached (stack : List Enclosure) (awaiting : Bool) (r : Reader) : Prop where
  within : Within stack awaiting r
  noBrace : opensObject true r.terminators.last = false

/-- How a part of a type is read back, by its slot. -/
def ReadsType (layout : Layout) (awaiting : Bool) : TypeForm → Node → Prop
  | .single, node => ∀ {depth stack frames r rest}, TypeDue stack awaiting frames r →
      (isLiteral node = true → opensObject awaiting r.terminators.last = true) → Quiet rest →
      Leads r (tokens (Pieces.node layout depth node)) rest fun r => TypeReached stack awaiting r ∧
        ∃ bare, r.parser = ⟨.typeOperator ⟨node.unplaced, .synthetic, bare⟩, frames⟩
  | .type, node => ∀ {depth stack frames r rest}, TypeDue stack awaiting frames r →
      opensObject awaiting r.terminators.last = true →
      (∀ start done below, frames ≠ .union start done :: below) → Quiet rest →
      Leads r (tokens (Pieces.node layout depth node)) rest fun r => TypeReached stack awaiting r ∧
        TypeEnds node.unplaced frames r.parser
  | .signature, node => ∀ {depth stack frames r rest}, Within stack awaiting r →
      (r.before = some .leftBrace ∨ r.before = some .semicolon) → r.parser = ⟨.member, frames⟩ →
      Quiet rest →
      Leads r (tokens (Pieces.node layout depth node)) rest fun r => TypeReached stack awaiting r ∧
        ∀ t, Parse.endsType t.kind = true →
          Parse.step r.parser t = Parse.endMember t node.unplaced frames

theorem Behind.typeReached (behind : Behind stack awaiting before last p r)
    (noBrace : last.precedesTypeBrace = false) : TypeReached stack awaiting r :=
  ⟨behind.toWithin, by simpa [opensObject, behind.last] using noBrace⟩

theorem Behind.typeDue (behind : Behind stack awaiting before last ⟨.typeOperand, frames⟩ r)
    (noPoint : before ≠ .dot) : TypeDue stack awaiting frames r :=
  ⟨behind.toWithin, by simpa [behind.before] using noPoint, behind.parser⟩

theorem reads_word {loc : Location} {word : Text} (mem : word ∈ Grammar.typeWords) :
    ReadsType layout awaiting .single (.keywordType loc word) := by
  intro depth stack frames r rest due _ quiet
  have words : ∀ word ∈ Grammar.typeWords, ∃ kind ∈ [TokenKind.name, .keyword .nullKw,
      .keyword .voidKw], Pieces.wordKind word = kind ∧
        (kind = .name → word ∈ Parse.keywordTypes) := by decide
  obtain ⟨kind, isWord, same, known⟩ := words word mem
  have facts : ∀ kind ∈ [TokenKind.name, .keyword .nullKw, .keyword .voidKw],
      kind ≠ .newline ∧ isOrdinary kind = true ∧ kind.precedesTypeBrace = false := by decide
  obtain ⟨noNewline, ordinary, noBrace⟩ := facts kind isWord
  have step : ∃ bare, Parse.step r.parser (.plain kind word) =
      some ⟨.typeOperator ⟨.keywordType .synthetic word, .synthetic, bare⟩, frames⟩ := by
    rw [due.parser]
    simp only [List.mem_cons, List.not_mem_nil, or_false] at isWord
    rcases isWord with rfl | rfl | rfl
    · exact ⟨some word, by simp [Parse.step, Parse.typeStart, Parse.namedType, known rfl]⟩
    · exact ⟨none, rfl⟩
    · exact ⟨none, rfl⟩
  obtain ⟨bare, step⟩ := step
  simp only [Pieces.node, Pieces.tokens_name, same]
  exact .ordinary due.within noNewline (keeps_of_quiet due.noPoint quiet).named ordinary step
    fun r₁ behind => .nil ⟨behind.typeReached noBrace, bare, behind.parser⟩

/-- The name of a type that is no word. -/
theorem Leads.typeName {name : Text} (due : TypeDue stack awaiting frames r) (isName : IsName name)
    (next : ∀ r, Behind stack awaiting .name .name
      ⟨.typeOperator ⟨Parse.namedType .synthetic name [], .synthetic, some name⟩, frames⟩ r →
        Leads r ts rest Q) :
    Leads r (.plain (Pieces.wordKind name) name :: ts) rest Q := by
  rw [Pieces.wordKind, isName.2]
  exact .sign due.within (by decide) rfl rfl (by rw [due.parser]; rfl) next

theorem reads_named {loc : Location} {name : Text} (isName : IsName name)
    (noWord : name ∉ Parse.keywordTypes) :
    ReadsType layout awaiting .single (.typeReference loc name []) := by
  intro depth stack frames r rest due _ _
  have plain : Parse.namedType .synthetic name [] = .typeReference .synthetic name [] := by
    simp [Parse.namedType, noWord]
  simp only [Pieces.node, List.isEmpty_nil, if_true, Pieces.tokens_name]
  refine .typeName due isName fun r₁ behind => .nil ⟨behind.typeReached rfl, some name, ?_⟩
  rw [behind.parser, plain]
  rfl

theorem opensObject_comma : opensObject awaiting (some .comma) = true := by cases awaiting <;> rfl

theorem opensObject_less : opensObject awaiting (some .less) = true := by cases awaiting <;> rfl

theorem opensObject_colon : opensObject awaiting (some .colon) = true := by cases awaiting <;> rfl

/-- Type arguments with commas between them. -/
theorem Leads.typeArguments {name : Text} {items : List Node}
    (each : ∀ a ∈ items, ReadsType layout awaiting .type a) (nonempty : items ≠ [])
    {done : List Node}
    (due : TypeDue stack awaiting (.typeArguments .synthetic name done :: frames) r)
    (opens : opensObject awaiting r.terminators.last = true) (quiet : Quiet rest) :
    Leads r (tokens (Pieces.commas layout (items.map (Pieces.node layout depth)))) rest
      (Listed (fun last others r => TypeReached stack awaiting r ∧
        TypeEnds last (.typeArguments .synthetic name others :: frames) r.parser)
          (done.reverse ++ items.map Node.unplaced)) := by
  refine .commas (fun done r =>
    TypeDue stack awaiting (.typeArguments .synthetic name done :: frames) r ∧
      opensObject awaiting r.terminators.last = true) ?_ ?_ nonempty ⟨due, opens⟩ quiet
  · intro item mem done r rest ⟨due, opens⟩ quiet
    exact each item mem due opens (by simp) quiet
  · intro item done r ts rest Q ⟨reached, ends⟩ continues
    have step : Parse.step r.parser (.plain .comma ",") = some ⟨.typeOperand,
        .typeArguments .synthetic name (item :: done) :: frames⟩ := ends _ rfl
    refine .sign reached.within (by decide) rfl rfl step fun r' behind => ?_
    exact continues r' ⟨behind.typeDue (by decide), behind.last ▸ opensObject_comma⟩

theorem reads_applied {loc : Location} {name : Text} {arguments : List Node}
    (isName : IsName name) (nonempty : arguments ≠ [])
    (each : ∀ a ∈ arguments, ReadsType layout awaiting .type a) :
    ReadsType layout awaiting .single (.typeReference loc name arguments) := by
  intro depth stack frames r rest due _ quiet
  have pieces : tokens (Pieces.node layout depth (.typeReference loc name arguments)) =
      .plain (Pieces.wordKind name) name :: .plain .less "<" ::
        (tokens (Pieces.commas layout (arguments.map (Pieces.node layout depth))) ++
          [.plain .greater ">"]) := by
    simp [Pieces.node, nonempty]
  rw [pieces]
  refine .typeName due isName fun r₁ behind => ?_
  refine .sign behind.toWithin (by decide) rfl rfl (by rw [behind.parser]; rfl) fun r₂ behind => ?_
  refine (Leads.typeArguments each nonempty (behind.typeDue (by decide))
    (behind.last ▸ opensObject_less) (Token.quiet_cons rfl _ _)).append
    fun r₃ arrived => ?_
  obtain ⟨last, others, listed, reached, ends⟩ := arrived
  have whole : Parse.namedType .synthetic name (last :: others).reverse =
      (Node.typeReference loc name arguments).unplaced := by
    rw [listed]
    simp [Parse.namedType, Node.unplaced, nonempty]
  have step : Parse.step r₃.parser (.plain .greater ">") = some ⟨.typeOperator
      ⟨(Node.typeReference loc name arguments).unplaced, .synthetic, none⟩, frames⟩ := by
    rw [← whole]
    exact ends _ rfl
  refine .sign reached.within (by decide) rfl rfl step fun r₄ behind => .nil ?_
  exact ⟨behind.typeReached rfl, none, behind.parser⟩

/-- The key of a member and the colon behind it. -/
theorem Leads.memberKey {key : MemberKey} (settled : SettledKey key)
    (within : Within stack awaiting r)
    (before : r.before = some .leftBrace ∨ r.before = some .semicolon)
    (parser : r.parser = ⟨.member, frames⟩)
    (next : ∀ r, Behind stack awaiting .colon .colon
      ⟨.typeOperand, .memberType .synthetic key false :: frames⟩ r → Leads r ts rest Q) :
    Leads r (tokens (Pieces.memberHead key false) ++ .plain .colon ":" :: ts) rest Q := by
  cases settled with
  | name word =>
    rw [Pieces.memberHead_name word]
    have names : Token.namesProperty r.before r.onNewLine
        (.plain .colon ":" :: ts ++ rest) = true := by
      rcases before with before | before <;>
        simp [before, Token.namesProperty, Token.opensMember, Token.followsKey, Token.significant]
    refine .word within names (by rw [parser]; rfl) fun r₁ behind => ?_
    exact .sign behind.toWithin (by decide) rfl rfl (by rw [behind.parser]; rfl) next
  | string noWord oneLine =>
    rw [Pieces.memberHead_string noWord]
    refine .sign within (by decide) rfl rfl (by rw [parser]; rfl) fun r₁ behind => ?_
    exact .sign behind.toWithin (by decide) rfl rfl (by rw [behind.parser]; rfl) next

theorem reads_signature {loc : Location} {key : MemberKey} {type : Node} (settled : SettledKey key)
    (inner : ReadsType layout awaiting .type type) :
    ReadsType layout awaiting .signature (.propertySignature loc key type false) := by
  intro depth stack frames r rest within before parser quiet
  have pieces : tokens (Pieces.node layout depth (.propertySignature loc key type false)) =
      tokens (Pieces.memberHead key false) ++ .plain .colon ":" ::
        tokens (Pieces.node layout depth type) := by
    simp [Pieces.node]
  rw [pieces]
  refine .memberKey settled within before parser fun r₁ behind => ?_
  refine (inner (behind.typeDue (by decide)) (behind.last ▸ opensObject_colon) (by simp) quiet).mono
    fun r₂ arrived => ?_
  obtain ⟨reached, ends⟩ := arrived
  refine ⟨reached, fun t isEnd => ?_⟩
  exact ends t isEnd

/-- Members with a semicolon behind each of them, each on a line of its own or all on one. -/
theorem Leads.members {members : List Node} {owner : Parse.MemberOwner} {lineEnd : List Token}
    (lines : lineEnd = [] ∨ lineEnd = [.plain .newline "\n"])
    (each : ∀ m ∈ members, ReadsType layout awaiting .signature m) {done : List Node}
    (within : Within stack awaiting r)
    (before : r.before = some .leftBrace ∨ r.before = some .semicolon)
    (parser : r.parser = ⟨.member, .members .synthetic owner done :: frames⟩) :
    Leads r (members.flatMap fun m =>
      tokens (Pieces.terminated (Pieces.node layout depth m)) ++ lineEnd) rest
      fun r' => Within stack awaiting r' ∧ r'.parser = ⟨.member, .members .synthetic owner
        ((members.map Node.unplaced).reverse ++ done) :: frames⟩ ∧
        (r.terminators.canTerminate = false → r'.terminators.canTerminate = false) := by
  induction members generalizing r done with
  | nil => exact .nil ⟨within, parser, id⟩
  | cons first others ih =>
    obtain ⟨reads, othersRead⟩ := List.forall_mem_cons.mp each
    have whole : ((first :: others).map Node.unplaced).reverse ++ done =
        (others.map Node.unplaced).reverse ++ first.unplaced :: done := by simp
    have pieces : ((first :: others).flatMap fun m =>
        tokens (Pieces.terminated (Pieces.node layout depth m)) ++ lineEnd) =
          tokens (Pieces.node layout depth first) ++ .plain .semicolon ";" :: (lineEnd ++
            others.flatMap fun m => tokens (Pieces.terminated (Pieces.node layout depth m)) ++
              lineEnd) := by
      simp [Pieces.terminated]
    rw [pieces, whole]
    refine (reads within before parser (Token.quiet_cons rfl _ _)).append
      fun r₁ arrived => ?_
    obtain ⟨reached, ends⟩ := arrived
    have step : Parse.step r₁.parser (.plain .terminator ";") = some ⟨.member,
        .members .synthetic owner (first.unplaced :: done) :: frames⟩ := ends _ rfl
    refine .semicolon reached.within step fun r₂ behind settled => ?_
    rcases lines with rfl | rfl
    · exact (ih othersRead behind.toWithin (.inr behind.before) behind.parser).mono
        fun r₃ arrived => ⟨arrived.1, arrived.2.1, fun _ => arrived.2.2 settled⟩
    · have below : Within stack awaiting { r₂ with onNewLine := true } :=
        ⟨⟨behind.stack, behind.awaiting, behind.pending⟩, behind.paren⟩
      refine .blankLine settled ?_
      exact (ih othersRead below (.inr behind.before) behind.parser).mono
        fun r₃ arrived => ⟨arrived.1, arrived.2.1, fun _ => arrived.2.2 settled⟩

/-- Members with a semicolon between neighbours, and the brace behind them. -/
theorem Leads.joinedMembers {members : List Node}
    (each : ∀ m ∈ members, ReadsType layout awaiting .signature m) (nonempty : members ≠ [])
    {done : List Node} (within : Within (.object :: stack) awaiting r)
    (before : r.before = some .leftBrace ∨ r.before = some .semicolon)
    (parser : r.parser = ⟨.member, .members .synthetic .literal done :: frames⟩) :
    Leads r (tokens (Pieces.join [Pieces.semicolon, .blank]
      (members.map (Pieces.node layout depth))) ++ [.plain .rightBrace "\x7d"]) rest
      (Behind stack awaiting .rightBrace .rightBrace ⟨.typeOperator ⟨.typeLiteral .synthetic
        (done.reverse ++ members.map Node.unplaced), .synthetic, none⟩, frames⟩) := by
  induction members generalizing r done with
  | nil => exact absurd rfl nonempty
  | cons first others ih =>
    obtain ⟨reads, othersRead⟩ := List.forall_mem_cons.mp each
    cases others with
    | nil =>
      refine (reads within before parser (Token.quiet_cons rfl _ _)).append
        fun r₁ ⟨reached, ends⟩ => ?_
      refine .closing reached.within (by decide) rfl (ends _ rfl) fun r₂ behind => .nil ?_
      simpa using behind
    | cons second others =>
      simp only [List.map_cons, Pieces.join_cons_cons, Pieces.tokens_append, List.append_assoc,
        Pieces.tokens_semicolon, Pieces.tokens_blank, List.cons_append, List.nil_append]
      refine (reads within before parser (Token.quiet_cons rfl _ _)).append
        fun r₁ ⟨reached, ends⟩ => ?_
      have step : Parse.step r₁.parser (.plain .terminator ";") = some ⟨.member,
          .members .synthetic .literal (first.unplaced :: done) :: frames⟩ := ends _ rfl
      refine .semicolon reached.within step fun r₂ behind _ => ?_
      have leads := ih othersRead (by simp) behind.toWithin (.inr behind.before) behind.parser
      simpa using leads

theorem reads_literal {loc : Location} {members : List Node}
    (each : ∀ m ∈ members, ReadsType layout awaiting .signature m) :
    ReadsType layout awaiting .single (.typeLiteral loc members) := by
  intro depth stack frames r rest due opens quiet
  have opened : Parse.step r.parser (.plain .objectBrace "\x7b") =
      some ⟨.member, .members .synthetic .literal [] :: frames⟩ := by rw [due.parser]; rfl
  have closed (r : Reader) (behind : Behind stack awaiting .rightBrace .rightBrace
      ⟨.typeOperator ⟨.typeLiteral .synthetic (members.map Node.unplaced), .synthetic, none⟩,
        frames⟩ r) : TypeReached stack awaiting r ∧ ∃ bare, r.parser =
          ⟨.typeOperator ⟨(Node.typeLiteral loc members).unplaced, .synthetic, bare⟩, frames⟩ :=
    ⟨behind.typeReached rfl, none, by simp [behind.parser, Node.unplaced]⟩
  by_cases none : members = []
  · subst none
    refine .objectBrace due.within (opens rfl) opened fun r₁ behind => ?_
    refine .closing behind.toWithin (by decide) rfl (by rw [behind.parser]; rfl)
      fun r₂ behind => .nil (closed r₂ behind)
  cases layout with
  | compact =>
    have pieces : tokens (Pieces.node .compact depth (.typeLiteral loc members)) =
        .plain .leftBrace "\x7b" :: ((members.flatMap fun m => tokens (Pieces.terminated
          (Pieces.node .compact depth m)) ++ []) ++ [.plain .rightBrace "\x7d"]) := by
      simp [Pieces.node, Pieces.typeLiteral, none, Pieces.tokens_flatten, List.flatMap,
        Function.comp_def]
    rw [pieces]
    refine .objectBrace due.within (opens rfl) opened fun r₁ behind => ?_
    refine (Leads.members (.inl rfl) each behind.toWithin (.inl behind.before) behind.parser).append
      fun r₂ arrived => ?_
    obtain ⟨within, parser, -⟩ := arrived
    refine .closing within (by decide) rfl (by rw [parser]; rfl)
      fun r₃ behind => .nil (closed r₃ ?_)
    simpa using behind
  | pretty =>
    have pieces : tokens (Pieces.node .pretty depth (.typeLiteral loc members)) =
        .plain .leftBrace "\x7b" :: (tokens (Pieces.join [Pieces.semicolon, .blank]
          (members.map (Pieces.node .pretty depth))) ++ [.plain .rightBrace "\x7d"]) := by
      simp [Pieces.node, Pieces.typeLiteral, none]
    rw [pieces]
    refine .objectBrace due.within (opens rfl) opened fun r₁ behind => ?_
    exact (Leads.joinedMembers each none behind.toWithin (.inl behind.before)
      behind.parser).mono closed

/-- The separator between the members of a union. -/
def bars (layout : Layout) : List Piece :=
  Pieces.space layout ++ .token .bar "|" :: Pieces.space layout

@[simp] theorem tokens_bars (layout : Layout) : tokens (bars layout) = [.plain .bar "|"] := by
  simp [bars]

/-- The members of a union behind the first bar. -/
theorem Leads.unionMembers {members : List Node}
    (each : ∀ m ∈ members, ReadsType layout awaiting .single m)
    (noLiteral : awaiting = false → ∀ m ∈ members, isLiteral m = false) (nonempty : members ≠ [])
    {done : List Node} (due : TypeDue stack awaiting (.union .synthetic done :: frames) r)
    (last : r.terminators.last = some .bar) (quiet : Quiet rest) :
    Leads r (tokens (Pieces.join (bars layout) (members.map (Pieces.node layout depth)))) rest
      fun r => TypeReached stack awaiting r ∧ TypeEnds
        (.unionType .synthetic (done.reverse ++ members.map Node.unplaced)) frames r.parser := by
  induction members generalizing r done with
  | nil => exact absurd rfl nonempty
  | cons first others ih =>
    obtain ⟨reads, othersRead⟩ := List.forall_mem_cons.mp each
    have opens : isLiteral first = true → opensObject awaiting r.terminators.last = true := by
      intro literal
      cases awaiting with
      | true => simp [last, opensObject, TokenKind.precedesTypeBrace]
      | false => simp [noLiteral rfl first List.mem_cons_self] at literal
    cases others with
    | nil =>
      refine (reads due opens quiet).mono fun r' arrived => ?_
      obtain ⟨reached, bare, parser⟩ := arrived
      refine ⟨reached, ?_⟩
      rw [parser]
      intro t isEnd
      rw [Parse.typeEnds_operator _ _ _ t isEnd]
      simp [Parse.typeEnd, Frame.closeType]
    | cons second others =>
      simp only [List.map_cons, Pieces.join_cons_cons, Pieces.tokens_append, List.append_assoc,
        tokens_bars, List.cons_append, List.nil_append]
      refine (reads due opens (Token.quiet_cons rfl _ _)).append
        fun r₁ arrived => ?_
      obtain ⟨reached, bare, parser⟩ := arrived
      have step : Parse.step r₁.parser (.plain .bar "|") =
          some ⟨.typeOperand, .union .synthetic (first.unplaced :: done) :: frames⟩ := by
        rw [parser]
        rfl
      refine .sign reached.within (by decide) rfl rfl step fun r₂ behind => ?_
      have leads := ih othersRead (fun outside m mem => noLiteral outside m (.tail _ mem)) (by simp)
        (behind.typeDue (by decide)) behind.last
      simpa using leads

theorem reads_union {loc : Location} {first : Node} {others : List Node}
    (leading : ReadsType layout awaiting .single first)
    (each : ∀ m ∈ others, ReadsType layout awaiting .single m) (several : others ≠ [])
    (noLiteral : awaiting = false → ∀ m ∈ others, isLiteral m = false)
    (plain : ∀ m ∈ first :: others, ∀ ps, Pieces.unionMember m ps = ps) :
    ReadsType layout awaiting .type (.unionType loc (first :: others)) := by
  intro depth stack frames r rest due opens noUnion quiet
  have pieces : tokens (Pieces.node layout depth (.unionType loc (first :: others))) =
      tokens (Pieces.node layout depth first) ++ .plain .bar "|" ::
        tokens (Pieces.join (bars layout) (others.map (Pieces.node layout depth))) := by
    have members : (first :: others).zipWith Pieces.unionMember
        ((first :: others).map (Pieces.node layout depth)) =
          (first :: others).map (Pieces.node layout depth) := by
      rw [List.zipWith_map_right, List.zipWith_self]
      exact List.map_congr_left fun m mem => plain m mem _
    obtain ⟨second, rest, rfl⟩ := List.exists_cons_of_ne_nil several
    simp only [Pieces.node, Pieces.nodes_eq_map, members]
    simp only [List.map_cons, Pieces.join_cons_cons, Pieces.tokens_append]
    simp [bars]
  rw [pieces]
  refine (leading due (fun _ => opens) (Token.quiet_cons rfl _ _)).append
    fun r₁ arrived => ?_
  obtain ⟨reached, bare, parser⟩ := arrived
  have step : Parse.step r₁.parser (.plain .bar "|") =
      some ⟨.typeOperand, .union .synthetic [first.unplaced] :: frames⟩ := by
    rw [parser]
    cases frames with
    | nil => rfl
    | cons frame below =>
      cases frame with
      | union start done => exact absurd rfl (noUnion start done below)
      | _ => rfl
  refine .sign reached.within (by decide) rfl rfl step fun r₂ behind => ?_
  refine (Leads.unionMembers each noLiteral several (behind.typeDue (by decide)) behind.last
    quiet).mono fun r₃ arrived => ?_
  obtain ⟨reached, ends⟩ := arrived
  refine ⟨reached, ?_⟩
  simpa [Node.unplaced] using ends

theorem reads_single (inner : ReadsType layout awaiting .single node) :
    ReadsType layout awaiting .type node := by
  intro depth stack frames r rest due opens _ quiet
  refine (inner due (fun _ => opens) quiet).mono fun r' ⟨reached, bare, parser⟩ => ⟨reached, ?_⟩
  rw [parser]
  exact Parse.typeEnds_operator _ _ _

/-- The types that are written are read back. -/
theorem reads_of_fits {inResult : Bool} {form : TypeForm} (fits : FitsType inResult form node)
    (layout : Layout) : ReadsType layout inResult form node := by
  induction fits with
  | word mem => exact reads_word mem
  | named isName noWord => exact reads_named isName noWord
  | applied isName nonempty each ih => exact reads_applied isName nonempty ih
  | literal each ih => exact reads_literal ih
  | single inner ih => exact reads_single ih
  | union leading several each noLiteral ihFirst ihOthers =>
    refine reads_union ihFirst ihOthers several noLiteral fun m mem ps => ?_
    have single : FitsType inResult .single m := by
      rcases List.mem_cons.mp mem with rfl | mem
      · exact leading
      · exact each m mem
    cases single <;> rfl
  | signature settled inner ih => exact reads_signature settled ih

end Reader

end TypeGloss
