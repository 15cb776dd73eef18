import TypeGloss.Proofs.PieceText

/-!
# Printed tokens stay apart

The text of pieces is scanned into their tokens if no token runs together with what follows it.
What may follow an expression is known from its first code point alone: it is none that could
prolong a word or a number. So pieces can be put together without looking at how they end.
-/

namespace TypeGloss

open Lexeme (Spells Stops StopsNumber glues signs isWordText isWordPart IsName)

namespace Lexeme

/-- A sign that no code point prolongs. -/
def isFinal (sign : Text) : Bool :=
  (signs.all fun other => !sign.isPrefixOf other.1 || other.1 = sign) && sign ≠ "." && sign ≠ "/"

theorem glues_of_isFinal {sign : Text} (final : isFinal sign = true) (c : CodePoint) :
    glues sign c = false := by
  simp only [isFinal, Bool.and_eq_true, List.all_eq_true, Bool.or_eq_true, decide_eq_true_eq,
    Bool.not_eq_true'] at final
  obtain ⟨⟨alone, noPoint⟩, noSlash⟩ := final
  simp only [glues, noPoint, noSlash, decide_false, Bool.false_and, Bool.or_false,
    List.any_eq_false]
  intro other mem longer
  obtain ⟨more, eq⟩ := List.isPrefixOf_iff_prefix.mp longer
  rcases alone other mem with differs | same
  · have within : sign.isPrefixOf other.1 = true :=
      List.isPrefixOf_iff_prefix.mpr ⟨c :: more, by simpa using eq⟩
    rw [within] at differs
    cases differs
  · have lengths := congrArg List.length eq
    rw [same] at lengths
    simp at lengths

/-- The code points that prolong signs. -/
def prolonging : List CodePoint :=
  [.scalar '=', .scalar '?', .scalar '|', .scalar '&', .scalar '>', .scalar '/', .scalar '*',
    .scalar '+', .scalar '-']

/-- A sign is only prolonged by few code points, and by a plus or a minus only if it is one. -/
theorem prolonging_of_glues {sign : Text} {c : CodePoint} (some : sign ≠ []) (noPoint : sign ≠ ".")
    (longer : glues sign c = true) :
    c ∈ prolonging ∧ (c = .scalar '+' ∨ c = .scalar '-' → sign = [c]) := by
  simp only [glues, noPoint, decide_false, Bool.false_and, Bool.or_false, Bool.or_eq_true,
    List.any_eq_true, Bool.and_eq_true, decide_eq_true_eq] at longer
  rcases longer with ⟨other, mem, isPrefix⟩ | ⟨rfl, rfl | rfl⟩
  · obtain ⟨more, eq⟩ := List.isPrefixOf_iff_prefix.mp isPrefix
    have all : ∀ other ∈ signs, ∀ i < other.1.length, 0 < i →
        (∀ c ∈ other.1[i]?, c ∈ prolonging ∧
          (c = .scalar '+' ∨ c = .scalar '-' → other.1.take i = [c])) := by decide
    have length : sign.length < other.1.length := by simp [← eq]
    have found := all other mem sign.length length (List.length_pos_iff.mpr some) c
    rw [← eq] at found
    simpa using found
  · exact ⟨by decide, by rintro (h | h) <;> cases h⟩
  · exact ⟨by decide, by rintro (h | h) <;> cases h⟩

/-- Kinds of tokens that an expression starts with, and all reserved words. -/
def opensOperand : TokenKind → Bool
  | .keyword _ | .name | .number | .string | .template | .leftParen | .leftBracket | .leftBrace
  | .additive | .bang | .tilde | .incDec => true
  | _ => false

theorem ne_nil_of_spells {kind : TokenKind} {t : Text} (spells : Spells kind t) : t ≠ [] := by
  have signsSome : ∀ sign ∈ signs, sign.1 ≠ [] := by decide
  rintro rfl
  cases kind with
  | name => exact absurd spells.1 (by decide)
  | keyword word =>
    have isWord := isWordText_spelling word
    rw [← show [] = word.spelling from spells] at isWord
    cases isWord
  | number =>
    obtain ⟨c, rest, impossible, -⟩ := head_of_isNumber spells
    cases impossible
  | string | template => cases (show quoted? [] = _ from spells)
  | _ => exact signsSome _ spells rfl

/-- The first code point of an expression prolongs no sign but its own. -/
theorem glues_of_opensOperand {kind : TokenKind} {t : Text} (opens : opensOperand kind = true)
    (spells : Spells kind t) {sign : Text} (some : sign ≠ []) (noPoint : sign ≠ ".")
    (apart : sign = "+" ∨ sign = "-" → t.head? ≠ sign.head?) {c : CodePoint}
    (head : t.head? = Option.some c) : glues sign c = false := by
  by_contra longer
  rw [Bool.not_eq_false] at longer
  obtain ⟨mem, own⟩ := prolonging_of_glues some noPoint longer
  have inSigns : ∀ s ∈ signs, opensOperand s.2 = true → ∀ c ∈ s.1.head?, c ∈ prolonging →
      c = .scalar '+' ∨ c = .scalar '-' := by decide
  have bySign : (t, kind) ∈ signs → False := by
    intro isSign
    have plusOrMinus := inSigns _ isSign opens c head mem
    have same := own plusOrMinus
    refine apart ?_ (by rw [head, same]; rfl)
    rcases plusOrMinus with rfl | rfl
    · exact .inl same
    · exact .inr same
  have noWord : isWordStart c = true → False := by
    have all : ∀ c ∈ prolonging, isWordStart c = false := by decide
    intro start
    rw [all c mem] at start
    cases start
  have byWord : isWordText t = true → False := by
    intro word
    obtain ⟨d, rest, rfl, start⟩ := isWordStart_of_isWordText word
    obtain rfl : d = c := by simpa using head
    exact noWord start
  cases kind with
  | name => exact byWord spells.1
  | keyword word =>
    have same : t = word.spelling := spells
    exact byWord (same ▸ isWordText_spelling word)
  | number =>
    obtain ⟨d, rest, rfl, digit⟩ := head_of_isNumber spells
    obtain rfl : d = c := by simpa using head
    have all : ∀ c ∈ prolonging, c.isDecimalDigit = false ∧ c ≠ .scalar '.' := by decide
    rcases digit with digit | point
    · rw [(all _ mem).1] at digit
      cases digit
    · exact (all _ mem).2 point
  | string | template =>
    obtain ⟨d, rest, rfl, quote⟩ := quoted?_head spells
    obtain rfl : d = c := by simpa using head
    rcases quote with rfl | rfl | rfl <;> exact absurd mem (by decide)
  | _ => exact bySign spells

/-- A text that no lexeme starts with, whatever follows it. -/
def IsTorn (t : Text) : Prop := t ≠ [] ∧ ∀ rest, ofText? (t ++ rest) = none

/-- Nothing stands behind a token at the end of a text. -/
theorem stops_nil (kind : TokenKind) (t : Text) : Stops kind t [] := by
  cases kind with
  | number => exact ⟨nofun, nofun, rfl⟩
  | string | template => trivial
  | _ => exact nofun

end Lexeme

/-- Whether the text of a piece starts with a lexeme. -/
def Piece.isWhole : Piece → Bool
  | .blank => true
  | .token _ t => (Lexeme.ofText? t).isSome

theorem Piece.isWhole_of_spells {kind : TokenKind} {t : Text} (spells : Spells kind t) :
    Piece.isWhole (.token kind t) = true := by
  have found := Lexeme.ofText?_append spells (Lexeme.stops_nil kind t)
  rw [List.append_nil] at found
  rw [Piece.isWhole, found]
  rfl

namespace Pieces

/-- Pieces whose tokens are spelled like their kinds and do not run together. If `torn` is set, some
may be torn instead. -/
def Separate (torn : Prop) : List Piece → Prop
  | [] => True
  | .blank :: ps => Separate torn ps
  | .token kind t :: ps =>
    (Spells kind t ∧ Stops kind t (text ps) ∨ torn ∧ Lexeme.IsTorn t) ∧ Separate torn ps

variable {torn : Prop}

/-- The text of separate pieces is scanned into their tokens, if none is torn. -/
theorem symbols_text {ps : List Piece} (separate : Separate torn ps) :
    Token.symbols (text ps) = if ps.all Piece.isWhole then some (tokens ps) else none := by
  induction ps with
  | nil => rfl
  | cons p ps ih =>
    cases p with
    | blank =>
      rw [text_cons, tokens_blank, List.all_cons, Piece.isWhole, Bool.true_and, ← ih separate]
      exact Token.symbols_blank (text ps)
    | token kind t =>
      obtain ⟨⟨spells, stops⟩ | ⟨-, some, isTorn⟩, later⟩ := separate
      · rw [text_cons, text_token, tokens_token, Token.symbols_append
          (Lexeme.ne_nil_of_spells spells) (Lexeme.ofText?_append spells stops), ih later,
          List.all_cons, Piece.isWhole_of_spells spells, Bool.true_and]
        split <;> rfl
      · have unknown : Piece.isWhole (.token kind t) = false := by
          have alone := isTorn []
          rw [List.append_nil] at alone
          rw [Piece.isWhole, alone]
          rfl
        rw [text_cons, text_token, List.all_cons, unknown]
        exact Token.symbols_eq_none (by simp [some]) (isTorn _)

theorem Separate.isWhole {ps : List Piece} (separate : Separate False ps) :
    ps.all Piece.isWhole = true := by
  induction ps with
  | nil => rfl
  | cons p ps ih =>
    cases p with
    | blank => exact ih separate
    | token kind t =>
      obtain ⟨⟨spells, -⟩ | ⟨impossible, -⟩, later⟩ := separate
      · rw [List.all_cons, Piece.isWhole_of_spells spells, ih later]
        rfl
      · exact impossible.elim

/-- Pieces that stay separate before everything that ends a word and a number. -/
structure Scannable (torn : Prop) (ps : List Piece) : Prop where
  separate : ∀ rest, StopsNumber (text rest) → Separate torn rest → Separate torn (ps ++ rest)

/-- Pieces that stay separate before everything. -/
structure Closed (torn : Prop) (ps : List Piece) : Prop where
  separate : ∀ rest, Separate torn rest → Separate torn (ps ++ rest)

/-- Pieces whose start ends a word and a number. -/
structure Stopping (ps : List Piece) : Prop where
  stops : ∀ rest, StopsNumber (text (ps ++ rest))

theorem Closed.scannable {ps : List Piece} (closed : Closed torn ps) : Scannable torn ps :=
  ⟨fun rest _ separate => closed.separate rest separate⟩

theorem Closed.nil : Closed torn [] := ⟨fun _ separate => separate⟩

theorem Closed.append {ps qs : List Piece} (first : Closed torn ps) (second : Closed torn qs) :
    Closed torn (ps ++ qs) := by
  refine ⟨fun rest separate => ?_⟩
  rw [List.append_assoc]
  exact first.separate _ (second.separate rest separate)

/-- Closed pieces may be followed by any others. -/
theorem Closed.before {ps qs : List Piece} (first : Closed torn ps) (second : Scannable torn qs) :
    Scannable torn (ps ++ qs) := by
  refine ⟨fun rest stops separate => ?_⟩
  rw [List.append_assoc]
  exact first.separate _ (second.separate rest stops separate)

theorem Scannable.append {ps qs : List Piece} (first : Scannable torn ps)
    (second : Scannable torn qs) (stopping : Stopping qs) : Scannable torn (ps ++ qs) := by
  refine ⟨fun rest stops separate => ?_⟩
  rw [List.append_assoc]
  exact first.separate _ (stopping.stops rest) (second.separate rest stops separate)

/-- Closed pieces close those before them, if they end a word and a number. -/
theorem Scannable.close {ps qs : List Piece} (first : Scannable torn ps) (second : Closed torn qs)
    (stopping : Stopping qs) : Closed torn (ps ++ qs) := by
  refine ⟨fun rest separate => ?_⟩
  rw [List.append_assoc]
  exact first.separate _ (stopping.stops rest) (second.separate rest separate)

theorem Stopping.append {ps : List Piece} (first : Stopping ps) (qs : List Piece) :
    Stopping (ps ++ qs) := by
  refine ⟨fun rest => ?_⟩
  rw [List.append_assoc]
  exact first.stops _

private theorem stopsNumber_cons {c : CodePoint} {rest : Text} (noWord : isWordPart c = false)
    (noDigit : c.isDecimalDigit = false) (noPoint : c ≠ .scalar '.') :
    StopsNumber (c :: rest) where
  noWord := by simp [noWord]
  noDigit := by simp [noDigit]
  noFraction := by
    unfold Lexeme.fractionLength
    split
    · simp_all
    · rfl

theorem Stopping.blank (ps : List Piece) : Stopping (.blank :: ps) :=
  ⟨fun _ => stopsNumber_cons (by decide) (by decide) (by decide)⟩

/-- A sign other than a point ends every word and every number. -/
theorem Stopping.sign {kind : TokenKind} {t : Text} (mem : (t, kind) ∈ signs) (noPoint : t ≠ ".")
    (ps : List Piece) : Stopping (.token kind t :: ps) := by
  have all : ∀ sign ∈ signs, sign.1 ≠ "." → sign.1 ≠ [] ∧ ∀ c ∈ sign.1.head?,
      isWordPart c = false ∧ c.isDecimalDigit = false ∧ c ≠ .scalar '.' := by decide
  obtain ⟨some, apart⟩ := all _ mem noPoint
  obtain ⟨c, rest, rfl⟩ := List.exists_cons_of_ne_nil some
  obtain ⟨noWord, noDigit, other⟩ := apart c rfl
  exact ⟨fun _ => stopsNumber_cons noWord noDigit other⟩

theorem Scannable.blank {ps : List Piece} (later : Scannable torn ps) :
    Scannable torn (.blank :: ps) :=
  ⟨later.separate⟩

theorem Closed.blank {ps : List Piece} (later : Closed torn ps) : Closed torn (.blank :: ps) :=
  ⟨later.separate⟩

private theorem stops_sign {kind : TokenKind} {t rest : Text} (mem : (t, kind) ∈ signs)
    (apart : ∀ c ∈ rest.head?, glues t c = false) : Stops kind t rest := by
  have noWord : ∀ sign ∈ signs, sign.2 ≠ .name ∧ sign.2 ≠ .number ∧ sign.2.isKeyword = false := by
    decide
  obtain ⟨noName, noNumber, noKeyword⟩ := noWord _ mem
  cases kind with
  | name => exact absurd rfl noName
  | number => exact absurd rfl noNumber
  | keyword word => cases noKeyword
  | string | template => trivial
  | _ => exact apart

/-- A sign that nothing prolongs. -/
theorem Closed.sign {kind : TokenKind} {t : Text} (mem : (t, kind) ∈ signs)
    (final : Lexeme.isFinal t = true) : Closed torn [.token kind t] :=
  ⟨fun _ separate => ⟨.inl ⟨Lexeme.spells_of_mem_signs mem,
    stops_sign mem fun c _ => Lexeme.glues_of_isFinal final c⟩, separate⟩⟩

theorem Scannable.cons {p : Piece} {ps : List Piece} (first : Closed torn [p])
    (later : Scannable torn ps) : Scannable torn (p :: ps) := first.before later

theorem Closed.cons {p : Piece} {ps : List Piece} (first : Closed torn [p])
    (later : Closed torn ps) : Closed torn (p :: ps) := first.append later

theorem Scannable.prepend {p : Piece} {ps : List Piece} (first : Scannable torn [p])
    (later : Scannable torn ps) (stopping : Stopping ps) : Scannable torn (p :: ps) :=
  first.append later stopping

/-- The signs that nothing prolongs. -/
def marks : List Piece :=
  [leftParen, rightParen, leftBrace, rightBrace, leftBracket, rightBracket, comma, semicolon, colon,
    newline, arrow, .token .less "<", .token .greater ">"]

theorem Closed.mark {p : Piece} (mem : p ∈ marks) : Closed torn [p] := by
  have all : ∀ p ∈ marks, ∃ kind t, p = .token kind t ∧ (t, kind) ∈ signs ∧
      Lexeme.isFinal t = true := by
    simp only [marks, List.forall_mem_cons, List.not_mem_nil, IsEmpty.forall_iff, implies_true,
      and_true]
    refine ⟨?_, ?_, ?_, ?_, ?_, ?_, ?_, ?_, ?_, ?_, ?_, ?_, ?_⟩ <;>
      exact ⟨_, _, rfl, by decide, by decide⟩
  obtain ⟨kind, t, rfl, isSign, final⟩ := all p mem
  exact .sign isSign final

theorem Stopping.mark {p : Piece} (mem : p ∈ marks) (ps : List Piece) : Stopping (p :: ps) := by
  have all : ∀ p ∈ marks, ∃ kind t, p = .token kind t ∧ (t, kind) ∈ signs ∧ t ≠ "." := by
    simp only [marks, List.forall_mem_cons, List.not_mem_nil, IsEmpty.forall_iff, implies_true,
      and_true]
    refine ⟨?_, ?_, ?_, ?_, ?_, ?_, ?_, ?_, ?_, ?_, ?_, ?_, ?_⟩ <;>
      exact ⟨_, _, rfl, by decide, by decide⟩
  obtain ⟨kind, t, rfl, isSign, noPoint⟩ := all p mem
  exact .sign isSign noPoint ps

theorem Scannable.ended {p : Piece} {ps : List Piece} (inner : Scannable torn ps)
    (mem : p ∈ marks) : Closed torn (ps ++ [p]) := inner.close (.mark mem) (.mark mem [])

/-- A word that may stand for a name. -/
theorem spells_wordKind {t : Text} (word : isWordText t = true) : Spells (wordKind t) t := by
  unfold wordKind
  cases found : Keyword.ofSpelling? t with
  | none => exact ⟨word, found⟩
  | some keyword =>
    have same := List.find?_some found
    simpa [Spells, eq_comm] using same

private theorem stops_of_stopsNumber {kind : TokenKind} {t rest : Text} (stops : StopsNumber rest)
    (text : kind.isKeyword = true ∨ kind ∈ [TokenKind.name, .number, .string, .template]) :
    Stops kind t rest := by
  cases kind with
  | name | keyword => exact stops.noWord
  | number => exact stops
  | string | template => trivial
  | _ => simp [TokenKind.isKeyword] at text

theorem Scannable.keyword (word : Keyword) : Scannable torn [keyword word] :=
  ⟨fun _ stops separate => ⟨.inl ⟨show word.spelling = word.spelling from rfl,
    stops_of_stopsNumber stops (.inl rfl)⟩, separate⟩⟩

theorem Scannable.name {t : Text} (word : isWordText t = true) : Scannable torn [name t] := by
  refine ⟨fun rest stops separate => ?_⟩
  refine ⟨.inl ⟨spells_wordKind word, stops_of_stopsNumber stops ?_⟩, separate⟩
  unfold wordKind
  cases Keyword.ofSpelling? t with
  | none => exact .inr (by decide)
  | some keyword => exact .inl rfl

theorem Scannable.selector {t : Text} (word : isWordText t = true) :
    Scannable torn [dot, Pieces.name t] := by
  refine ⟨fun rest stops separate => ?_⟩
  refine ⟨.inl ⟨by simp only [Spells]; decide, ?_⟩,
    (Scannable.name word).separate rest stops separate⟩
  obtain ⟨c, t, rfl, start⟩ := Lexeme.isWordStart_of_isWordText word
  rintro d ⟨⟩
  have noDigit := Lexeme.isDecimalDigit_of_isWordStart start
  have alone : ∀ other ∈ signs, ("." : Text).isPrefixOf other.1 = true → other.1 = "." := by decide
  simp only [glues, noDigit, Bool.and_false, Bool.or_false, List.any_eq_false, Bool.or_eq_false_iff]
  refine ⟨fun other mem longer => ?_, by simp [Text.ofString]⟩
  obtain ⟨more, eq⟩ := List.isPrefixOf_iff_prefix.mp longer
  have same := alone other mem
    (List.isPrefixOf_iff_prefix.mpr ⟨c :: more, by simpa using eq⟩)
  rw [same] at eq
  cases eq

theorem Stopping.selector {t : Text} (word : isWordText t = true) (ps : List Piece) :
    Stopping (dot :: Pieces.name t :: ps) := by
  obtain ⟨c, t, rfl, start⟩ := Lexeme.isWordStart_of_isWordText word
  have noDigit := Lexeme.isDecimalDigit_of_isWordStart start
  refine ⟨fun rest => ⟨?_, ?_, ?_⟩⟩
  · rintro d ⟨⟩
    decide
  · rintro d ⟨⟩
    decide
  · have run : Lexeme.runLength CodePoint.isDecimalDigit (c :: t ++ text (ps ++ rest)) = 0 := by
      simp [Lexeme.runLength, noDigit]
    change Lexeme.fractionLength (.scalar '.' :: (c :: t ++ text (ps ++ rest))) = 0
    simp only [Lexeme.fractionLength, run, if_true]

theorem Scannable.literal {kind : TokenKind} {t : Text} (spells : Spells kind t)
    (isLiteral : kind ∈ [TokenKind.number, .string, .template]) :
    Scannable torn [.token kind t] :=
  ⟨fun _ stops separate => ⟨.inl ⟨spells,
    stops_of_stopsNumber stops (.inr (List.mem_cons_of_mem _ isLiteral))⟩, separate⟩⟩

/-- A quoted text that is torn, where some may be. -/
theorem Scannable.ofTorn {t : Text} (allowed : torn) (isTorn : Lexeme.IsTorn t) :
    Scannable torn [.token .string t] :=
  ⟨fun _ _ separate => ⟨.inr ⟨allowed, isTorn⟩, separate⟩⟩

/-- Pieces that start like an expression. -/
def Opens (ps : List Piece) : Prop :=
  ∃ kind t rest, ps = .token kind t :: rest ∧ Lexeme.opensOperand kind = true ∧ Spells kind t

theorem Opens.append {ps : List Piece} (opens : Opens ps) (qs : List Piece) :
    Opens (ps ++ qs) := by
  obtain ⟨kind, t, rest, rfl, isOperand, spells⟩ := opens
  exact ⟨kind, t, rest ++ qs, rfl, isOperand, spells⟩

theorem Opens.head_append {ps : List Piece} (opens : Opens ps) (qs : List Piece) :
    (text (ps ++ qs)).head? = (text ps).head? := by
  obtain ⟨kind, t, rest, rfl, -, spells⟩ := opens
  obtain ⟨c, t, rfl⟩ := List.exists_cons_of_ne_nil (Lexeme.ne_nil_of_spells spells)
  rfl

/-- A sign before an expression that does not start with the same plus or minus. -/
theorem Scannable.signBefore {kind : TokenKind} {t : Text} {ps : List Piece}
    (mem : (t, kind) ∈ signs) (noPoint : t ≠ ".") (opens : Opens ps)
    (apart : t = "+" ∨ t = "-" → (text ps).head? ≠ t.head?) (later : Scannable torn ps) :
    Scannable torn (.token kind t :: ps) := by
  refine ⟨fun rest stops separate => ?_⟩
  have spells := Lexeme.spells_of_mem_signs mem
  refine ⟨.inl ⟨spells, stops_sign mem ?_⟩, later.separate rest stops separate⟩
  intro c head
  change c ∈ (text (ps ++ rest)).head? at head
  rw [opens.head_append] at head
  obtain ⟨kind', t', qs, rfl, isOperand, spells'⟩ := opens
  obtain ⟨d, t', rfl⟩ := List.exists_cons_of_ne_nil (Lexeme.ne_nil_of_spells spells')
  exact Lexeme.glues_of_opensOperand isOperand spells' (Lexeme.ne_nil_of_spells spells) noPoint
    apart head

/-- A sign before a blank. -/
theorem Scannable.signBlank {kind : TokenKind} {t : Text} {ps : List Piece}
    (mem : (t, kind) ∈ signs) (noPoint : t ≠ ".") (later : Scannable torn ps) :
    Scannable torn (.token kind t :: .blank :: ps) := by
  refine ⟨fun rest stops separate => ?_⟩
  have spells := Lexeme.spells_of_mem_signs mem
  refine ⟨.inl ⟨spells, stops_sign mem ?_⟩, later.separate rest stops separate⟩
  rintro c ⟨⟩
  by_contra longer
  rw [Bool.not_eq_false] at longer
  have mem := (Lexeme.prolonging_of_glues (Lexeme.ne_nil_of_spells spells) noPoint longer).1
  exact absurd mem (by decide)

theorem Closed.space (layout : Layout) : Closed torn (space layout) := by
  cases layout
  · exact .nil
  · exact .blank .nil

theorem Scannable.spaced {ps : List Piece} (layout : Layout) (later : Scannable torn ps) :
    Scannable torn (space layout ++ ps) := (Closed.space layout).before later

/-- A sign other than a plus or a minus, before an expression. -/
theorem Scannable.signSpaced {kind : TokenKind} {t : Text} {ps : List Piece} (layout : Layout)
    (mem : (t, kind) ∈ signs) (other : t ∉ [Text.ofString ".", "+", "-"]) (opens : Opens ps)
    (later : Scannable torn ps) : Scannable torn (.token kind t :: (space layout ++ ps)) := by
  simp only [List.mem_cons, List.not_mem_nil, or_false, not_or] at other
  obtain ⟨noPoint, noPlus, noMinus⟩ := other
  cases layout with
  | compact => exact .signBefore mem noPoint opens (by simp [noPlus, noMinus]) later
  | pretty => exact .signBlank mem noPoint later

theorem Stopping.spaced {ps : List Piece} (layout : Layout) (later : Stopping ps) :
    Stopping (space layout ++ ps) := by
  cases layout
  · exact later
  · exact .blank ps

theorem Closed.indent (depth : Nat) : Closed torn (indent depth) := by
  induction depth with
  | zero => exact .nil
  | succ depth ih => exact .blank (.blank ih)

theorem Closed.blankIf (needed : Bool) : Closed torn (blankIf needed) := by
  cases needed
  · exact .nil
  · exact .blank .nil

theorem Closed.parens {ps : List Piece} (inner : Scannable torn ps) : Closed torn (parens ps) :=
  .cons (.mark (by decide)) (inner.ended (by decide))

theorem Stopping.parens (ps : List Piece) : Stopping (parens ps) := .mark (by decide) _

theorem Scannable.wrapped {ps : List Piece} (isWrapped : Bool) (inner : Scannable torn ps) :
    Scannable torn (wrapped isWrapped ps) := by
  cases isWrapped
  · exact inner
  · exact (Closed.parens inner).scannable

theorem Scannable.join {separator : List Piece} {items : List (List Piece)}
    (closed : Closed torn separator) (stopping : Stopping separator)
    (each : ∀ ps ∈ items, Scannable torn ps) : Scannable torn (join separator items) := by
  induction items with
  | nil => exact Closed.nil.scannable
  | cons first rest ih =>
    obtain ⟨head, tail⟩ := List.forall_mem_cons.mp each
    cases rest with
    | nil => exact head
    | cons second rest => exact (head.close closed stopping).before (ih tail)

theorem Opens.join {first : List Piece} (opens : Opens first) (separator : List Piece)
    (rest : List (List Piece)) : Opens (Pieces.join separator (first :: rest)) := by
  cases rest with
  | nil => exact opens
  | cons second rest => exact (opens.append _).append _

/-- Types with bars between them. -/
theorem Scannable.bars {items : List (List Piece)} (layout : Layout)
    (each : ∀ ps ∈ items, Scannable torn ps ∧ Opens ps) :
    Scannable torn (Pieces.join (space layout ++ .token .bar "|" :: space layout) items) := by
  induction items with
  | nil => exact Closed.nil.scannable
  | cons first rest ih =>
    obtain ⟨head, tail⟩ := List.forall_mem_cons.mp each
    cases rest with
    | nil => exact head.1
    | cons second rest =>
      have opens : Opens (Pieces.join (space layout ++ .token .bar "|" :: space layout)
          (second :: rest)) := (tail second List.mem_cons_self).2.join _ _
      have later : Scannable torn (.token .bar "|" :: (space layout ++
          Pieces.join (space layout ++ .token .bar "|" :: space layout) (second :: rest))) :=
        .signSpaced layout (by decide) (by decide) opens (ih tail)
      rw [join_cons_cons, List.append_assoc, List.append_assoc]
      exact head.1.append (.spaced layout later) (.spaced layout (.sign (by decide) (by decide) _))

theorem Closed.join {separator : List Piece} {items : List (List Piece)}
    (closed : Closed torn separator) (each : ∀ ps ∈ items, Closed torn ps) :
    Closed torn (join separator items) := by
  induction items with
  | nil => exact .nil
  | cons first rest ih =>
    obtain ⟨head, tail⟩ := List.forall_mem_cons.mp each
    cases rest with
    | nil => exact head
    | cons second rest => exact (head.append closed).append (ih tail)

theorem Closed.flatten {items : List (List Piece)} (each : ∀ ps ∈ items, Closed torn ps) :
    Closed torn items.flatten := by
  induction items with
  | nil => exact .nil
  | cons first rest ih =>
    obtain ⟨head, tail⟩ := List.forall_mem_cons.mp each
    exact head.append (ih tail)

theorem Scannable.commas {items : List (List Piece)} (layout : Layout)
    (each : ∀ ps ∈ items, Scannable torn ps) : Scannable torn (commas layout items) :=
  .join (.cons (.mark (by decide)) (.space layout)) (.mark (by decide) _) each

theorem Closed.braced {lines : List (List Piece)} (layout : Layout) (depth : Nat)
    (each : ∀ ps ∈ lines, Closed torn ps) : Closed torn (braced layout depth lines) := by
  unfold Pieces.braced
  split
  · exact .cons (.mark (by decide)) (.mark (by decide))
  cases layout with
  | compact =>
    exact .cons (.mark (by decide)) ((Closed.flatten each).append (.mark (by decide)))
  | pretty =>
    have lines : Closed torn
        (Pieces.join [newline] (lines.map (Pieces.indent (depth + 1) ++ ·))) := by
      refine .join (.mark (by decide)) fun ps mem => ?_
      obtain ⟨line, isLine, rfl⟩ := List.mem_map.mp mem
      exact (Closed.indent (depth + 1)).append (each line isLine)
    have lastLine : Closed torn (newline :: Pieces.indent depth) :=
      .cons (.mark (by decide)) (.indent depth)
    exact .cons (.mark (by decide))
      (.cons (.mark (by decide)) ((lines.append lastLine).append (.mark (by decide))))

/-- The operators that are signs. -/
def symbolSigns : List Text :=
  ["||", "??", "&&", "==", "!=", "===", "!==", "<", ">", "<=", ">=", "+", "-", "*", "/", "%", "=",
    "+=", "-=", "*=", "/=", "%=", "??=", "||=", "&&=", "!", "~", "++", "--"]

/-- The operators that are words. -/
def wordSigns : List Text := ["typeof", "void", "delete", "instanceof"]

private theorem operator_symbol {sign : Text} (mem : sign ∈ symbolSigns) :
    (∃ kind, operator sign = [.token kind sign] ∧ (sign, kind) ∈ signs ∧ sign ≠ ".") ∨
      ∃ kind t, operator sign = [.token kind t, assign] ∧ (t, kind) ∈ signs ∧
        Lexeme.isFinal t = true ∧ sign ≠ "+" ∧ sign ≠ "-" := by
  have all : ∀ sign ∈ symbolSigns,
      (operator sign = [.token (operatorKind sign) sign] ∧ (sign, operatorKind sign) ∈ signs ∧
        sign ≠ ".") ∨
      ((operator sign = [.token .less "<", assign] ∨
        operator sign = [.token .greater ">", assign]) ∧ sign ≠ "+" ∧ sign ≠ "-") := by
    decide +kernel
  rcases all sign mem with single | ⟨less | greater, others⟩
  · exact .inl ⟨_, single⟩
  · exact .inr ⟨_, _, less, by decide, by decide, others⟩
  · exact .inr ⟨_, _, greater, by decide, by decide, others⟩

private theorem operator_word {sign : Text} (mem : sign ∈ wordSigns) :
    operator sign = [name sign] ∧ isWordText sign = true ∧ Layout.isWord sign = true := by
  have all : ∀ sign ∈ wordSigns, operator sign = [name sign] ∧ isWordText sign = true ∧
      Layout.isWord sign = true := by decide +kernel
  exact all sign mem

/-- An operator before an expression that does not start with the same plus or minus. -/
theorem Scannable.operatorBefore {sign : Text} {ps : List Piece} (mem : sign ∈ symbolSigns)
    (opens : Opens ps) (apart : sign = "+" ∨ sign = "-" → (text ps).head? ≠ sign.head?)
    (later : Scannable torn ps) : Scannable torn (operator sign ++ ps) := by
  rcases operator_symbol mem with ⟨kind, eq, isSign, noPoint⟩ | ⟨kind, t, eq, isSign, final, -, -⟩
  · rw [eq]
    exact .signBefore isSign noPoint opens apart later
  · rw [eq]
    refine .cons (.sign isSign final) (.signBefore (by decide) (by decide) opens ?_ later)
    exact fun impossible => absurd impossible (by decide)

/-- An operator before a blank. -/
theorem Scannable.operatorBlank {sign : Text} {ps : List Piece}
    (mem : sign ∈ symbolSigns ∨ sign ∈ wordSigns) (later : Scannable torn ps) :
    Scannable torn (operator sign ++ .blank :: ps) := by
  rcases mem with mem | mem
  · rcases operator_symbol mem with
      ⟨kind, eq, isSign, noPoint⟩ | ⟨kind, t, eq, isSign, final, -, -⟩
    · rw [eq]
      exact .signBlank isSign noPoint later
    · rw [eq]
      exact .cons (.sign isSign final) (.signBlank (by decide) (by decide) later)
  · obtain ⟨eq, word, -⟩ := operator_word mem
    rw [eq]
    exact .prepend (.name word) (.blank later) (.blank ps)

theorem Stopping.operator {sign : Text} (mem : sign ∈ symbolSigns) (ps : List Piece) :
    Stopping (operator sign ++ ps) := by
  rcases operator_symbol mem with ⟨kind, eq, isSign, noPoint⟩ | ⟨kind, t, eq, isSign, final, -, -⟩
  · rw [eq]
    exact .sign isSign noPoint ps
  · rw [eq]
    refine .sign isSign ?_ _
    rintro rfl
    cases final

theorem Scannable.between {left right : List Piece} {sign : Text} (layout : Layout)
    (mem : sign ∈ symbolSigns ∨ sign ∈ wordSigns) (first : Scannable torn left)
    (second : Scannable torn right) (opens : Opens right) :
    Scannable torn (between layout left sign right) := by
  unfold Pieces.between
  split
  · rw [List.append_assoc]
    exact first.append (.blank (.operatorBlank mem second)) (.blank _)
  rename_i compact
  simp only [Bool.or_eq_true, decide_eq_true_eq, not_or] at compact
  have isSymbol : sign ∈ symbolSigns := by
    rcases mem with mem | mem
    · exact mem
    · exact absurd (operator_word mem).2.2 compact.1
  have signed : Scannable torn (Pieces.operator sign ++
      (Pieces.blankIf (Layout.signsMeet sign (text right)) ++ right)) := by
    cases meet : Layout.signsMeet sign (text right) with
    | true => exact .operatorBlank (.inl isSymbol) second
    | false =>
      refine .operatorBefore isSymbol opens ?_ second
      intro plusOrMinus same
      change (text right).head? = _ at same
      rw [Layout.signsMeet, same] at meet
      rcases plusOrMinus with rfl | rfl <;> cases meet
  rw [List.append_assoc, List.append_assoc, List.append_assoc]
  refine first.append ((Closed.blankIf _).before signed) ?_
  cases Layout.signsMeet (text left) sign
  · exact .operator isSymbol _
  · exact .blank _

theorem Scannable.before {argument : List Piece} {sign : Text}
    (mem : sign ∈ symbolSigns ∨ sign ∈ wordSigns) (inner : Scannable torn argument)
    (opens : Opens argument) : Scannable torn (before sign argument) := by
  unfold Pieces.before
  rw [List.append_assoc]
  cases needed : Layout.isWord sign || (text argument).startsWith sign with
  | true => exact .operatorBlank mem inner
  | false =>
    simp only [Bool.or_eq_false_iff] at needed
    have isSymbol : sign ∈ symbolSigns := by
      rcases mem with mem | mem
      · exact mem
      · rw [(operator_word mem).2.2] at needed
        cases needed.1
    refine .operatorBefore isSymbol opens ?_ inner
    intro plusOrMinus same
    have starts := needed.2
    cases shape : text argument with
    | nil =>
      rcases plusOrMinus with rfl | rfl <;> simp [shape, Text.ofString] at same
    | cons c rest =>
      rcases plusOrMinus with rfl | rfl <;>
        simp_all [Text.startsWith, Text.ofString, List.isPrefixOf]

end Pieces

end TypeGloss
