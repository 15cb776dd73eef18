import TypeGloss.Proofs.PrintedScan
import Mathlib.Data.List.Forall2

/-!
# Tokens without what the layout decides

The layout decides where lines end and whether a semicolon stands directly before a closing brace.
What remains of the tokens of a text is condensed. The condensed tokens of pieces are found from the
end on, since a semicolon is dropped or kept for what follows it. So pieces are looked at as what
they add in front of others, and two lists of pieces agree if they add the same in front of all.
-/

namespace TypeGloss

namespace Token

/-- Whether a closing brace comes first. -/
def closes : List Token → Bool
  | t :: _ => t.kind = .rightBrace
  | [] => false

/-- The tokens but for each semicolon directly before a closing brace. -/
def withoutFinal : List Token → List Token
  | [] => []
  | t :: rest =>
    if t.kind = .semicolon ∧ closes rest = true then withoutFinal rest else t :: withoutFinal rest

theorem closes_plain (kind : TokenKind) (t : Text) (rest : List Token) :
    closes (.plain kind t :: rest) = decide (kind = .rightBrace) := rfl

theorem withoutFinal_plain (kind : TokenKind) (t : Text) (rest : List Token) :
    withoutFinal (.plain kind t :: rest) =
      if kind = .semicolon ∧ closes rest = true then withoutFinal rest
      else .plain kind t :: withoutFinal rest := rfl

/-- The tokens but for the ends of lines, and then for each semicolon directly before a closing
brace. -/
def condensed (ts : List Token) : List Token := withoutFinal (significant ts)

/-- The condensed tokens of a text without their places, if it can be scanned. -/
def condensedScan (t : Text) : Option (List Token) :=
  (scan t).toOption.map fun ts => condensed (ts.map unplaced)

theorem condensedScan_eq (t : Text) : condensedScan t = (symbols t).map condensed := by
  rw [symbols_eq, Option.map_map]
  rfl

end Token

/-- What pieces amount to: their condensed tokens, whether a closing brace comes first, and whether
none is torn. -/
structure Gist where
  tokens : List Token
  closing : Bool
  whole : Bool

/-- What a piece in front of others amounts to. -/
def Piece.addTo (p : Piece) (g : Gist) : Gist :=
  match p with
  | .blank => g
  | .token kind t =>
    let whole := (Piece.token kind t).isWhole && g.whole
    if kind = .newline then { g with whole }
    else if kind = .semicolon ∧ g.closing = true then { g with closing := false, whole }
    else { tokens := .plain kind t :: g.tokens, closing := kind = .rightBrace, whole }

namespace Pieces

/-- What pieces in front of others amount to. -/
def addTo (ps : List Piece) (g : Gist) : Gist := ps.foldr Piece.addTo g

@[simp] theorem addTo_nil (g : Gist) : addTo [] g = g := rfl

@[simp] theorem addTo_cons (p : Piece) (ps : List Piece) (g : Gist) :
    addTo (p :: ps) g = p.addTo (addTo ps g) := rfl

@[simp] theorem addTo_append (ps qs : List Piece) (g : Gist) :
    addTo (ps ++ qs) g = addTo ps (addTo qs g) := List.foldr_append

@[simp] theorem addTo_blank (g : Gist) : Piece.blank.addTo g = g := rfl

@[simp] theorem addTo_newline (g : Gist) : newline.addTo g = g := rfl

@[simp] theorem addTo_space (layout : Layout) (g : Gist) : addTo (space layout) g = g := by
  cases layout <;> rfl

@[simp] theorem addTo_blankIf (needed : Bool) (g : Gist) : addTo (blankIf needed) g = g := by
  cases needed <;> rfl

@[simp] theorem addTo_indent (depth : Nat) (g : Gist) : addTo (indent depth) g = g := by
  induction depth with
  | zero => rfl
  | succ depth ih => exact ih

/-- Pieces alone amount to their condensed tokens. -/
theorem addTo_empty (ps : List Piece) :
    addTo ps ⟨[], false, true⟩ =
      ⟨Token.condensed (tokens ps), Token.closes (Token.significant (tokens ps)),
        ps.all Piece.isWhole⟩ := by
  induction ps with
  | nil => rfl
  | cons p ps ih =>
    rw [addTo_cons, ih]
    cases p with
    | blank => rfl
    | token kind t =>
      rw [tokens_token, List.all_cons]
      by_cases line : kind = .newline
      · simp [Piece.addTo, line, Token.condensed, Token.significant, Token.plain]
      · have kept : Token.significant (.plain kind t :: tokens ps) =
            .plain kind t :: Token.significant (tokens ps) := by
          simp [Token.significant, Token.plain, line]
        simp only [Token.condensed, kept, Token.withoutFinal_plain, Token.closes_plain,
          Piece.addTo, if_neg line]
        split
        · rename_i final
          simp [final.1]
        · rfl

/-- Pieces that amount to the same in front of all others. -/
def Agree (ps qs : List Piece) : Prop := ∀ g, addTo ps g = addTo qs g

namespace Agree

variable {ps ps' qs qs' left left' right right' : List Piece} {items items' : List (List Piece)}

theorem refl (ps : List Piece) : Agree ps ps := fun _ => rfl

theorem append (first : Agree ps ps') (second : Agree qs qs') : Agree (ps ++ qs) (ps' ++ qs') :=
  fun g => by rw [addTo_append, addTo_append, second, first]

theorem cons (p : Piece) (later : Agree ps qs) : Agree (p :: ps) (p :: qs) :=
  (refl [p]).append later

theorem space : Agree (space .compact) (space .pretty) := refl []

theorem spaced (later : Agree ps qs) :
    Agree (Pieces.space .compact ++ ps) (Pieces.space .pretty ++ qs) := space.append later

theorem parens (inner : Agree ps qs) : Agree (parens ps) (parens qs) :=
  cons _ (inner.append (refl _))

theorem wrapped (isWrapped : Bool) (inner : Agree ps qs) :
    Agree (wrapped isWrapped ps) (wrapped isWrapped qs) := by
  cases isWrapped
  · exact inner
  · exact inner.parens

/-- Two ways to find the pieces of each part agree, if they do for all parts. -/
theorem map {α : Type} {parts : List α} {f g : α → List Piece}
    (each : ∀ part ∈ parts, Agree (f part) (g part)) :
    List.Forall₂ Agree (parts.map f) (parts.map g) := by
  rwa [List.forall₂_map_left_iff, List.forall₂_map_right_iff, List.forall₂_same]

theorem flatten (each : List.Forall₂ Agree items items') : Agree items.flatten items'.flatten := by
  induction each with
  | nil => exact refl []
  | cons first _ ih => exact first.append ih

theorem join (separator : Agree ps qs) (each : List.Forall₂ Agree items items') :
    Agree (join ps items) (join qs items') := by
  induction each with
  | nil => exact refl []
  | cons first rest ih =>
    cases rest with
    | nil => exact first
    | cons => exact (first.append separator).append ih

theorem commas (each : List.Forall₂ Agree items items') :
    Agree (commas .compact items) (commas .pretty items') :=
  (cons _ space).join each

/-- Lines in braces. In a pretty layout they are indented and stand apart. -/
theorem braced (depth : Nat) (each : List.Forall₂ Agree items items') :
    Agree (braced .compact depth items) (braced .pretty depth items') := by
  have lines : Agree items.flatten
      (Pieces.join [newline] (items'.map (indent (depth + 1) ++ ·))) := by
    induction each with
    | nil => exact refl []
    | cons first rest ih =>
      intro g
      cases rest with
      | nil => simpa [Pieces.join] using first g
      | cons =>
        have later := ih g
        rw [List.flatten_cons, addTo_append, later, first]
        simp [join_cons_cons]
  cases each with
  | nil => exact refl _
  | cons =>
    intro g
    have inside := lines (rightBrace.addTo g)
    simp only [Pieces.braced, List.isEmpty_cons, Bool.false_eq_true, if_false, addTo_append,
      addTo_cons, addTo_nil, addTo_newline, addTo_indent, inside]

/-- The operands of an operator agree, whether or not blanks keep them apart. -/
theorem between (sign : Text) (first : Agree left left') (second : Agree right right') :
    Agree (between .compact left sign right) (between .pretty left' sign right') := by
  have bare (layout : Layout) (left right : List Piece) (g : Gist) :
      addTo (Pieces.between layout left sign right) g =
        addTo left (addTo (operator sign) (addTo right g)) := by
    unfold Pieces.between
    split <;> simp
  intro g
  rw [bare, bare, second, first]

theorem before (sign : Text) (inner : Agree ps qs) : Agree (before sign ps) (before sign qs) :=
  fun g => by simp [Pieces.before, inner g]

theorem sealed (statement : Node) (inner : Agree ps qs) :
    Agree (sealed statement ps) (sealed statement qs) := by
  cases statement <;> first | exact inner | exact inner.append (refl _)

theorem body (afterWord : Bool) (statement : Node) (inner : Agree ps qs) :
    Agree (body .compact afterWord statement ps) (body .pretty afterWord statement qs) := by
  unfold Pieces.body
  split
  · exact spaced inner
  · intro g
    rw [addTo_append, addTo_append, addTo_blankIf, addTo_blankIf, inner.sealed statement]

theorem elsePart (depth : Nat) (consequent alternate : Node) (inner : Agree ps qs) :
    Agree (elsePart .compact depth consequent alternate ps)
      (elsePart .pretty depth consequent alternate qs) := by
  have gap : Agree (beforeElse .compact depth consequent)
      (beforeElse .pretty depth consequent) := by
    intro g
    simp only [beforeElse]
    split <;> simp
  unfold Pieces.elsePart
  split
  · exact refl []
  · exact gap.append (cons _ (inner.body true alternate))

theorem ascription (type : Node) (inner : Agree ps qs) :
    Agree (ascription .compact type ps) (ascription .pretty type qs) := by
  unfold Pieces.ascription
  split
  · exact refl []
  · exact cons _ (spaced inner)

theorem valuePart (value : Node) (inner : Agree ps qs) :
    Agree (valuePart .compact value ps) (valuePart .pretty value qs) := by
  unfold Pieces.valuePart
  split
  · exact refl []
  · exact spaced (cons _ (spaced inner))

theorem function (name : Node) (params : List.Forall₂ Agree items items')
    (result : Agree left left') (block : Agree right right') :
    Agree (function .compact name items left right)
      (function .pretty name items' left' right') := by
  have named : Agree (functionName .compact name) (functionName .pretty name) := by
    unfold functionName
    split
    · exact space
    · exact refl _
  unfold Pieces.function
  rw [List.append_assoc _ (Pieces.space _), List.append_assoc _ (Pieces.space _)]
  exact (((cons _ named).append (commas params).parens).append result).append (spaced block)

theorem arrayItems (elements : List Node) (each : List.Forall₂ Agree items items') :
    List.Forall₂ Agree (arrayItems elements items) (arrayItems elements items') := by
  unfold Pieces.arrayItems
  split
  · exact List.rel_append each (.cons (refl []) .nil)
  · exact each

theorem unionMember (type : Node) (inner : Agree ps qs) :
    Agree (unionMember type ps) (unionMember type qs) := by
  cases type <;> first | exact inner | exact inner.parens

theorem arrayElement (type : Node) (inner : Agree ps qs) :
    Agree (arrayElement type ps) (arrayElement type qs) := by
  cases type <;> first | exact inner | exact inner.parens

theorem headerPart (part : Node) (inner : Agree ps qs) :
    Agree (headerPart .compact part ps) (headerPart .pretty part qs) := by
  have bare (layout : Layout) (ps : List Piece) (g : Gist) :
      addTo (Pieces.headerPart layout part ps) g = addTo ps g := by
    unfold Pieces.headerPart
    split <;> simp
  exact fun g => by rw [bare, bare, inner]

theorem loopHeader (initial : Agree ps ps') (condition : Agree left left')
    (increment : Agree right right') :
    Agree (loopHeader ps left right) (loopHeader ps' left' right') :=
  (initial.append (cons _ condition)).append (cons _ increment)

end Agree

/-- Pieces for which it does not matter whether a closing brace follows them. -/
def Blind (ps : List Piece) : Prop := ∀ g : Gist, addTo ps { g with closing := false } = addTo ps g

namespace Blind

theorem append (ps : List Piece) {qs : List Piece} (last : Blind qs) : Blind (ps ++ qs) :=
  fun g => by rw [addTo_append, addTo_append, last]

theorem cons (p : Piece) {ps : List Piece} (last : Blind ps) : Blind (p :: ps) := last.append [p]

theorem token {kind : TokenKind} (t : Text) (noLine : kind ≠ .newline)
    (noSemicolon : kind ≠ .semicolon) : Blind [.token kind t] :=
  fun g => by simp [Piece.addTo, noLine, noSemicolon]

theorem name (t : Text) : Blind [name t] := by
  unfold Pieces.name wordKind
  cases Keyword.ofSpelling? t <;> exact token t nofun nofun

theorem join (separator : List Piece) {items : List (List Piece)} (some : items ≠ [])
    (each : ∀ ps ∈ items, Blind ps) : Blind (join separator items) := by
  induction items with
  | nil => exact absurd rfl some
  | cons first rest ih =>
    cases rest with
    | nil => exact each first List.mem_cons_self
    | cons second rest => exact (ih nofun fun ps mem => each ps (.tail _ mem)).append _

end Blind

/-- The members of a type literal. The semicolon behind the last one makes no difference. -/
theorem Agree.typeLiteral {items items' : List (List Piece)}
    (each : List.Forall₂ Agree items items') (blind : ∀ ps ∈ items, Blind ps) :
    Agree (typeLiteral .compact items) (typeLiteral .pretty items') := by
  have members : items ≠ [] → Agree ((items.map terminated).flatten ++ [rightBrace])
      (Pieces.join [semicolon, .blank] items' ++ [.blank, rightBrace]) := by
    intro some
    induction each with
    | nil => exact absurd rfl some
    | @cons first first' rest rest' agree others ih =>
      obtain ⟨here, later⟩ := List.forall_mem_cons.mp blind
      intro g
      cases others with
      | nil =>
        -- The brace closes, so the semicolon before it is dropped.
        have dropped : semicolon.addTo (rightBrace.addTo g) =
            { rightBrace.addTo g with closing := false } := rfl
        simp [terminated, Pieces.join, dropped, here (rightBrace.addTo g), agree _]
      | cons =>
        rw [List.map_cons, List.flatten_cons, List.append_assoc, addTo_append,
          ih later (List.cons_ne_nil _ _) g]
        simp [terminated, join_cons_cons, agree _]
  cases each with
  | nil => exact refl _
  | cons => exact cons _ (members (List.cons_ne_nil _ _))

end Pieces

end TypeGloss
