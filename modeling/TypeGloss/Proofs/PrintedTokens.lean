import TypeGloss.Proofs.PrintedScan
import TypeGloss.Proofs.SourceTokens
import TypeGloss.Proofs.Transpile
import TypeGloss.Proofs.Untyped

/-!
# The tokens of a printed tree

The printer loses no token: the essence of the tokens that it puts out for a tree without type
syntax is what the tree spells. The only comma that it puts before the end of a list stands behind
a hole, and there it is no part of the essence.
-/

namespace TypeGloss

open Lexeme (isWordText IsName IsNumber IsString IsTemplate)
open Spelling (word)

namespace Pieces

/-- The texts of the tokens of pieces, line feeds left out. -/
def written (ps : List Piece) : List Text := (Token.significant (tokens ps)).map Token.text

@[simp] theorem written_append (ps qs : List Piece) :
    written (ps ++ qs) = written ps ++ written qs := by
  simp [written, Token.significant]

/-- Pieces with a certain essence that do not start with a sign that ends a list. -/
structure Yields (ps : List Piece) (out : Spelling) : Prop where
  same : (essence (written ps)).map some = out
  opens : (written ps).head?.any (· ∈ closingSigns) = false

/-- Pieces with a certain essence that neither start with a sign that ends a list nor end with a
comma. -/
structure Renders (ps : List Piece) (out : Spelling) : Prop extends Yields ps out where
  ends : (written ps).getLast? ≠ some commaSign

section Composition

variable {ps qs : List Piece} {a b out : Spelling}

theorem Yields.append (first : Yields ps a) (second : Yields qs b) :
    Yields (ps ++ qs) (a ++ b) where
  same := by
    rw [written_append, essence_append (.inr second.opens), List.map_append, first.same,
      second.same]
  opens := by
    rw [written_append]
    cases isFirst : written ps with
    | nil => exact second.opens
    | cons => simpa [isFirst] using first.opens

theorem Renders.append (first : Renders ps a) (second : Renders qs b) :
    Renders (ps ++ qs) (a ++ b) where
  toYields := first.toYields.append second.toYields
  ends := by
    rw [written_append, List.getLast?_append]
    cases isLast : (written qs).getLast? with
    | none => exact first.ends
    | some => simpa [isLast] using second.ends

/-- A comma may stand before what is not empty. -/
theorem Renders.after (first : Yields ps a) (second : Renders qs b) (some : b ≠ []) :
    Renders (ps ++ qs) (a ++ b) where
  toYields := first.append second.toYields
  ends := by
    have isSome : written qs ≠ [] := by
      intro none
      exact some (by rw [← second.same, none]; rfl)
    rw [written_append, List.getLast?_append_of_ne_nil _ isSome]
    exact second.ends

theorem Renders.of_eq (renders : Renders ps a) (same : a = b) : Renders ps b := same ▸ renders

theorem Renders.silent (none : written ps = []) : Renders ps [] where
  same := by rw [none]; rfl
  opens := by rw [none]; rfl
  ends := by rw [none]; exact nofun

theorem Renders.grouping {kind : TokenKind} {t : Text} (noNewline : kind ≠ .newline)
    (isGrouping : t ∈ groupingSigns) : Renders [.token kind t] [] := by
  have written_eq : written [.token kind t] = [t] := by
    simp [written, Token.plain, noNewline, Token.significant]
  have plain : ∀ t ∈ groupingSigns, t ∉ closingSigns ∧ t ≠ commaSign := by decide
  obtain ⟨noClosing, noComma⟩ := plain t isGrouping
  refine ⟨⟨?_, ?_⟩, ?_⟩ <;> rw [written_eq]
  · rw [essence_cons_grouping isGrouping]
    rfl
  · simpa using noClosing
  · simpa using noComma

theorem Renders.token {kind : TokenKind} {t : Text} (noNewline : kind ≠ .newline)
    (noRole : t ∉ Token.roleTexts) : Renders [.token kind t] (word t) := by
  have written_eq : written [.token kind t] = [t] := by
    simp [written, Token.plain, noNewline, Token.significant]
  simp only [Token.roleTexts, List.mem_cons, List.mem_append, not_or] at noRole
  obtain ⟨-, noComma, noGrouping, noClosing⟩ := noRole
  refine ⟨⟨?_, ?_⟩, ?_⟩ <;> rw [written_eq]
  · rw [essence_cons noGrouping (.inr rfl)]
    rfl
  · simpa using noClosing
  · simpa using noComma

theorem Renders.nil : Renders [] [] := .silent rfl

theorem Renders.name {t : Text} (isWord : isWordText t = true) : Renders [name t] (word t) := by
  refine .token ?_ (Token.not_mem_roleTexts_of_word isWord)
  unfold wordKind
  cases Keyword.ofSpelling? t <;> exact nofun

theorem Renders.keyword (keyword : Keyword) :
    Renders [Pieces.keyword keyword] (word keyword.spelling) :=
  .token nofun (Token.not_mem_roleTexts_of_word (Lexeme.isWordText_spelling keyword))

theorem Renders.blank : Renders [.blank] [] := .silent rfl

theorem Renders.newline : Renders [newline] [] := .silent rfl

theorem Renders.semicolon : Renders [semicolon] [] := .grouping (by decide) (by decide)

theorem Renders.blankIf (needed : Bool) : Renders (blankIf needed) [] := by
  cases needed <;> exact .silent rfl

theorem Renders.indent (depth : Nat) : Renders (indent depth) [] := by
  refine .silent ?_
  unfold Pieces.indent
  induction 2 * depth with
  | zero => rfl
  | succ n ih => exact ih

theorem Renders.spaced (layout : Layout) (later : Renders ps out) :
    Renders (space layout ++ ps) out := by
  cases layout
  · exact later
  · exact Renders.blank.append later

theorem Renders.cons {p : Piece} (first : Renders [p] a) (later : Renders ps b) :
    Renders (p :: ps) (a ++ b) := first.append later

theorem Renders.parens (inner : Renders ps out) : Renders (parens ps) out := by
  have opened : Renders [leftParen] [] := .grouping (by decide) (by decide)
  have closed : Renders [rightParen] [] := .grouping (by decide) (by decide)
  exact ((opened.append inner).append closed).of_eq (by simp)

theorem Renders.wrapped (isWrapped : Bool) (inner : Renders ps out) :
    Renders (wrapped isWrapped ps) out := by
  cases isWrapped
  · exact inner
  · exact inner.parens

/-- What ends in a sign that ends a list. -/
theorem Renders.closed {sign : Text} (front : Yields ps a) (nonempty : a ≠ [])
    (closing : sign ∈ closingSigns) (last : (written qs).getLast? = some sign)
    (apart : essence (written (ps ++ qs)) = essence (written ps) ++ [sign]) :
    Renders (ps ++ qs) (a ++ word sign) where
  same := by
    rw [apart, List.map_append, front.same]
    rfl
  opens := by
    have isSome : written ps ≠ [] := by
      intro none
      exact nonempty (by rw [← front.same, none]; rfl)
    rw [written_append, List.head?_append_of_ne_nil _ isSome]
    exact front.opens
  ends := by
    have noComma : ∀ sign ∈ closingSigns, sign ≠ commaSign := by decide
    rw [written_append, List.getLast?_append, last]
    simpa using noComma sign closing

/-- A list in brackets or braces. -/
theorem Renders.enclosed {left right : Piece} {opening sign : Text}
    (opens : Renders [left] (word opening)) (closes : written [right] = [sign])
    (closing : sign ∈ closingSigns) (inner : Renders ps out) :
    Renders (left :: ps ++ [right]) (word opening ++ out ++ word sign) := by
  have front := opens.cons inner
  have alone : ∀ sign ∈ closingSigns, essence [sign] = [sign] := by decide
  refine .closed front.toYields (by simp [word]) closing (by rw [closes]; rfl) ?_
  rw [written_append, closes, essence_append (.inl front.ends), alone sign closing]

/-- A list in brackets whose last item is a hole. -/
theorem Renders.holed (layout : Layout) (inner : Yields ps out) :
    Renders (leftBracket :: (ps ++ comma :: space layout) ++ [rightBracket])
      (word "[" ++ out ++ word "]") := by
  have opens : Renders [leftBracket] (word "[") := .token (by decide) (by decide)
  have front : Yields (leftBracket :: ps) (word "[" ++ out) := opens.toYields.append inner
  have tail : written (comma :: space layout ++ [rightBracket]) = [commaSign, "]"] := by
    cases layout <;> rfl
  have whole : leftBracket :: (ps ++ comma :: space layout) ++ [rightBracket] =
      (leftBracket :: ps) ++ (comma :: space layout ++ [rightBracket]) := by simp
  rw [whole]
  refine .closed front (by simp [word]) (by decide) (by rw [tail]; rfl) ?_
  rw [written_append, tail, essence_append (.inr (by decide))]
  rfl

theorem Yields.separator (layout : Layout) : Yields (comma :: space layout) (word commaSign) := by
  cases layout <;> exact ⟨by decide, by decide⟩

theorem Yields.commas (layout : Layout) {items : List (List Piece)} {outs : List Spelling}
    (each : List.Forall₂ Yields items outs) :
    Yields (commas layout items) (Spelling.commas outs) := by
  have separator := Yields.separator layout
  unfold Pieces.commas
  induction each with
  | nil => exact Renders.nil.toYields
  | cons first rest ih =>
    cases rest with
    | nil => exact first
    | cons second rest => exact (first.append separator).append ih

theorem commas_ne_nil {outs : List Spelling} (nonempty : outs ≠ [])
    (last : ∀ out ∈ outs.getLast?, out ≠ []) : Spelling.commas outs ≠ [] := by
  match outs with
  | [] => exact absurd rfl nonempty
  | [out] => exact last out rfl
  | _ :: _ :: _ => simp [Spelling.commas, word]

theorem commas_concat (layout : Layout) {items : List (List Piece)} (nonempty : items ≠ [])
    (last : List Piece) :
    commas layout (items ++ [last]) = commas layout items ++ comma :: space layout ++ last := by
  unfold commas
  induction items with
  | nil => exact absurd rfl nonempty
  | cons first rest ih =>
    cases rest with
    | nil => rfl
    | cons second rest =>
      rw [List.cons_append, List.cons_append, join_cons_cons, ← List.cons_append, ih nofun,
        join_cons_cons]
      simp

/-- Items the last of which is not empty. -/
theorem Renders.commas (layout : Layout) {items : List (List Piece)} {outs : List Spelling}
    (each : List.Forall₂ Renders items outs) (last : ∀ out ∈ outs.getLast?, out ≠ []) :
    Renders (commas layout items) (Spelling.commas outs) := by
  have separator := Yields.separator layout
  unfold Pieces.commas
  induction each with
  | nil => exact .nil
  | cons first rest ih =>
    cases rest with
    | nil => exact first
    | cons second rest =>
      exact .after (first.toYields.append separator) (ih last) (commas_ne_nil nofun last)

theorem Renders.flatten {items : List (List Piece)} {outs : List Spelling}
    (each : List.Forall₂ Renders items outs) : Renders items.flatten outs.flatten := by
  induction each with
  | nil => exact .nil
  | cons first _ ih => exact first.append ih

theorem Renders.braced (layout : Layout) (depth : Nat) {lines : List (List Piece)}
    {outs : List Spelling} (each : List.Forall₂ Renders lines outs) :
    Renders (braced layout depth lines) (word "\x7b" ++ outs.flatten ++ word "\x7d") := by
  have opens : Renders [leftBrace] (word "\x7b") := .token (by decide) (by decide)
  have indented : Renders (join [Pieces.newline] (lines.map (Pieces.indent (depth + 1) ++ ·)))
      outs.flatten := by
    induction each with
    | nil => exact .nil
    | cons first rest ih =>
      have line := (Renders.indent (depth + 1)).append first
      cases rest with
      | nil => exact line.of_eq (by simp)
      | cons => exact ((line.append .newline).append ih).of_eq (by simp)
  unfold Pieces.braced
  split
  case isTrue none =>
    obtain rfl : lines = [] := by simpa using none
    cases each
    exact .enclosed opens rfl (by decide) .nil
  case isFalse =>
    cases layout with
    | compact => exact .enclosed opens rfl (by decide) (.flatten each)
    | pretty =>
      have inner := ((Renders.newline.append indented).append .newline).append (.indent depth)
      have closes : written [rightBrace] = ["\x7d"] := rfl
      have whole := Renders.enclosed opens closes (by decide) inner
      simpa using whole

/-- The signs and words that stand as operators. -/
def operators : List Text :=
  symbolSigns ++ wordSigns ++ Grammar.updateSigns

theorem Renders.operator {sign : Text} (mem : sign ∈ operators) :
    Renders (operator sign) (Spelling.operator sign) := by
  have signs : ∀ sign ∈ operators, sign = "<=" ∨ sign = ">=" ∨
      (Pieces.operator sign = [.token (operatorKind sign) sign] ∧
        Spelling.operator sign = word sign ∧ operatorKind sign ≠ .newline ∧
        sign ∉ Token.roleTexts) := by decide +kernel
  rcases signs sign mem with rfl | rfl | ⟨isToken, isWord, noNewline, noRole⟩
  · exact Renders.cons (.token (by decide) (by decide)) (.token (by decide) (by decide))
  · exact Renders.cons (.token (by decide) (by decide)) (.token (by decide) (by decide))
  · rw [isToken, isWord]
    exact .token noNewline noRole

theorem Renders.between (layout : Layout) {sign : Text} (mem : sign ∈ operators)
    (left : Renders ps a) (right : Renders qs b) :
    Renders (between layout ps sign qs) (a ++ Spelling.operator sign ++ b) := by
  unfold Pieces.between
  split
  · have whole := (left.append ((Renders.blank.append (.operator mem)))).append
      (Renders.blank.append right)
    simpa using whole
  · have whole := (((left.append (.blankIf (Layout.signsMeet (text ps) sign))).append
      (.operator mem)).append (.blankIf (Layout.signsMeet sign (text qs)))).append right
    simpa using whole

theorem Renders.before {sign : Text} (mem : sign ∈ operators) (argument : Renders ps b) :
    Renders (before sign ps) (Spelling.operator sign ++ b) := by
  have whole := ((Renders.operator mem).append
    (.blankIf (Layout.isWord sign || (text ps).startsWith sign))).append argument
  unfold Pieces.before
  simpa using whole

/-- The pieces of nodes, each with what the node spells. -/
theorem forall₂_renders {pieces : Node → List Piece} {ns : List Node}
    (each : ∀ n ∈ ns, Renders (pieces n) n.spelling) :
    List.Forall₂ Renders (ns.map pieces) (ns.map Node.spelling) :=
  List.forall₂_map_left_iff.mpr (List.forall₂_map_right_iff.mpr (List.forall₂_same.mpr each))

/-- Nodes none of which is empty, with commas between them. -/
theorem Renders.list (layout : Layout) {pieces : Node → List Piece} {ns : List Node}
    (each : ∀ n ∈ ns, Renders (pieces n) n.spelling) (nonempty : ∀ n ∈ ns, n.spelling ≠ []) :
    Renders (Pieces.commas layout (ns.map pieces)) (Spelling.commas (ns.map Node.spelling)) := by
  refine .commas layout (forall₂_renders each) ?_
  intro out isLast
  obtain ⟨n, mem, rfl⟩ := List.mem_map.mp (List.mem_of_getLast? isLast)
  exact nonempty n mem

theorem Renders.lines {layout : Layout} {body : List Node} (depth : Nat)
    (each : ∀ s ∈ body, ∀ depth, Renders (sealed s (node layout depth s)) s.spelling) :
    List.Forall₂ Renders (body.zipWith sealed (nodes layout depth body))
      (body.map Node.spelling) := by
  rw [nodes_eq_map, List.zipWith_map_right, List.zipWith_self]
  exact forall₂_renders fun s mem => each s mem depth

theorem Renders.valued {value : Node} (layout : Layout) (first : Renders ps a)
    (second : Renders qs value.spelling) :
    Renders (ps ++ valuePart layout value qs)
      (a ++ if value.isAbsent then [] else word "=" ++ value.spelling) := by
  have sign : Renders [assign] (word "=") := .token (by decide) (by decide)
  unfold valuePart
  split
  · simpa using first
  · have behind := Renders.spaced layout (sign.cons (.spaced layout second))
    simpa using first.append behind

theorem Renders.function {name : Node} {params : List Node} {block : List Piece} (layout : Layout)
    (depth : Nat) (named : Grammar.NameSlot name)
    (each : ∀ p ∈ params, Renders (binding layout depth p) p.spelling)
    (nonempty : ∀ p ∈ params, p.spelling ≠ []) (body : Renders block out) :
    Renders (function layout name (params.map (binding layout depth)) [] block)
      (word "function" ++ name.spelling ++ Spelling.commas (params.map Node.spelling) ++ out) := by
  have list := (Renders.list layout each nonempty).parens
  have headed : Renders (Pieces.functionName layout name) name.spelling := by
    unfold Pieces.functionName
    cases named with
    | none => simpa [Node.isAbsent] using Renders.nil.spaced layout
    | some isName =>
      have isWord := Renders.name isName.1
      exact (Renders.blank.cons isWord).of_eq (by simp [Spelling.typeMark, Node.isAbsent])
  have whole := (((Renders.keyword .functionKw).cons headed).append list).append
    (body.spaced layout)
  unfold Pieces.function
  simpa [Keyword.spelling] using whole

theorem Renders.headed (layout : Layout) (keyword : Keyword) (header : Renders ps a)
    (body : Renders qs b) :
    Renders (Pieces.keyword keyword :: space layout ++ ps ++ qs)
      (word keyword.spelling ++ a ++ b) := by
  have whole := ((Renders.keyword keyword).cons (header.spaced layout)).append body
  simpa using whole

theorem Renders.body {layout : Layout} {statement : Node} (afterWord : Bool) (depth : Nat)
    (inner : Renders (sealed statement (node layout depth statement)) out) :
    Renders (Pieces.body layout afterWord statement (node layout depth statement)) out := by
  unfold Pieces.body
  split
  · cases statement <;> first | exact inner.spaced layout | contradiction
  · exact (Renders.blankIf _).append inner

theorem Renders.elsePart {layout : Layout} (consequent : Node) {alternate : Node} (depth : Nat)
    (inner : Renders (sealed alternate (node layout depth alternate)) alternate.spelling) :
    Renders (Pieces.elsePart layout depth consequent alternate (node layout depth alternate))
      (if alternate.isAbsent then [] else word "else" ++ alternate.spelling) := by
  have gap : Renders (beforeElse layout depth consequent) [] := by
    cases layout with
    | compact => exact .nil
    | pretty =>
      change Renders (if Print.isBlock consequent then [.blank] else _) []
      split
      · exact .blank
      · exact Renders.newline.cons (.indent depth)
  unfold Pieces.elsePart
  split
  · exact .nil
  · exact gap.append ((Renders.keyword .elseKw).cons (.body true depth inner))

theorem Renders.headerPart (layout : Layout) (part : Node) (inner : Renders ps out) :
    Renders (Pieces.headerPart layout part ps) out := by
  unfold Pieces.headerPart
  split
  · exact inner
  · exact inner.spaced layout

end Composition

end Pieces

namespace Grammar

open Pieces (Renders Yields)

/-- Whether the trees of a form spell something. -/
def Form.isSpelled : Form → Bool
  | .expression .. | .callee | .property | .param | .declarator => true
  | _ => false

theorem Binder.spelling_ne_nil {G : Grammar} {node : Node} (bound : Binder G node) :
    node.spelling ≠ [] := by
  cases bound <;> simp [word]

theorem Fits.spelling_ne_nil {G : Grammar} {form : Form} {node : Node} (fits : Fits G form node)
    (spelled : form.isSpelled = true) : node.spelling ≠ [] := by
  induction fits with
  | wrapped inner unwrapped ih =>
    rw [Node.spelling_wrap]
    exact ih rfl
  | call called each ih =>
    simp [ih rfl]
  | binary level loose sign first second ihFirst =>
    simp [ihFirst rfl]
  | reservedRight allowed loose first word ih => simp [ih rfl]
  | @boolean _ _ _ _ value => cases value <;> simp [word]
  | @sequence _ _ _ _ first others loose several =>
    cases others with
    | nil => exact absurd rfl several
    | cons => simp [Spelling.commas, word]
  | param bound => exact bound.spelling_ne_nil
  | declarator bound => simp [bound.spelling_ne_nil]
  | _ => first | (simp [word]; done) | cases spelled

theorem mem_operators_of_level {level : Parse.Level} {sign : Text} (mem : sign ∈ levelSigns level) :
    sign ∈ Pieces.operators := by
  have all : ∀ level ∈ [Parse.Level.orElse, .andThen, .equality, .relational, .additive,
      .multiplicative], ∀ sign ∈ levelSigns level, sign ∈ Pieces.operators := by decide
  exact all level (by cases level <;> decide) sign mem

/-- The other operators are single tokens. -/
theorem mem_operators {sign : Text}
    (mem : sign ∈ unarySigns ∨ sign ∈ updateSigns ∨ sign ∈ assignSigns) :
    sign ∈ Pieces.operators ∧ Spelling.operator sign = word sign := by
  have all : ∀ sign ∈ unarySigns ++ (updateSigns ++ assignSigns),
      sign ∈ Pieces.operators ∧ Spelling.operator sign = word sign := by decide
  exact all sign (by simpa using mem)

/-- What the pieces of a node have to do with what it spells, by the slot of the node. -/
def Form.Renders (layout : Layout) : Form → Node → Prop
  | .param, node => ∀ depth, Pieces.Renders (Pieces.binding layout depth node) node.spelling
  | .block, node => ∀ depth, Pieces.Renders (Pieces.node layout depth node) node.spelling ∧
      Pieces.Renders (Pieces.blockOf layout depth node) node.spelling
  | .declared, node | .statement _, node =>
    ∀ depth, Pieces.Renders (Pieces.sealed node (Pieces.node layout depth node)) node.spelling
  | _, node => ∀ depth, Pieces.Renders (Pieces.node layout depth node) node.spelling

theorem Binder.renders {R : Prop} {node : Node} (bound : Binder (.untyped R) node) (layout : Layout)
    (depth : Nat) : Pieces.Renders (Pieces.binding layout depth node) node.spelling := by
  cases bound with
  | plain isName => exact (Renders.name isName.1).of_eq (by simp [Spelling.typeMark, Node.isAbsent])
  | typed impossible => exact impossible.elim

theorem renders_array {layout : Layout} {depth : Nat} {loc : Location} {elements : List Node}
    (each : ∀ e ∈ elements, Renders (Pieces.node layout depth e) e.spelling)
    (nonempty : ∀ e ∈ elements, e = .absent ∨ e.spelling ≠ []) :
    Renders (Pieces.node layout depth (.array loc false elements))
      (Node.array loc false elements).spelling := by
  have brackets : Renders [Pieces.leftBracket] (word "[") := .token (by decide) (by decide)
  have closes : Pieces.written [Pieces.rightBracket] = ["]"] := rfl
  have items := Pieces.forall₂_renders each
  unfold Pieces.node
  rw [Pieces.nodes_eq_map, Pieces.wrapped, if_neg (by decide), Pieces.arrayItems]
  split
  case h_1 isLast =>
    have some : elements.map (Pieces.node layout depth) ≠ [] := by
      rintro none
      rw [List.map_eq_nil_iff.mp none] at isLast
      cases isLast
    rw [Pieces.commas_concat layout some, List.append_nil]
    simpa using Renders.holed layout (.commas layout (items.imp fun _ _ => Renders.toYields))
  case h_2 noHole =>
    have list := Renders.commas layout items (by
      intro out isLast
      rw [List.getLast?_map] at isLast
      obtain ⟨e, found, rfl⟩ := Option.map_eq_some_iff.mp isLast
      refine (nonempty e (List.mem_of_getLast? found)).resolve_left ?_
      rintro rfl
      exact noHole found)
    simpa using Renders.enclosed brackets closes (by decide) list

theorem renders_object {layout : Layout} {depth : Nat} {loc : Location} {properties : List Node}
    (each : ∀ p ∈ properties, Renders (Pieces.node layout depth p) p.spelling)
    (nonempty : ∀ p ∈ properties, p.spelling ≠ []) :
    Renders (Pieces.node layout depth (.object loc false properties))
      (Node.object loc false properties).spelling := by
  have braces : Renders [Pieces.leftBrace] (word "\x7b") := .token (by decide) (by decide)
  have closes : Pieces.written [Pieces.rightBrace] = ["\x7d"] := rfl
  have list := Renders.list layout each nonempty
  unfold Pieces.node
  rw [Pieces.nodes_eq_map, Pieces.wrapped, if_neg (by decide)]
  split
  case isTrue none =>
    obtain rfl : properties = [] := by simpa using none
    exact .enclosed braces closes (by decide) .nil
  case isFalse =>
    have inner := (list.spaced layout).append (Renders.nil.spaced layout)
    simpa using Renders.enclosed braces closes (by decide) inner

theorem renders_arrow {layout : Layout} {depth : Nat} {loc : Location} {params : List Node}
    {body : Node} (each : ∀ p ∈ params, Renders (Pieces.binding layout depth p) p.spelling)
    (nonempty : ∀ p ∈ params, p.spelling ≠ [])
    (inner : Renders (Pieces.node layout depth body) body.spelling) :
    Renders (Pieces.node layout depth (.arrowFunction loc false params body))
      (Node.arrowFunction loc false params body).spelling := by
  have arrow : Renders [Pieces.arrow] (word "=>") := .token (by decide) (by decide)
  have whole := (Renders.list layout each nonempty).parens.append (.spaced layout (arrow.cons
    (.spaced layout (inner.wrapped (Print.isBareObject body)))))
  unfold Pieces.node
  rw [Pieces.bindings_eq_map]
  simpa [Pieces.wrapped] using whole

theorem Fits.renders {R : Prop} {form : Form} {node : Node} (fits : Fits (.untyped R) form node)
    (layout : Layout) : form.Renders layout node := by
  induction fits with
  | name isName | calleeName isName | shorthand isName =>
    exact fun _ => (Renders.name isName.1).of_eq (by simp [Spelling.typeMark, Node.isAbsent])
  | number spelling =>
    exact fun _ => .token (by simp) (Token.not_mem_roleTexts_of_literal (.inl spelling))
  | string spelling =>
    exact fun _ => .token (by simp) (Token.not_mem_roleTexts_of_literal (.inr (.inl spelling)))
  | template spelling =>
    exact fun _ => .token (by simp) (Token.not_mem_roleTexts_of_literal (.inr (.inr spelling)))
  | @boolean _ _ _ _ value => cases value <;> exact fun _ => .keyword _
  | null => exact fun _ => .keyword .nullKw
  | this => exact fun _ => .keyword .thisKw
  | array each ih =>
    intro depth
    refine renders_array (fun e mem => ih e mem depth) fun e mem => ?_
    cases each e mem with
    | omitted => exact .inl rfl
    | given inner => exact .inr (inner.spelling_ne_nil rfl)
  | object opens each ih =>
    exact fun depth => renders_object (fun p mem => ih p mem depth)
      fun p mem => (each p mem).spelling_ne_nil rfl
  | function opens named each block typed ihEach ihBlock =>
    intro depth
    have whole := Renders.function layout depth named (fun p mem => ihEach p mem depth)
      (fun p mem => (each p mem).spelling_ne_nil rfl) (ihBlock depth).2
    unfold Pieces.node
    rw [Pieces.bindings_eq_map]
    cases typed with
    | none =>
      simpa [Spelling.typeMark, Node.isAbsent, Pieces.wrapped, Pieces.ascription] using whole
    | some impossible => exact impossible.elim
  | call called each ih ihEach =>
    intro depth
    have list := Renders.list layout (fun a mem => ihEach a mem depth)
      fun a mem => (each a mem).spelling_ne_nil rfl
    have whole := (ih depth).append list.parens
    unfold Pieces.node
    rw [Pieces.nodes_eq_map]
    simpa [Pieces.wrapped] using whole
  | construction called each ih ihEach =>
    intro depth
    have list := Renders.list layout (fun a mem => ihEach a mem depth)
      fun a mem => (each a mem).spelling_ne_nil rfl
    have whole := (Renders.keyword .newKw).cons (Renders.blank.cons ((ih depth).append list.parens))
    unfold Pieces.node
    rw [Pieces.nodes_eq_map]
    simpa [Pieces.wrapped, Keyword.spelling] using whole
  | member inner isWord ih | calleeMember inner isWord ih =>
    intro depth
    have dot : Renders [Pieces.dot] (word ".") := .token (by decide) (by decide)
    have whole := (ih depth).append (dot.cons (.name isWord))
    unfold Pieces.node
    simpa [Pieces.wrapped, Pieces.node, Spelling.typeMark, Node.isAbsent] using whole
  | index inner selected ih ihSelected =>
    intro depth
    have brackets : Renders [Pieces.leftBracket] (word "[") := .token (by decide) (by decide)
    have closes : Pieces.written [Pieces.rightBracket] = ["]"] := rfl
    have whole := (ih depth).append (.enclosed brackets closes (by decide) (ihSelected depth))
    unfold Pieces.node
    simpa [Pieces.wrapped] using whole
  | wrapped inner unwrapped ih =>
    intro depth
    rw [Pieces.node_wrap (inner.carriesLinks rfl) unwrapped, Node.spelling_wrap]
    exact (ih depth).parens
  | updateBehind loose sign inner ih =>
    intro depth
    obtain ⟨mem, single⟩ := mem_operators (.inr (.inl sign))
    have whole := (ih depth).append (.operator mem)
    unfold Pieces.node
    simpa [Pieces.wrapped, single] using whole
  | updateBefore loose sign inner ih =>
    intro depth
    obtain ⟨mem, single⟩ := mem_operators (.inr (.inl sign))
    have whole := (Renders.operator mem).append (ih depth)
    unfold Pieces.node
    simpa [Pieces.wrapped, single] using whole
  | unary loose sign inner ih =>
    intro depth
    obtain ⟨mem, single⟩ := mem_operators (.inl sign)
    exact (Renders.before mem (ih depth)).of_eq (by simp [single])
  | reservedUnary allowed loose isWord =>
    intro depth
    obtain ⟨mem, single⟩ := mem_operators (.inl (show voidWord ∈ unarySigns by decide))
    exact (Renders.before mem (.name isWord)).of_eq
      (by simp [single, Spelling.typeMark, Node.isAbsent])
  | binary level loose sign first second ihFirst ihSecond =>
    intro depth
    rw [Pieces.node_level, Parse.spelling_level]
    exact .between layout (mem_operators_of_level sign) (ihFirst depth) (ihSecond depth)
  | reservedRight allowed loose first isWord ih =>
    intro depth
    have sign : greaterSign ∈ Pieces.operators := by decide
    rw [Pieces.node_level, Parse.spelling_level, Pieces.node_identifier]
    exact (Renders.between layout sign (ih depth) (.name isWord)).of_eq
      (by simp [Spelling.typeMark, Node.isAbsent])
  | conditional loose condition first second ihCondition ihFirst ihSecond =>
    intro depth
    have question : Renders [Pieces.question] (word "?") := .token (by decide) (by decide)
    have colon : Renders [Pieces.colon] (word ":") := .token (by decide) (by decide)
    have whole := (ihCondition depth).append (.spaced layout (question.cons (.spaced layout
      ((ihFirst depth).append (.spaced layout (colon.cons ((ihSecond depth).spaced layout)))))))
    unfold Pieces.node
    simpa [Pieces.wrapped] using whole
  | assignment loose sign assigned inner ihAssigned ihInner =>
    intro depth
    obtain ⟨mem, single⟩ := mem_operators (.inr (.inr sign))
    exact (Renders.between layout mem (ihAssigned depth) (ihInner depth)).of_eq (by simp [single])
  | arrow loose each inner ihEach ihInner =>
    exact fun depth => renders_arrow (fun p mem => ihEach p mem depth)
      (fun p mem => (each p mem).spelling_ne_nil rfl) (ihInner depth)
  | arrowBlock loose each block ihEach ihBlock =>
    exact fun depth => renders_arrow (fun p mem => ihEach p mem depth)
      (fun p mem => (each p mem).spelling_ne_nil rfl) (ihBlock depth).1
  | @sequence _ _ _ _ first others loose several leading each ih ihEach =>
    intro depth
    have renders : ∀ e ∈ first :: others, Renders (Pieces.node layout depth e) e.spelling :=
      List.forall_mem_cons.mpr ⟨ih depth, fun e mem => ihEach e mem depth⟩
    have nonempty : ∀ e ∈ first :: others, e.spelling ≠ [] :=
      List.forall_mem_cons.mpr ⟨leading.spelling_ne_nil rfl,
        fun e mem => (each e mem).spelling_ne_nil rfl⟩
    have list := Renders.list layout renders nonempty
    unfold Pieces.node
    rw [Pieces.nodes_eq_map]
    simpa [Pieces.wrapped] using list
  | omitted | noInitializer => exact fun _ => .nil
  | given inner ih | initializerVariables inner ih | initializerExpression inner ih
  | declared inner ih => exact ih
  | @property loc key value isKey inner ih =>
    intro depth
    have colon : Renders [Pieces.colon] (word ":") := .token (by decide) (by decide)
    have keyed : Renders (Pieces.key key) key.spelling := by
      cases isKey with
      | name isWord =>
        exact (Renders.name isWord).of_eq (by simp [Spelling.typeMark, Node.isAbsent])
      | string spelling =>
        exact .token (by simp) (Token.not_mem_roleTexts_of_literal (.inr (.inl spelling)))
      | number spelling =>
        exact .token (by simp) (Token.not_mem_roleTexts_of_literal (.inl spelling))
    have whole := keyed.append (colon.cons ((ih depth).spaced layout))
    unfold Pieces.node
    simpa using whole
  | param bound => exact fun depth => bound.renders layout depth
  | @defaultParam loc binder value bound inner ih =>
    intro depth
    have present : value.isAbsent = false := by
      cases absent : value.isAbsent with
      | false => rfl
      | true =>
        have spelled := inner.spelling_ne_nil rfl
        cases value <;> first | cases absent; done | exact absurd rfl spelled
    have whole := Renders.valued layout (bound.renders layout depth) (ih depth)
    unfold Pieces.binding
    simpa [present] using whole
  | declarator bound inner ih =>
    intro depth
    have whole := Renders.valued layout (bound.renders layout depth) (ih depth)
    unfold Pieces.node
    simpa using whole
  | @declaration loc keyword declarators isWord some each ih =>
    intro depth
    have all : ∀ word ∈ declarationWords, isWordText word = true := by decide
    have list := Renders.list layout (fun d mem => ih d mem depth)
      fun d mem => (each d mem).spelling_ne_nil rfl
    have whole := (Renders.name (all keyword isWord)).cons (Renders.blank.cons list)
    unfold Pieces.node
    rw [Pieces.nodes_eq_map]
    simpa using whole
  | declaredVariables inner ih =>
    intro depth
    cases inner
    exact ((ih depth).append .semicolon).of_eq (by simp)
  | declaredFunction named each block typed ihEach ihBlock =>
    intro depth
    have whole := Renders.function layout depth named (fun p mem => ihEach p mem depth)
      (fun p mem => (each p mem).spelling_ne_nil rfl) (ihBlock depth).2
    unfold Pieces.sealed Pieces.node
    rw [Pieces.bindings_eq_map]
    cases typed with
    | none => simpa [Spelling.typeMark, Node.isAbsent, Pieces.ascription] using whole
    | some impossible => exact impossible.elim
  | block each ih =>
    intro depth
    have lines := Renders.braced layout depth (Renders.lines (depth + 1) ih)
    exact ⟨lines.of_eq (by simp), lines.of_eq (by simp)⟩
  | interface impossible => exact impossible.elim
  | exportNamed inner ih =>
    intro depth
    have whole := (Renders.keyword .exportKw).cons (Renders.blank.cons (ih depth))
    simpa [Pieces.sealed, Pieces.node, Keyword.spelling] using whole
  | exportDefault inner ih =>
    intro depth
    have whole := (Renders.keyword .exportKw).cons (Renders.blank.cons
      ((Renders.keyword .defaultKw).cons (Renders.blank.cons (ih depth))))
    simpa [Pieces.sealed, Pieces.node, Keyword.spelling] using whole
  | blockStatement inner ih =>
    intro depth
    have block := (ih depth).1
    cases inner
    exact block
  | @returned c loc argument inner ih =>
    intro depth
    change Renders (Pieces.node layout depth (.returnStatement loc argument)) _
    unfold Pieces.node
    split
    case isTrue absent =>
      have whole := (Renders.keyword .returnKw).cons .semicolon
      cases argument <;> first | cases absent; done | simpa [Keyword.spelling] using whole
    case isFalse =>
      have whole := (Renders.keyword .returnKw).cons
        (Renders.blank.cons ((ih depth).append .semicolon))
      simpa [Keyword.spelling] using whole
  | thrown inner ih =>
    intro depth
    have whole := (Renders.keyword .throwKw).cons
      (Renders.blank.cons ((ih depth).append .semicolon))
    unfold Pieces.sealed Pieces.node
    simpa [Keyword.spelling] using whole
  | breakStatement => exact fun _ => (Renders.keyword .breakKw).cons .semicolon
  | continueStatement => exact fun _ => (Renders.keyword .continueKw).cons .semicolon
  | emptyStatement => exact fun _ => .semicolon
  | expressionStatement inner ih =>
    exact fun depth => (((ih depth).wrapped _).append .semicolon).of_eq (by simp)
  | ifThen condition first ihCondition ihFirst =>
    intro depth
    have whole := Renders.headed layout .ifKw (ihCondition depth).parens
      (.body false depth (ihFirst depth))
    unfold Pieces.sealed Pieces.node
    simpa [Pieces.elsePart, Node.isAbsent, Keyword.spelling] using whole
  | @ifElse c loc test consequent alternate condition first second ihCondition ihFirst ihSecond =>
    intro depth
    have whole := (Renders.headed layout .ifKw (ihCondition depth).parens
      (.body false depth (ihFirst depth))).append (.elsePart consequent depth (ihSecond depth))
    unfold Pieces.sealed Pieces.node
    simpa [Keyword.spelling] using whole
  | whileLoop condition inner ihCondition ihInner =>
    intro depth
    have whole := Renders.headed layout .whileKw (ihCondition depth).parens
      (.body false depth (ihInner depth))
    unfold Pieces.sealed Pieces.node
    simpa [Keyword.spelling] using whole
  | @forLoop c loc initializer test step body initial condition increment inner ihInitial
      ihCondition ihIncrement ihInner =>
    intro depth
    have header := (ihInitial depth).append (Renders.semicolon.cons
      (((ihCondition depth).headerPart layout test).append
        (Renders.semicolon.cons ((ihIncrement depth).headerPart layout step))))
    have whole := Renders.headed layout .forKw header.parens (.body false depth (ihInner depth))
    unfold Pieces.sealed Pieces.node
    simpa [Pieces.loopHeader, Keyword.spelling] using whole
  | @program loc body each ih =>
    intro depth
    have lines := Renders.lines depth ih
    cases layout with
    | compact => exact (Renders.flatten lines).of_eq (by simp)
    | pretty =>
      have ended := lines.imp fun ps out line => (line.append .newline).of_eq (List.append_nil out)
      exact (Renders.flatten (List.forall₂_map_left_iff.mpr ended)).of_eq (by simp)

/-- The chains of a tree that fits start with expressions. -/
theorem Fits.chained {W : Text → Prop} {K : MemberKey → Prop} {R : Prop} {form : Form} {node : Node}
    (fits : Fits (.withTypes W K R) form node) : node.Every (·.leadsChain = true) := by
  have part (node : Node) (isPart : isTypePart node = true) : node.leadsChain = true := by
    cases node <;> first | rfl | cases isPart
  have parts : Fits.Parts (.withTypes W K R) (·.leadsChain = true) :=
    .of_isTypePart part (by rintro _ (_ | _ | _) <;> rfl)
  refine fits.every parts ?_
  intro form node fits
  induction fits with
  | wrapped inner unwrapped ih =>
    rename_i e
    cases e <;> exact ih
  | binary level loose sign first second =>
    have carries := first.carriesLinks rfl
    cases level <;> exact carries
  | reservedRight allowed loose first => exact first.carriesLinks rfl
  | param bound => cases bound <;> rfl
  | interface allowed => exact part _ (allowed.every.here)
  | given _ ih | initializerVariables _ ih | initializerExpression _ ih | declared _ ih
  | declaredVariables _ ih | blockStatement _ ih => exact ih
  | _ => rfl

end Grammar

namespace Source

/-- The essence of the tokens of a text. -/
def essenceOf (t : Text) : Except ScanFault (List Text) :=
  (Token.scan t).map fun ts => essence ((Token.significant ts).map Token.text)

/-- The tokens of a text that is scanned into certain symbols. -/
theorem essenceOf_eq {t : Text} {ts : List Token} (symbols : Token.symbols t = some ts) :
    essenceOf t = .ok (essence ((Token.significant ts).map Token.text)) := by
  rw [Token.symbols_eq] at symbols
  cases scanned : Token.scan t with
  | error =>
    rw [scanned] at symbols
    cases symbols
  | ok found =>
    obtain rfl : found.map Token.unplaced = ts := by
      rw [scanned] at symbols
      exact Option.some.inj symbols
    have same : (Token.significant (found.map Token.unplaced)).map Token.text =
        (Token.significant found).map Token.text := by
      rw [Token.significant, List.filter_map, List.map_map]
      rfl
    rw [essenceOf, scanned, same]
    rfl

/-- Printing a program that was read loses, invents, doubles and moves no token: besides
parentheses, semicolons and commas at the end of lists, the printed text has the tokens of the
source. -/
theorem print_keeps_tokens (dialect : Dialect) (layout : Layout) (source : Text) {program : Node}
    (read : Source.read dialect source = .ok program)
    (untyped : ∀ node ∈ program.walk, node.isTyped = false) :
    ∃ text kept, program.print layout = .ok text ∧ essenceOf source = .ok kept ∧
      essenceOf text = .ok kept := by
  obtain ⟨ts, reads⟩ := reads_of_read read
  have every := Node.every_of_walk (p := (·.isTyped = false)) rfl program untyped
  have bare := Grammar.bare_of_fits reads.fits every
  have plain : program.Every (Grammar.Plain True) := bare.imp fun _ bare => ⟨bare, .inl trivial⟩
  have fits : Grammar.Fits (.untyped True) .program program :=
    reads.fits.withoutTypes plain False.elim
  have rendered : Grammar.Fits (.rendered True) .program program :=
    reads.fits.withoutTypes plain And.left
  have printed : (essence (Pieces.written (Pieces.node layout 0 program))).map some =
      program.spelling := (fits.renders layout 0).same
  have untyped : none ∉ program.spelling := by
    rw [← printed]
    simp
  have read := reads.spelling untyped
  have kept := (List.map_inj_right fun _ _ => Option.some.inj).mp (printed.trans read)
  have isPrinted := Transpiled.print_of_fits layout reads.fits
  refine ⟨_, essence ((Token.significant ts).map Token.text), isPrinted, ?_, ?_⟩
  · rw [essenceOf, reads.scanned]
    rfl
  · rw [(Print.pieced program reads.fits.chained).text,
      essenceOf_eq (rendered.symbols_text layout 0)]
    exact congrArg Except.ok kept

theorem print_keeps_tokens_hole :
    ∃ program text kept, Source.read .typescript "x=[(1),,]" = .ok program ∧
      program.print .compact = .ok text ∧ essenceOf "x=[(1),,]" = .ok kept ∧
      essenceOf text = .ok kept := by
  obtain ⟨program, read, untyped⟩ : ∃ program,
      Source.read .typescript "x=[(1),,]" = .ok program ∧
      program.walk.all (!·.isTyped) = true := ⟨_, rfl, rfl⟩
  obtain ⟨text, kept, printed, whole, same⟩ := print_keeps_tokens .typescript .compact _ read
    fun node visited => by simpa using List.all_eq_true.mp untyped node visited
  exact ⟨program, text, kept, read, printed, whole, same⟩

end Source

end TypeGloss
