import TypeGloss.Proofs.Rendered
import TypeGloss.Proofs.Scannable

/-!
# Printed trees are scanned into their tokens

The pieces of a tree that fits the grammar stay apart, so its text is scanned into exactly the
tokens that were put there. This holds also where a reserved word stands as an operand. Only the
quoted key of a type member may be torn, by a line feed; then the text is not scanned at all.
-/

namespace TypeGloss

open Lexeme (Spells isWordText IsName)

@[simp] theorem Node.carriesLinks_wrap (node : Node) :
    node.wrap.carriesLinks = node.carriesLinks := by
  cases node <;> rfl

theorem Pieces.node_wrap {e : Node} (carries : e.carriesLinks = true)
    (unwrapped : e.isWrapped = false) (layout : Layout) (depth : Nat) :
    Pieces.node layout depth e.wrap = Pieces.parens (Pieces.node layout depth e) := by
  cases e <;> cases carries <;> cases unwrapped <;> rfl

theorem Pieces.node_level (level : Parse.Level) (loc : Location) (sign : Text) (left right : Node)
    (layout : Layout) (depth : Nat) :
    Pieces.node layout depth (level.node loc sign left right) =
      Pieces.between layout (Pieces.node layout depth left) sign
        (Pieces.node layout depth right) := by
  cases level <;> rfl

theorem Pieces.node_identifier (loc : Location) (t : Text) (typing : Node) (layout : Layout)
    (depth : Nat) : Pieces.node layout depth (.identifier loc false t typing) = [Pieces.name t] :=
  rfl

/-- A quoted key with a line feed is torn. -/
theorem Key.isTorn_render {t : Text} (noWord : Key.isPlain t = false) (feed : .scalar '\n' ∈ t) :
    Lexeme.IsTorn (Key.render t) := by
  refine ⟨?_, Key.ofText?_torn noWord feed⟩
  rw [Key.render, if_neg (by simp [noWord])]
  exact List.cons_ne_nil _ _

theorem Pieces.memberHead_name {t : Text} (word : isWordText t = true) :
    Pieces.memberHead (.name t) false = [Pieces.name t] := by
  obtain ⟨plain, noFeed⟩ := Key.isPlain_of_isWordText word
  simp [Pieces.memberHead, Pieces.memberKey, MemberKey.text, plain, noFeed]

theorem Pieces.memberHead_string {t : Text} (noWord : Key.isPlain t = false) :
    Pieces.memberHead (.string (Key.render t)) false = [.token .string (Key.render t)] := by
  rw [Pieces.memberHead, MemberKey.text_string_render noWord, Pieces.memberKey,
    if_neg (by simp [noWord])]
  rfl

theorem Pieces.Opens.between {left : List Piece} (opens : Opens left) (layout : Layout)
    (sign : Text) (right : List Piece) : Opens (between layout left sign right) := by
  unfold Pieces.between
  split
  · exact (opens.append _).append _
  · exact (((opens.append _).append _).append _).append _

namespace Grammar

open Pieces (Scannable Closed Stopping Opens symbolSigns wordSigns)

/-- Whether a slot holds expressions. -/
def Form.isExpression : Form → Bool
  | .expression .. => true
  | _ => false

variable {G : Grammar} {torn : Prop}

theorem Fits.carriesLinks {form : Form} {node : Node} (fits : Fits G form node)
    (expression : form.isExpression = true) : node.carriesLinks = true := by
  induction fits with
  | wrapped inner unwrapped ih => rw [Node.carriesLinks_wrap, ih rfl]
  | binary level => cases level <;> rfl
  | _ => first | rfl | cases expression

private theorem isSign_of_levelSigns {level : Parse.Level} {sign : Text}
    (mem : sign ∈ levelSigns level) : sign ∈ symbolSigns ∨ sign ∈ wordSigns := by
  have all : ∀ level ∈ [Parse.Level.orElse, .andThen, .equality, .relational, .additive,
      .multiplicative], ∀ sign ∈ levelSigns level, sign ∈ symbolSigns ∨ sign ∈ wordSigns := by
    decide
  exact all level (by cases level <;> decide) sign mem

private theorem isSign_of_unarySigns {sign : Text} (mem : sign ∈ unarySigns) :
    sign ∈ symbolSigns ∨ sign ∈ wordSigns := by
  have all : ∀ sign ∈ unarySigns, sign ∈ symbolSigns ∨ sign ∈ wordSigns := by decide
  exact all sign mem

private theorem isSign_of_assignSigns {sign : Text} (mem : sign ∈ assignSigns) :
    sign ∈ symbolSigns := by
  have all : ∀ sign ∈ assignSigns, sign ∈ symbolSigns := by decide
  exact all sign mem

private theorem isSign_of_updateSigns {sign : Text} (mem : sign ∈ updateSigns) :
    Pieces.operator sign = [.token .incDec sign] ∧ (sign, .incDec) ∈ Lexeme.signs ∧
      Lexeme.isFinal sign = true ∧ sign ≠ "." := by
  have all : ∀ sign ∈ updateSigns, Pieces.operator sign = [.token .incDec sign] ∧
      (sign, .incDec) ∈ Lexeme.signs ∧ Lexeme.isFinal sign = true ∧ sign ≠ "." := by decide
  exact all sign mem

private theorem opens_unary {sign : Text} (mem : sign ∈ unarySigns) (ps : List Piece) :
    Opens (Pieces.operator sign ++ ps) := by
  have all : ∀ sign ∈ unarySigns, ∃ kind, Pieces.operator sign = [.token kind sign] ∧
      Lexeme.opensOperand kind = true ∧ Spells kind sign := by
    simp only [unarySigns, List.forall_mem_cons, List.not_mem_nil, IsEmpty.forall_iff,
      implies_true, and_true]
    refine ⟨?_, ?_, ?_, ?_, ?_, ?_, ?_⟩
    · exact ⟨.additive, by decide, rfl, by simp only [Spells]; decide⟩
    · exact ⟨.additive, by decide, rfl, by simp only [Spells]; decide⟩
    · exact ⟨.bang, by decide, rfl, by simp only [Spells]; decide⟩
    · exact ⟨.tilde, by decide, rfl, by simp only [Spells]; decide⟩
    · exact ⟨.keyword .typeofKw, by decide, by decide, rfl⟩
    · exact ⟨.keyword .voidKw, by decide, by decide, rfl⟩
    · exact ⟨.keyword .deleteKw, by decide, by decide, rfl⟩
  obtain ⟨kind, eq, opens, spells⟩ := all sign mem
  rw [eq]
  exact ⟨kind, sign, ps, rfl, opens, spells⟩

theorem opens_word {t : Text} (word : isWordText t = true) (ps : List Piece) :
    Opens (Pieces.name t :: ps) := by
  refine ⟨Pieces.wordKind t, t, ps, rfl, ?_, Pieces.spells_wordKind word⟩
  unfold Pieces.wordKind
  cases Keyword.ofSpelling? t <;> rfl

private theorem opens_keyword (word : Keyword) (ps : List Piece) :
    Opens (Pieces.keyword word :: ps) :=
  ⟨_, _, ps, rfl, rfl, rfl⟩

private theorem opens_leftParen (ps : List Piece) : Opens (Pieces.leftParen :: ps) :=
  ⟨_, _, ps, rfl, rfl, by simp only [Spells]; decide⟩

private theorem opens_leftBrace (ps : List Piece) : Opens (Pieces.leftBrace :: ps) :=
  ⟨_, _, ps, rfl, rfl, by simp only [Spells]; decide⟩

theorem Fits.opens {form : Form} {node : Node} (fits : Fits G form node)
    (expression : form.isExpression = true) (layout : Layout) (depth : Nat) :
    Opens (Pieces.node layout depth node) := by
  induction fits with
  | name isName => exact opens_word isName.1 []
  | number spelling => exact ⟨.number, _, [], rfl, rfl, spelling⟩
  | string spelling => exact ⟨.string, _, [], rfl, rfl, spelling⟩
  | template spelling => exact ⟨.template, _, [], rfl, rfl, spelling⟩
  | @boolean _ _ _ _ value => cases value <;> exact opens_keyword _ []
  | null => exact opens_keyword _ []
  | this => exact opens_keyword _ []
  | array each =>
    exact ⟨.leftBracket, "[", _, rfl, rfl, by simp only [Spells]; decide⟩
  | object opens each =>
    unfold Pieces.node
    rw [Pieces.wrapped, if_neg (by decide)]
    split <;> exact opens_leftBrace _
  | function opens named each block typed => exact opens_keyword _ _
  | call called each ih => exact (ih rfl).append _
  | construction called each => exact opens_keyword _ _
  | member inner word ih => exact (ih rfl).append _
  | index inner selected ih => exact (ih rfl).append _
  | wrapped inner unwrapped ih =>
    rw [Pieces.node_wrap (inner.carriesLinks rfl) unwrapped]
    exact opens_leftParen _
  | updateBehind loose sign inner ih => exact (ih rfl).append _
  | updateBefore loose sign inner ih =>
    obtain ⟨eq, isSign, -⟩ := isSign_of_updateSigns sign
    unfold Pieces.node
    simp only [Pieces.wrapped, Bool.false_eq_true, if_false, if_true, eq]
    exact ⟨.incDec, _, _, rfl, rfl, isSign⟩
  | unary loose sign inner ih =>
    unfold Pieces.node
    rw [Pieces.wrapped, if_neg (by decide), Pieces.before, List.append_assoc]
    exact opens_unary sign _
  | reservedUnary allowed loose word =>
    unfold Pieces.node
    rw [Pieces.wrapped, if_neg (by decide), Pieces.before, List.append_assoc]
    exact opens_unary (by decide) _
  | binary level loose sign first second ih =>
    rw [Pieces.node_level]
    exact (ih rfl).between layout _ _
  | reservedRight allowed loose first word ih =>
    rw [Pieces.node_level]
    exact (ih rfl).between layout _ _
  | conditional loose condition first second ih =>
    unfold Pieces.node
    simp only [Pieces.wrapped, Bool.false_eq_true, if_false, List.append_assoc]
    exact (ih rfl).append _
  | assignment loose sign assigned inner ih => exact (ih rfl).between layout _ _
  | arrow loose each inner => exact opens_leftParen _
  | arrowBlock loose each block => exact opens_leftParen _
  | @sequence _ _ _ _ first others loose several leading each ih =>
    obtain ⟨second, rest, rfl⟩ := List.exists_cons_of_ne_nil several
    exact ((ih rfl).append _).append _
  | _ => cases expression

/-- The signs of an optional member. -/
private theorem closed_optional : Closed torn [Pieces.question, Pieces.colon] :=
  ⟨fun rest separate => ⟨.inl ⟨by simp only [Spells]; decide, by rintro c ⟨⟩; decide⟩,
    (Closed.mark (by decide)).separate rest separate⟩⟩

/-- A key that is written, if it is on one line or may be torn. -/
theorem scannable_memberKey {t : Text} (whole : torn ∨ .scalar '\n' ∉ t) :
    Scannable torn (Pieces.memberKey t) := by
  unfold Pieces.memberKey
  split
  case isTrue plain =>
    rw [Key.isPlain_eq] at plain
    split
    · rename_i feed
      rw [if_pos feed] at plain
      exact ((Scannable.name plain).ended (by decide)).scannable
    · rename_i noFeed
      rw [if_neg noFeed] at plain
      exact .name plain
  case isFalse quoted =>
    rw [Bool.not_eq_true] at quoted
    by_cases feed : .scalar '\n' ∈ t
    · exact .ofTorn (whole.resolve_right (not_not_intro feed)) (Key.isTorn_render quoted feed)
    · exact .literal (Key.isString_render quoted feed) (by decide)

/-- What the pieces of type syntax have to do with what follows them, by the slot. -/
def TypeSlot.Spelled (torn : Prop) (layout : Layout) : TypeSlot → Node → Prop
  | .binding, node => ∀ depth, Scannable torn (Pieces.binding layout depth node)
  | _, node => ∀ depth, Scannable torn (Pieces.node layout depth node)

section Types

variable {W : Text → Prop} {K : MemberKey → Prop} {type : Node}

theorem TypeTree.opens {slot : TypeSlot} (tree : TypeTree W K slot type)
    (words : ∀ t, W t → isWordText t = true) (isType : slot = .type) (layout : Layout)
    (depth : Nat) : Opens (Pieces.node layout depth type) := by
  induction tree with
  | word isWord => exact opens_word (words _ isWord) []
  | reference isName =>
    unfold Pieces.node
    split <;> exact opens_word (words _ isName) _
  | @union loc members some each ih =>
    obtain ⟨first, rest, rfl⟩ := List.exists_cons_of_ne_nil some
    have opens := ih first List.mem_cons_self rfl
    unfold Pieces.node
    rw [Pieces.nodes, List.zipWith_cons_cons]
    refine Opens.join ?_ _ _
    cases first <;> first | exact opens | exact opens_leftParen _
  | @array loc element inner ih =>
    have opens := ih rfl
    unfold Pieces.node
    refine Opens.append ?_ _
    cases element <;> first | exact opens | exact opens_leftParen _
  | literal =>
    unfold Pieces.node Pieces.typeLiteral
    split
    · exact opens_leftBrace _
    · cases layout <;> exact opens_leftBrace _
  | function => exact opens_leftParen _
  | signature | binding => cases isType

theorem TypeTree.spelled {slot : TypeSlot} (tree : TypeTree W K slot type)
    (words : ∀ t, W t → isWordText t = true)
    (keys : ∀ key, K key → torn ∨ .scalar '\n' ∉ key.text) (layout : Layout) :
    slot.Spelled torn layout type := by
  induction tree with
  | word isWord => exact fun _ => .name (words _ isWord)
  | @reference loc name arguments isName each ih =>
    intro depth
    unfold Pieces.node
    rw [Pieces.nodes_eq_map]
    split
    · exact .name (words _ isName)
    have inner : Scannable torn (Pieces.commas layout (arguments.map (Pieces.node layout depth))) :=
      .commas layout (List.forall_mem_map.mpr fun a mem => ih a mem depth)
    have bracketed : Closed torn (Pieces.commas layout
        (arguments.map (Pieces.node layout depth)) ++ [.token .greater ">"]) :=
      inner.ended (by decide)
    exact .prepend (.name (words _ isName)) (Closed.cons (.mark (by decide)) bracketed).scannable
      (.mark (by decide) _)
  | @union loc members some each ih =>
    intro depth
    unfold Pieces.node
    rw [Pieces.nodes_eq_map, List.zipWith_map_right, List.zipWith_self]
    refine .bars layout (List.forall_mem_map.mpr fun member mem => ?_)
    have inner : Scannable torn (Pieces.node layout depth member) := ih member mem depth
    have opens := (each member mem).opens words rfl layout depth
    cases member <;>
      first | exact ⟨inner, opens⟩ | exact ⟨(Closed.parens inner).scannable, opens_leftParen _⟩
  | @array loc element inner ih =>
    intro depth
    have alone : Scannable torn (Pieces.node layout depth element) := ih depth
    have brackets : Closed torn [Pieces.leftBracket, Pieces.rightBracket] :=
      .cons (.mark (by decide)) (.mark (by decide))
    unfold Pieces.node
    refine (Scannable.close ?_ brackets (.mark (by decide) _)).scannable
    cases element <;> first | exact alone | exact (Closed.parens alone).scannable
  | @literal loc members each ih =>
    intro depth
    unfold Pieces.node Pieces.typeLiteral
    rw [Pieces.nodes_eq_map]
    split
    · exact (Closed.cons (.mark (by decide)) (.mark (by decide))).scannable
    cases layout with
    | compact =>
      refine (Closed.cons (.mark (by decide)) (Closed.append (.flatten ?_)
        (.mark (by decide)))).scannable
      simp only [List.mem_map, forall_exists_index, and_imp, forall_apply_eq_imp_iff₂]
      exact fun member mem => (ih member mem depth).ended (by decide)
    | pretty =>
      have inner : Scannable torn (Pieces.join [Pieces.semicolon, .blank]
          (members.map (Pieces.node .pretty depth))) :=
        .join (.cons (.mark (by decide)) (.blank .nil)) (.mark (by decide) _)
          (List.forall_mem_map.mpr fun member mem => ih member mem depth)
      refine (Closed.cons (.mark (by decide)) (.blank ?_)).scannable
      exact inner.close (.blank (.mark (by decide))) (.blank _)
  | @function loc params result each inner ihEach ih =>
    intro depth
    have list : Scannable torn (Pieces.commas layout (params.map (Pieces.binding layout depth))) :=
      .commas layout (List.forall_mem_map.mpr fun p mem => ihEach p mem depth)
    unfold Pieces.node
    rw [Pieces.bindings_eq_map]
    simp only [List.append_assoc, List.cons_append]
    exact (Closed.parens list).before
      (.spaced layout (.cons (.mark (by decide)) (.spaced layout (ih depth))))
  | @signature loc key type optional isKey inner ih =>
    intro depth
    have keyed := scannable_memberKey (keys key isKey)
    have typed : Scannable torn (Pieces.space layout ++ Pieces.node layout depth type) :=
      .spaced layout (ih depth)
    unfold Pieces.node Pieces.memberHead
    rw [List.append_assoc, List.append_assoc]
    cases optional with
    | true => exact keyed.append (closed_optional.before typed) (.sign (by decide) (by decide) _)
    | false => exact keyed.append (.cons (.mark (by decide)) typed) (.mark (by decide) _)
  | @binding loc name type isName inner ih =>
    intro depth
    have typed : Scannable torn (Pieces.colon :: (Pieces.space layout ++
        Pieces.node layout depth type)) := .cons (.mark (by decide)) (.spaced layout (ih depth))
    unfold Pieces.binding Pieces.ascription
    rw [if_neg (by simp [inner.isAbsent])]
    exact .prepend (.name (words _ isName)) typed (.mark (by decide) _)

theorem InterfaceTree.closed (tree : InterfaceTree W K type)
    (words : ∀ t, W t → isWordText t = true)
    (keys : ∀ key, K key → torn ∨ .scalar '\n' ∉ key.text) (layout : Layout) (depth : Nat) :
    Closed torn (Pieces.sealed type (Pieces.node layout depth type)) := by
  obtain @⟨loc, nameLoc, name, members, isName, each⟩ := tree
  have body : Closed torn (Pieces.space layout ++ Pieces.braced layout depth
      ((members.map (Pieces.node layout (depth + 1))).map Pieces.terminated)) := by
    refine (Closed.space layout).append (.braced layout depth ?_)
    simp only [List.mem_map, forall_exists_index, and_imp, forall_apply_eq_imp_iff₂]
    exact fun member mem => ((each member mem).spelled words keys layout _).ended (by decide)
  have opened : Stopping (Pieces.space layout ++ Pieces.braced layout depth
      ((members.map (Pieces.node layout (depth + 1))).map Pieces.terminated)) := by
    refine .spaced layout ?_
    unfold Pieces.braced
    split
    · exact .mark (by decide) _
    · cases layout <;> exact .mark (by decide) _
  have named := (Scannable.name (words _ isName)).close body opened
  unfold Pieces.sealed Pieces.node
  rw [Pieces.nodes_eq_map, List.append_assoc]
  exact (Scannable.keyword .interfaceKw).close (Closed.blank named) (.blank _)

end Types

/-- A type that stays apart from what follows it. -/
structure SpelledType (torn : Prop) (type : Node) : Prop where
  present : type.isAbsent = false
  scannable : ∀ layout depth, Scannable torn (Pieces.node layout depth type)

/-- A grammar whose types and interfaces stay apart from what follows them. -/
structure SpellsTypes (torn : Prop) (G : Grammar) : Prop where
  annotated : ∀ {name type}, G.annotated name type →
    isWordText name = true ∧ SpelledType torn type
  result : ∀ {type}, G.result type → SpelledType torn type
  interface : ∀ {node}, G.interface node → ∀ layout depth,
    Closed torn (Pieces.sealed node (Pieces.node layout depth node))

theorem spellsTypes_withTypes {W : Text → Prop} {K : MemberKey → Prop} (R : Prop)
    (words : ∀ t, W t → isWordText t = true)
    (keys : ∀ key, K key → torn ∨ .scalar '\n' ∉ key.text) :
    SpellsTypes torn (withTypes W K R) where
  annotated typed := ⟨typed.1, typed.2.isAbsent, fun layout => typed.2.spelled words keys layout⟩
  result tree := ⟨tree.isAbsent, fun layout => tree.spelled words keys layout⟩
  interface tree := tree.closed words keys

theorem spellsTypes_rendered (R : Prop) : SpellsTypes torn (rendered R) := by
  have spells : SpellsTypes torn (withTypes (isWordText · = true) SettledKey R) :=
    spellsTypes_withTypes R (fun _ => id) fun _ settled => .inr settled.oneLine
  refine ⟨fun typed => spells.annotated ⟨typed.1.1, typed.2.typeTree⟩,
    fun fits => spells.result fits.typeTree, fun fits => spells.interface ?_⟩
  obtain ⟨isName, each⟩ := fits
  exact .mk isName.1 fun member mem => (each member mem).typeTree

/-- What the pieces of a node have to do with what follows them, by the slot of the node. -/
def Form.Spelled (torn : Prop) (layout : Layout) : Form → Node → Prop
  | .param, node => ∀ depth, Scannable torn (Pieces.binding layout depth node)
  | .block, node => ∀ depth, Closed torn (Pieces.node layout depth node) ∧
      Closed torn (Pieces.blockOf layout depth node)
  | .declared, node | .statement _, node =>
    ∀ depth, Closed torn (Pieces.sealed node (Pieces.node layout depth node))
  | .program, node => ∀ depth, Closed torn (Pieces.node layout depth node)
  | _, node => ∀ depth, Scannable torn (Pieces.node layout depth node)

private theorem scannable_ascription {type : Node} (layout : Layout) (depth : Nat)
    (spelled : SpelledType torn type) :
    Scannable torn (Pieces.ascription layout type (Pieces.node layout depth type)) ∧
      Stopping (Pieces.ascription layout type (Pieces.node layout depth type)) := by
  rw [Pieces.ascription, if_neg (by simp [spelled.present])]
  exact ⟨.cons (.mark (by decide)) (.spaced layout (spelled.scannable layout depth)),
    .mark (by decide) _⟩

private theorem scannable_binder (spells : SpellsTypes torn G) {node : Node} (layout : Layout)
    (depth : Nat) (bound : Binder G node) :
    Scannable torn (Pieces.binding layout depth node) := by
  cases bound with
  | plain isName => exact .name isName.1
  | typed annotated =>
    obtain ⟨word, spelled⟩ := spells.annotated annotated
    obtain ⟨ascribed, stopping⟩ := scannable_ascription layout depth spelled
    exact .prepend (.name word) ascribed stopping

private theorem scannable_valued {left value : List Piece} {node : Node} (layout : Layout)
    (first : Scannable torn left) (opens : node.isAbsent = false → Opens value)
    (second : Scannable torn value) :
    Scannable torn (left ++ Pieces.valuePart layout node value) := by
  unfold Pieces.valuePart
  split
  · simpa using first
  · rename_i some
    rw [List.append_assoc]
    have signed : Scannable torn (Pieces.assign :: (Pieces.space layout ++ value)) :=
      .signSpaced layout (by decide) (by decide) (opens (by simpa using some)) second
    exact first.append (.spaced layout signed) (.spaced layout (.sign (by decide) (by decide) _))

private theorem closed_function (spells : SpellsTypes torn G) {name result : Node}
    {params : List Node} {block : List Piece} (layout : Layout) (depth : Nat)
    (named : NameSlot name)
    (each : ∀ p ∈ params, Scannable torn (Pieces.binding layout depth p))
    (typed : ResultSlot G result) (closed : Closed torn block)
    (braced : Stopping block) :
    Closed torn (Pieces.function layout name (params.map (Pieces.binding layout depth))
      (Pieces.ascription layout result (Pieces.node layout depth result)) block) := by
  have list : Closed torn (Pieces.parens
      (Pieces.commas layout (params.map (Pieces.binding layout depth)))) :=
    .parens (.commas layout (by simpa using each))
  have tail : Closed torn (Pieces.ascription layout result (Pieces.node layout depth result) ++
      (Pieces.space layout ++ block)) := by
    have spaced := (Closed.space layout).append closed
    cases typed with
    | none => exact spaced
    | some result =>
      exact (scannable_ascription layout depth (spells.result result)).1.close spaced
        (.spaced layout braced)
  have named : Closed torn (Pieces.keyword .functionKw :: Pieces.functionName layout name ++
      (Pieces.parens (Pieces.commas layout (params.map (Pieces.binding layout depth))))) := by
    unfold Pieces.functionName
    cases named with
    | none =>
      exact (Scannable.keyword .functionKw).close ((Closed.space layout).append list)
        (.spaced layout (.parens _))
    | some isName =>
      have name := (Scannable.name isName.1).close list (.parens _)
      exact (Scannable.keyword .functionKw).close (Closed.blank name) (.blank _)
  unfold Pieces.function
  rw [List.append_assoc, List.append_assoc]
  exact named.append tail

private theorem stopping_block (layout : Layout) (depth : Nat) (statements : List Node)
    (lines : List (List Piece)) : Stopping (Pieces.block layout depth statements lines) := by
  unfold Pieces.block Pieces.braced
  split
  · exact .mark (by decide) _
  · cases layout <;> exact .mark (by decide) _

private theorem stopping_isBlock {node : Node} (layout : Layout) (depth : Nat)
    (isBlock : Print.isBlock node = true) : Stopping (Pieces.node layout depth node) := by
  cases node with
  | block loc body => exact stopping_block layout depth _ _
  | _ => cases isBlock

private theorem scannable_headerPart {ps : List Piece} (layout : Layout) (part : Node)
    (inner : Scannable torn ps) : Scannable torn (Pieces.headerPart layout part ps) := by
  unfold Pieces.headerPart
  split
  · exact inner
  · exact .spaced layout inner

private theorem scannable_loopHeader {initializer test step : List Piece}
    (initial : Scannable torn initializer) (condition : Scannable torn test)
    (increment : Scannable torn step) :
    Scannable torn (Pieces.loopHeader initializer test step) := by
  have tail : Scannable torn (test ++ Pieces.semicolon :: step) :=
    condition.append (.cons (.mark (by decide)) increment) (.mark (by decide) _)
  unfold Pieces.loopHeader
  rw [List.append_assoc]
  exact initial.append (.cons (.mark (by decide)) tail) (.mark (by decide) _)

private theorem closed_lines {layout : Layout} {body : List Node} (depth : Nat)
    (each : ∀ s ∈ body, ∀ depth, Closed torn (Pieces.sealed s (Pieces.node layout depth s))) :
    ∀ line ∈ body.zipWith Pieces.sealed (Pieces.nodes layout depth body), Closed torn line := by
  rw [Pieces.nodes_eq_map, List.zipWith_map_right, List.zipWith_self]
  intro line mem
  obtain ⟨s, isStatement, rfl⟩ := List.mem_map.mp mem
  exact each s isStatement depth

private theorem closed_body {layout : Layout} {statement : Node} (afterWord : Bool) (depth : Nat)
    (closed : Closed torn (Pieces.sealed statement (Pieces.node layout depth statement))) :
    Closed torn (Pieces.body layout afterWord statement (Pieces.node layout depth statement)) := by
  unfold Pieces.body
  split
  · cases statement <;> first | exact (Closed.space layout).append closed | contradiction
  · exact (Closed.blankIf _).append closed

private theorem closed_else {layout : Layout} {consequent alternate : Node} (depth : Nat)
    (closed : Closed torn (Pieces.sealed alternate (Pieces.node layout depth alternate))) :
    Closed torn (Pieces.elsePart layout depth consequent alternate
      (Pieces.node layout depth alternate)) := by
  have stopping : Stopping (Pieces.body layout true alternate
      (Pieces.node layout depth alternate)) := by
    unfold Pieces.body
    split
    · rename_i isBlock
      exact .spaced layout (stopping_isBlock layout depth isBlock)
    · exact .blank _
  have gap : Closed torn (Pieces.beforeElse layout depth consequent) := by
    have line : Closed torn (Pieces.newline :: Pieces.indent depth) :=
      .cons (.mark (by decide)) (.indent depth)
    cases layout with
    | compact => exact .nil
    | pretty =>
      simp only [Pieces.beforeElse]
      split
      · exact .blank .nil
      · exact line
  unfold Pieces.elsePart
  split
  · exact .nil
  · exact gap.append ((Scannable.keyword .elseKw).close (closed_body true depth closed) stopping)

private theorem closed_header {header body : List Piece} (layout : Layout) (word : Keyword)
    (closed : Closed torn header) (stopping : Stopping header) (later : Closed torn body) :
    Closed torn (Pieces.keyword word :: Pieces.space layout ++ header ++ body) := by
  rw [List.append_assoc]
  exact (Scannable.keyword word).close ((Closed.space layout).append (closed.append later))
    (.spaced layout (stopping.append _))

private theorem scannable_array {layout : Layout} {depth : Nat} {loc : Location}
    {elements : List Node} (each : ∀ e ∈ elements, Scannable torn (Pieces.node layout depth e)) :
    Scannable torn (Pieces.node layout depth (.array loc false elements)) := by
  have inItems : ∀ ps ∈ elements.map (Pieces.node layout depth), Scannable torn ps :=
    List.forall_mem_map.mpr each
  have items : Scannable torn (Pieces.commas layout
      (Pieces.arrayItems elements (elements.map (Pieces.node layout depth)))) := by
    refine .commas layout fun ps mem => ?_
    unfold Pieces.arrayItems at mem
    split at mem
    · rcases List.mem_append.mp mem with mem | mem
      · exact inItems ps mem
      · obtain rfl := List.mem_singleton.mp mem
        exact Closed.nil.scannable
    · exact inItems ps mem
  unfold Pieces.node
  rw [Pieces.nodes_eq_map]
  exact (Closed.cons (.mark (by decide)) (items.ended (by decide))).scannable

private theorem scannable_object {layout : Layout} {depth : Nat} {loc : Location}
    {properties : List Node}
    (each : ∀ p ∈ properties, Scannable torn (Pieces.node layout depth p)) :
    Scannable torn (Pieces.node layout depth (.object loc false properties)) := by
  have items : Scannable torn (Pieces.commas layout (properties.map (Pieces.node layout depth))) :=
    .commas layout (List.forall_mem_map.mpr each)
  unfold Pieces.node
  rw [Pieces.nodes_eq_map, Pieces.wrapped, if_neg (by decide)]
  split
  · exact (Closed.cons (.mark (by decide)) (.mark (by decide))).scannable
  · have inner : Closed torn (Pieces.commas layout (properties.map (Pieces.node layout depth)) ++
        (Pieces.space layout ++ [Pieces.rightBrace])) :=
      items.close ((Closed.space layout).append (.mark (by decide)))
        (.spaced layout (.mark (by decide) []))
    simp only [List.append_assoc, List.cons_append]
    exact (Closed.cons (.mark (by decide)) ((Closed.space layout).append inner)).scannable

private theorem scannable_arrow {layout : Layout} {depth : Nat} {loc : Location}
    {params : List Node} {body : Node}
    (each : ∀ p ∈ params, Scannable torn (Pieces.binding layout depth p))
    (inner : Scannable torn (Pieces.node layout depth body)) :
    Scannable torn (Pieces.node layout depth (.arrowFunction loc false params body)) := by
  have list : Scannable torn (Pieces.commas layout (params.map (Pieces.binding layout depth))) :=
    .commas layout (List.forall_mem_map.mpr each)
  have tail : Scannable torn (Pieces.arrow :: (Pieces.space layout ++
      Pieces.wrapped (Print.isBareObject body) (Pieces.node layout depth body))) :=
    .cons (.mark (by decide)) (.spaced layout (inner.wrapped _))
  unfold Pieces.node
  rw [Pieces.bindings_eq_map, Pieces.wrapped, if_neg (by decide)]
  simp only [List.append_assoc, List.cons_append]
  exact (Closed.parens list).before (.spaced layout tail)

/-- The pieces of a tree that fits the grammar stay apart. -/
theorem Fits.spelled {form : Form} {node : Node} (fits : Fits G form node)
    (spells : SpellsTypes torn G) (layout : Layout) : form.Spelled torn layout node := by
  induction fits with
  | name isName => exact fun _ => .name isName.1
  | number spelling => exact fun _ => .literal spelling (by decide)
  | string spelling => exact fun _ => .literal spelling (by decide)
  | template spelling => exact fun _ => .literal spelling (by decide)
  | boolean => exact fun _ => .keyword _
  | null => exact fun _ => .keyword _
  | this => exact fun _ => .keyword _
  | array each ih => exact fun depth => scannable_array fun e mem => ih e mem depth
  | object opens each ih => exact fun depth => scannable_object fun p mem => ih p mem depth
  | function opens named each block typed ihEach ihBlock =>
    intro depth
    unfold Pieces.node
    rw [Pieces.bindings_eq_map]
    refine (closed_function spells layout depth named (fun p mem => ihEach p mem depth) typed
      (ihBlock depth).2 ?_).scannable
    cases block
    exact stopping_block layout depth _ _
  | @call _ _ _ _ callee arguments called each ih ihEach =>
    intro depth
    have items : Scannable torn (Pieces.commas layout (arguments.map (Pieces.node layout depth))) :=
      .commas layout (by simpa using fun a mem => ihEach a mem depth)
    unfold Pieces.node
    rw [Pieces.nodes_eq_map]
    exact ((ih depth).close (.parens items) (.parens _)).scannable
  | @construction _ _ _ _ callee arguments called each ih ihEach =>
    intro depth
    have items : Scannable torn (Pieces.commas layout (arguments.map (Pieces.node layout depth))) :=
      .commas layout (by simpa using fun a mem => ihEach a mem depth)
    unfold Pieces.node
    rw [Pieces.nodes_eq_map]
    exact ((Scannable.keyword .newKw).close
      (Closed.blank ((ih depth).close (.parens items) (.parens _))) (.blank _)).scannable
  | member inner word ih =>
    intro depth
    exact (ih depth).append (Scannable.selector word) (Stopping.selector word [])
  | index inner selected ih ihSelected =>
    intro depth
    exact ((ih depth).close (.cons (.mark (by decide))
      ((ihSelected depth).ended (by decide)))
      (.mark (by decide) _)).scannable
  | wrapped inner unwrapped ih =>
    intro depth
    rw [Pieces.node_wrap (inner.carriesLinks rfl) unwrapped]
    exact (Closed.parens (ih depth)).scannable
  | updateBehind loose sign inner ih =>
    intro depth
    obtain ⟨eq, isSign, final, noPoint⟩ := isSign_of_updateSigns sign
    have behind := ((ih depth).close (.sign isSign final) (.sign isSign noPoint [])).scannable
    unfold Pieces.node
    simpa [Pieces.wrapped, eq] using behind
  | updateBefore loose sign inner ih =>
    intro depth
    obtain ⟨eq, isSign, final, noPoint⟩ := isSign_of_updateSigns sign
    have before := (Closed.sign isSign final).before (ih depth)
    unfold Pieces.node
    simpa [Pieces.wrapped, eq] using before
  | unary loose sign inner ih =>
    intro depth
    exact .before (isSign_of_unarySigns sign) (ih depth) (inner.opens rfl layout depth)
  | reservedUnary allowed loose word =>
    intro depth
    exact .before (isSign_of_unarySigns (by decide)) (.name word) (opens_word word [])
  | binary level loose sign first second ihFirst ihSecond =>
    intro depth
    rw [Pieces.node_level]
    exact .between layout (isSign_of_levelSigns sign) (ihFirst depth) (ihSecond depth)
      (second.opens rfl layout depth)
  | reservedRight allowed loose first word ih =>
    intro depth
    have sign : greaterSign ∈ symbolSigns := by decide
    rw [Pieces.node_level, Pieces.node_identifier]
    exact .between layout (.inl sign) (ih depth) (.name word) (opens_word word [])
  | conditional loose condition first second ihCondition ihFirst ihSecond =>
    intro depth
    unfold Pieces.node
    simp only [Pieces.wrapped, Bool.false_eq_true, if_false, List.append_assoc, List.cons_append]
    refine (ihCondition depth).append (.spaced layout (.signSpaced layout (by decide) (by decide)
      ((first.opens rfl layout depth).append _) ?_))
        (.spaced layout (.sign (by decide) (by decide) _))
    exact (ihFirst depth).append
      (.spaced layout (.cons (.mark (by decide)) (.spaced layout (ihSecond depth))))
      (.spaced layout (.mark (by decide) _))
  | assignment loose sign assigned inner ihAssigned ihInner =>
    intro depth
    exact .between layout (.inl (isSign_of_assignSigns sign)) (ihAssigned depth) (ihInner depth)
      (inner.opens rfl layout depth)
  | arrow loose each inner ihEach ihInner =>
    exact fun depth => scannable_arrow (fun p mem => ihEach p mem depth) (ihInner depth)
  | arrowBlock loose each block ihEach ihBlock =>
    exact fun depth =>
      scannable_arrow (fun p mem => ihEach p mem depth) (ihBlock depth).1.scannable
  | @sequence _ _ _ _ first others loose several leading each ih ihEach =>
    intro depth
    unfold Pieces.node
    rw [Pieces.nodes_eq_map]
    refine .commas layout ?_
    rw [List.map_cons, List.forall_mem_cons]
    exact ⟨ih depth, by simpa using fun e mem => ihEach e mem depth⟩
  | omitted => exact fun _ => Closed.nil.scannable
  | given inner ih => exact ih
  | calleeName isName => exact fun _ => .name isName.1
  | calleeMember inner word ih =>
    exact fun depth => (ih depth).append (Scannable.selector word) (Stopping.selector word [])
  | shorthand isName => exact fun _ => .name isName.1
  | @property loc key value isKey inner ih =>
    intro depth
    have keyed : Scannable torn (Pieces.key key) := by
      cases isKey with
      | name word => exact .name word
      | string spelling => exact .literal spelling (by decide)
      | number spelling => exact .literal spelling (by decide)
    unfold Pieces.node
    rw [if_neg (by decide), List.append_assoc]
    exact keyed.append (.cons (.mark (by decide)) (.spaced layout (ih depth))) (.mark (by decide) _)
  | param bound => exact fun depth => scannable_binder spells layout depth bound
  | defaultParam bound inner ih =>
    intro depth
    exact scannable_valued layout (scannable_binder spells layout depth bound)
      (fun _ => inner.opens rfl layout depth) (ih depth)
  | @declarator loc binder initializer bound inner ih =>
    intro depth
    refine scannable_valued layout (scannable_binder spells layout depth bound) (fun some => ?_)
      (ih depth)
    cases inner with
    | omitted => cases some
    | given inner => exact inner.opens rfl layout depth
  | @declaration loc keyword declarators word some each ih =>
    intro depth
    have isWord : isWordText keyword = true := by
      have all : ∀ word ∈ declarationWords, isWordText word = true := by decide
      exact all keyword word
    unfold Pieces.node
    rw [Pieces.nodes_eq_map]
    exact .prepend (.name isWord)
      (.blank (.commas layout (by simpa using fun d mem => ih d mem depth))) (.blank _)
  | declaredVariables inner ih =>
    intro depth
    cases inner
    exact (ih depth).ended (by decide)
  | declaredFunction named each block typed ihEach ihBlock =>
    intro depth
    unfold Pieces.sealed Pieces.node
    rw [Pieces.bindings_eq_map]
    refine closed_function spells layout depth named (fun p mem => ihEach p mem depth) typed
      (ihBlock depth).2 ?_
    cases block
    exact stopping_block layout depth _ _
  | noInitializer => exact fun _ => Closed.nil.scannable
  | initializerVariables inner ih => exact ih
  | initializerExpression inner ih => exact ih
  | block each ih =>
    intro depth
    have closed := Closed.braced layout depth (closed_lines (depth + 1) ih)
    exact ⟨closed, closed⟩
  | declared inner ih => exact ih
  | interface allowed => exact spells.interface allowed layout
  | exportNamed inner ih =>
    intro depth
    exact (Scannable.keyword .exportKw).close (Closed.blank (ih depth)) (.blank _)
  | exportDefault inner ih =>
    intro depth
    have tail := (Scannable.keyword .defaultKw).close (Closed.blank (ih depth)) (.blank _)
    exact (Scannable.keyword .exportKw).close (Closed.blank tail) (.blank _)
  | blockStatement inner ih =>
    intro depth
    have closed := (ih depth).1
    cases inner
    exact closed
  | @returned c loc argument inner ih =>
    intro depth
    change Closed torn (Pieces.node layout depth (.returnStatement loc argument))
    unfold Pieces.node
    split
    · exact (Scannable.keyword .returnKw).ended (show Pieces.semicolon ∈ Pieces.marks by decide)
    · have ended : Closed torn (Pieces.node layout depth argument ++ [Pieces.semicolon]) :=
        (ih depth).ended (by decide)
      exact (Scannable.keyword .returnKw).close (Closed.blank ended) (.blank _)
  | @thrown c loc argument inner ih =>
    intro depth
    have ended : Closed torn (Pieces.node layout depth argument ++ [Pieces.semicolon]) :=
      (ih depth).ended (by decide)
    exact (Scannable.keyword .throwKw).close (Closed.blank ended) (.blank _)
  | breakStatement =>
    exact fun _ => (Scannable.keyword .breakKw).ended (show Pieces.semicolon ∈ _ by decide)
  | continueStatement =>
    exact fun _ => (Scannable.keyword .continueKw).ended (show Pieces.semicolon ∈ _ by decide)
  | emptyStatement => exact fun _ => .mark (by decide)
  | expressionStatement inner ih => exact fun depth => ((ih depth).wrapped _).ended (by decide)
  | ifThen condition first ihCondition ihFirst =>
    intro depth
    exact (closed_header layout .ifKw (.parens (ihCondition depth)) (.parens _)
      (closed_body false depth (ihFirst depth))).append .nil
  | ifElse condition first second ihCondition ihFirst ihSecond =>
    intro depth
    exact (closed_header layout .ifKw (.parens (ihCondition depth)) (.parens _)
      (closed_body false depth (ihFirst depth))).append (closed_else depth (ihSecond depth))
  | whileLoop condition inner ihCondition ihInner =>
    intro depth
    exact closed_header layout .whileKw (.parens (ihCondition depth)) (.parens _)
      (closed_body false depth (ihInner depth))
  | forLoop initial condition increment inner ihInitial ihCondition ihIncrement ihInner =>
    intro depth
    refine closed_header layout .forKw (.parens ?_) (.parens _)
      (closed_body false depth (ihInner depth))
    exact scannable_loopHeader (ihInitial depth) (scannable_headerPart layout _ (ihCondition depth))
      (scannable_headerPart layout _ (ihIncrement depth))
  | @program loc body each ih =>
    intro depth
    have lines := closed_lines depth ih
    cases layout with
    | compact => exact .flatten lines
    | pretty =>
      refine .flatten fun ps mem => ?_
      obtain ⟨line, isLine, rfl⟩ := List.mem_map.mp mem
      exact (lines line isLine).append (.mark (by decide))

theorem Fits.separate {program : Node} (fits : Fits G .program program)
    (spells : SpellsTypes torn G) (layout : Layout) (depth : Nat) :
    Pieces.Separate torn (Pieces.node layout depth program) := by
  have closed : Closed torn (Pieces.node layout depth program) := fits.spelled spells layout depth
  have separate := closed.separate [] trivial
  rwa [List.append_nil] at separate

/-- The text of a program that fits the grammar is scanned into its tokens. -/
theorem Fits.symbols_text {R : Prop} {program : Node} (fits : Fits (rendered R) .program program)
    (layout : Layout) (depth : Nat) :
    Token.symbols (Pieces.text (Pieces.node layout depth program)) =
      some (Pieces.tokens (Pieces.node layout depth program)) := by
  have spells : SpellsTypes False (rendered R) := spellsTypes_rendered R
  have separate := fits.separate spells layout depth
  rw [Pieces.symbols_text separate, if_pos separate.isWhole]

end Grammar

end TypeGloss
