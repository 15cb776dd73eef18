import Mathlib.Data.List.Chain
import TypeGloss.Proofs.TerminatorRule

/-!
# Refinement keeps the tokens

Marks and terminators change a stream of tokens in few ways. Every token but the line feeds stays,
in its order, with its text and its place. Its kind changes only by a mark: a reserved word may
become a name, an opening sign may be told apart, and a semicolon is a terminator. All that is added
are terminators without text, and none of them stands behind a terminator.
-/

namespace TypeGloss

namespace Token

/-- The kinds that a token may have behind refinement. -/
inductive Becomes : TokenKind → TokenKind → Prop
  | same (kind : TokenKind) : Becomes kind kind
  | name (word : Keyword) : Becomes (.keyword word) .name
  | arrowParen : Becomes .leftParen .arrowParen
  | objectBrace : Becomes .leftBrace .objectBrace
  | functionExpr : Becomes (.keyword .functionKw) .functionExpr
  | terminator : Becomes .semicolon .terminator

/-- The same token, with a kind that it may have behind refinement. -/
structure Kept (before after : Token) : Prop where
  text : after.text = before.text
  loc : after.loc = before.loc
  kind : Becomes before.kind after.kind

/-- Whether a token is a terminator without text. -/
def isInserted (t : Token) : Bool := t.kind = .terminator && t.text = []

/-- No kind that is given by a mark is changed again. -/
theorem Becomes.trans {a b c : TokenKind} (first : Becomes a b) (second : Becomes b c) :
    Becomes a c := by
  cases first with
  | same => exact second
  | name | arrowParen | objectBrace | functionExpr | terminator =>
    cases second
    constructor

theorem Becomes.newline_iff {a b : TokenKind} (becomes : Becomes a b) :
    a = .newline ↔ b = .newline := by
  cases becomes <;> simp

theorem Kept.refl (t : Token) : Kept t t := ⟨rfl, rfl, .same _⟩

theorem Kept.retype {t : Token} {kind : TokenKind} (becomes : Becomes t.kind kind) :
    Kept t (t.retype kind) := ⟨rfl, rfl, becomes⟩

theorem Kept.trans {a b c : Token} (first : Kept a b) (second : Kept b c) : Kept a c :=
  ⟨second.text.trans first.text, second.loc.trans first.loc, first.kind.trans second.kind⟩

theorem kept_trans {as bs cs : List Token} (first : List.Forall₂ Kept as bs)
    (second : List.Forall₂ Kept bs cs) : List.Forall₂ Kept as cs := by
  induction first generalizing cs with
  | nil => exact second
  | cons head _ ih =>
    cases second with
    | cons head' rest => exact .cons (head.trans head') (ih rest)

/-- Tokens that are kept have the same line feeds among them. -/
theorem kept_significant {as bs : List Token} (kept : List.Forall₂ Kept as bs) :
    List.Forall₂ Kept (significant as) (significant bs) := by
  refine List.rel_filter ?_ kept
  intro a b same
  simp [same.kind.newline_iff]

theorem kept_texts {as bs : List Token} (kept : List.Forall₂ Kept as bs)
    (texts : ∀ t ∈ as, t.text ≠ []) : ∀ t ∈ bs, t.text ≠ [] := by
  induction kept with
  | nil => simp
  | cons head _ ih =>
    obtain ⟨here, others⟩ := List.forall_mem_cons.mp texts
    exact List.forall_mem_cons.mpr ⟨head.text ▸ here, ih others⟩

theorem kept_markPropertyNames (ts : List Token) (before : Option TokenKind) (onNewLine : Bool) :
    List.Forall₂ Kept ts (markPropertyNamesFrom before onNewLine ts) := by
  induction ts generalizing before onNewLine with
  | nil => exact .nil
  | cons t rest ih =>
    rw [markPropertyNamesFrom]
    split
    · exact .cons (.refl t) (ih before true)
    · refine .cons ?_ (ih _ false)
      split
      · rename_i marked
        cases kind : t.kind with
        | keyword word => exact .retype (kind ▸ .name word)
        | _ => simp [kind, TokenKind.isKeyword] at marked
      · exact .refl t

theorem kept_markArrows (ts : List Token) : List.Forall₂ Kept ts (markArrows ts) := by
  induction ts with
  | nil => exact .nil
  | cons t rest ih =>
    refine .cons ?_ ih
    unfold arrowMark
    split
    · rename_i marked
      exact .retype (marked.1 ▸ .arrowParen)
    · exact .refl t

end Token

namespace Emitted

open TerminatorState (inserted)
open Token (Becomes Kept isInserted)

theorem becomes_kindOf (kinds : List TokenKind) (kind : TokenKind) :
    Becomes kind (kindOf kinds kind) := by
  unfold kindOf
  split_ifs with semicolon brace function
  · exact semicolon ▸ .terminator
  · exact brace.1 ▸ .objectBrace
  · exact function.1 ▸ .functionExpr
  · exact .same kind

/-- The rule emits every token once. -/
theorem kept_emissions (kinds : List TokenKind) (cells : List Spaced) :
    List.Forall₂ Kept (cells.map Spaced.token) ((emissions kinds cells).map Emission.token) := by
  induction cells generalizing kinds with
  | nil => exact .nil
  | cons first rest ih => exact .cons (.retype (becomes_kindOf kinds _)) (ih _)

/-- What the rule adds behind a token: nothing, or one terminator behind a kind that can end a
statement. -/
theorem terminators_cases (kind : TokenKind) (kinds : List TokenKind) (last : Spaced)
    (next : Option Token) :
    terminators (kind :: kinds) last next = [] ∨
      kind ≠ .terminator ∧ ∃ loc, terminators (kind :: kinds) last next = [inserted loc] := by
  have ends (can : canEnd (kind :: kinds) = true) : kind ≠ .terminator := by
    rintro rfl
    cases can
  unfold terminators
  split <;> split
  · rename_i statementEnds
    exact .inr ⟨ends statementEnds.1, _, rfl⟩
  · exact .inl rfl
  · rename_i can
    exact .inr ⟨ends can, _, rfl⟩
  · exact .inl rfl

/-- Without the terminators that were added, every token is left. -/
theorem filter_output (kinds : List TokenKind) {cells : List Spaced}
    (texts : ∀ cell ∈ cells, cell.token.text ≠ []) :
    ((emissions kinds cells).flatMap Emission.output).filter (!·.isInserted) =
      (emissions kinds cells).map Emission.token := by
  induction cells generalizing kinds with
  | nil => rfl
  | cons first rest ih =>
    obtain ⟨here, others⟩ := List.forall_mem_cons.mp texts
    have stays : isInserted (first.token.retype (kindOf kinds first.token.kind)) = false := by
      simp [isInserted, Token.retype, here]
    rw [emissions, List.flatMap_cons, List.filter_append, ih _ others, Emission.output,
      List.filter_cons_of_pos (by simp [stays])]
    rcases terminators_cases (kindOf kinds first.token.kind) kinds first
      (rest.head?.map Spaced.token) with none | ⟨-, loc, one⟩
    · simp [none]
    · simp [one, isInserted, inserted]

/-- What stands behind a terminator is a token with a text. -/
theorem isChain_output (kinds : List TokenKind) {cells : List Spaced}
    (texts : ∀ cell ∈ cells, cell.token.text ≠ []) :
    ((emissions kinds cells).flatMap Emission.output).IsChain
      fun a b => b.isInserted = true → a.kind ≠ .terminator := by
  induction cells generalizing kinds with
  | nil => exact .nil
  | cons first rest ih =>
    obtain ⟨-, others⟩ := List.forall_mem_cons.mp texts
    rw [emissions, List.flatMap_cons, List.isChain_append]
    refine ⟨?_, ih _ others, ?_⟩
    · rcases terminators_cases (kindOf kinds first.token.kind) kinds first
        (rest.head?.map Spaced.token) with none | ⟨noTerminator, loc, one⟩
      · simp [Emission.output, none]
      · simpa [Emission.output, one, Token.retype] using fun _ => noTerminator
    · intro a _ b isHead inserts
      cases rest with
      | nil => cases isHead
      | cons second rest =>
        obtain rfl := Option.some.inj isHead
        have text := others second List.mem_cons_self
        simp [isInserted, Token.retype, text] at inserts

end Emitted

namespace Token

theorem map_token_spaced (ts : List Token) : (spaced ts).map Spaced.token = significant ts := by
  induction ts with
  | nil => rfl
  | cons t rest ih =>
    unfold significant at ih ⊢
    rw [spaced, List.filter_cons]
    by_cases feed : t.kind = .newline
    · simpa [isFeed, feed] using ih
    · simpa [isFeed, feed] using ih

/-- Refinement keeps the tokens. Without the terminators that have no text, what comes out is what
went in without its line feeds: the same texts at the same places in the same order, under the same
kinds or under kinds that marks give. And no terminator without text stands behind a terminator. -/
theorem refine_keeps {ts : List Token} (texts : ∀ t ∈ ts, t.text ≠ []) :
    List.Forall₂ Kept (significant ts) ((refine ts).filter (!·.isInserted)) ∧
      (refine ts).IsChain fun a b => b.isInserted = true → a.kind ≠ .terminator := by
  have marked : List.Forall₂ Kept ts (markArrows (markPropertyNames ts)) :=
    kept_trans (kept_markPropertyNames ts none false) (kept_markArrows _)
  have cells : ∀ cell ∈ spaced (markArrows (markPropertyNames ts)), cell.token.text ≠ [] := by
    intro cell mem
    have inside := List.mem_map_of_mem (f := Spaced.token) mem
    rw [map_token_spaced] at inside
    exact kept_texts marked texts _ (List.mem_of_mem_filter inside)
  rw [refine, markArrowParameters_eq, insertTerminators_eq]
  refine ⟨?_, Emitted.isChain_output [] cells⟩
  rw [Emitted.filter_output [] cells]
  refine kept_trans (kept_significant marked) ?_
  rw [← map_token_spaced]
  exact Emitted.kept_emissions [] _

/-- A text in which all five changes of kinds occur, and two terminators are added. -/
theorem refine_keeps_marks :
    let ts := (scan "x.new=(a)=>[function()\x7b\x7d,\x7ba\x7d]\ny;z").toOption.getD []
    (∀ t ∈ ts, t.text ≠ []) ∧ ((refine ts).filter isInserted).length = 2 ∧
      List.Forall₂ Kept (significant ts) ((refine ts).filter (!·.isInserted)) ∧
      (refine ts).IsChain fun a b => b.isInserted = true → a.kind ≠ .terminator := by
  intro ts
  have texts : ∀ t ∈ ts, t.text ≠ [] := by decide +kernel
  exact ⟨texts, by decide +kernel, refine_keeps texts⟩

end Token

end TypeGloss
