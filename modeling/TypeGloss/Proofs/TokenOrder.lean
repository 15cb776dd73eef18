import Mathlib.Order.Defs.LinearOrder
import TypeGloss.Proofs.Conservation
import TypeGloss.Proofs.Trail

/-!
# The order of tokens

Locations are ordered by line and then by column. Scanned tokens come in this order. Marks leave
them in their places, and a terminator that is inserted stands at a line feed or at a token beside
it, so the tokens of a stream come in this order too; and nothing before the brace of a block stands
where the brace stands.
-/

namespace TypeGloss

namespace Location

/-- Places are ordered by line, and on a line by column. -/
instance : LE Location := ⟨fun a b => a.le b = true⟩

instance : LT Location := ⟨fun a b => a ≤ b ∧ ¬b ≤ a⟩

instance (a b : Location) : Decidable (a ≤ b) := inferInstanceAs (Decidable (a.le b = true))

theorem le_iff {a b : Location} :
    a ≤ b ↔ a.line < b.line ∨ a.line = b.line ∧ a.column ≤ b.column := by
  change a.le b = true ↔ _
  simp [le]

theorem lt_iff {a b : Location} :
    a < b ↔ a.line < b.line ∨ a.line = b.line ∧ a.column < b.column := by
  change a ≤ b ∧ ¬b ≤ a ↔ _
  rw [le_iff, le_iff]
  omega

instance : LinearOrder Location where
  le_refl a := by simp [le_iff]
  le_trans a b c := by
    simp only [le_iff]
    omega
  le_antisymm a b := by
    obtain ⟨line, column⟩ := a
    obtain ⟨line', column'⟩ := b
    simp only [le_iff, Location.mk.injEq]
    omega
  le_total a b := by
    simp only [le_iff]
    omega
  toDecidableEq := inferInstanceAs (DecidableEq Location)
  toDecidableLE a b := inferInstanceAs (Decidable (a ≤ b))

theorem lt_after (here : Location) (c : CodePoint) : here < here.after c := by
  unfold after
  split <;> simp [lt_iff]

end Location

namespace Token

/-- Tokens that were found, the latest first: each stands before the later ones, and all of them
before a place. -/
structure Descends (done : List Token) (here : Location) : Prop where
  pairwise : done.Pairwise fun later earlier => earlier.loc < later.loc
  before : ∀ t ∈ done, Location.first ≤ t.loc ∧ t.loc < here

theorem Descends.after {done : List Token} {here : Location} (descends : Descends done here)
    (c : CodePoint) : Descends done (here.after c) :=
  ⟨descends.pairwise, fun t mem =>
    ⟨(descends.before t mem).1, (descends.before t mem).2.trans (Location.lt_after here c)⟩⟩

theorem Descends.cons {done : List Token} {here : Location} (descends : Descends done here)
    (start : Location.first ≤ here) (kind : TokenKind) (text : Text) (c : CodePoint) :
    Descends (⟨kind, text, here⟩ :: done) (here.after c) := by
  refine ⟨List.pairwise_cons.mpr ⟨fun t mem => (descends.before t mem).2, descends.pairwise⟩, ?_⟩
  exact List.forall_mem_cons.mpr ⟨⟨start, Location.lt_after here c⟩, (descends.after c).before⟩

theorem scanFrom_ascends {t : Text} {here : Location} {skip : Nat} {done ts : List Token}
    (start : Location.first ≤ here) (descends : Descends done here)
    (scanned : scanFrom here skip done t = .ok ts) :
    ts.Pairwise (fun earlier later => earlier.loc < later.loc) ∧
      ∀ t ∈ ts, Location.first ≤ t.loc := by
  induction t generalizing here skip done with
  | nil =>
    obtain rfl := Except.ok.inj scanned
    exact ⟨List.pairwise_reverse.mpr descends.pairwise,
      fun t mem => (descends.before t (List.mem_reverse.mp mem)).1⟩
  | cons c rest ih =>
    have further := start.trans (Location.lt_after here c).le
    cases skip with
    | succ skip => exact ih further (descends.after c) scanned
    | zero =>
      rw [scanFrom] at scanned
      split at scanned
      · cases scanned
      · refine ih further ?_ scanned
        split
        · exact descends.cons start _ _ c
        · exact descends.after c

theorem scan_ascends {t : Text} {ts : List Token} (scanned : scan t = .ok ts) :
    ts.Pairwise (fun earlier later => earlier.loc < later.loc) ∧
      ∀ t ∈ ts, Location.first ≤ t.loc :=
  scanFrom_ascends le_rfl ⟨.nil, by simp⟩ scanned

end Token

namespace Mark

/-- A mark that stands before another one or at the same place, but not at the brace of a block. -/
def Before (earlier : Mark) : Mark → Prop
  | .place loc => earlier.loc ≤ loc
  | .block loc => earlier.loc < loc

theorem Before.le {earlier later : Mark} (before : Before earlier later) :
    earlier.loc ≤ later.loc := by
  cases later with
  | place => exact before
  | block => exact le_of_lt before

theorem before_of_lt {earlier later : Mark} (less : earlier.loc < later.loc) :
    Before earlier later := by
  cases later with
  | place => exact le_of_lt less
  | block => exact less

theorem Retraces.pairwise_before {marks others : List Mark} (retraces : Retraces marks others)
    (ascends : (others.map Mark.loc).Pairwise (· < ·)) : marks.Pairwise Before :=
  retraces.pairwise (fun _ => le_rfl) ((List.pairwise_map.mp ascends).imp before_of_lt)

end Mark

theorem Token.loc_mark (t : Token) : t.mark.loc = t.loc := by
  unfold Token.mark
  split <;> rfl

theorem Token.mark_of_ne {t : Token} (other : t.kind ≠ .leftBrace) : t.mark = .place t.loc :=
  if_neg other

namespace Emission

open Mark (Retraces)
open TerminatorState (inserted)
open Emitted

/-- The marks of a token and of the line feeds behind it. -/
def marks (emission : Emission) : List Mark :=
  emission.token.mark :: emission.source.feeds.map Token.mark

theorem mark_inserted (loc : Location) : (inserted loc).mark = .place loc :=
  Token.mark_of_ne (by simp [inserted])

/-- A terminator at the first of some line feeds. -/
theorem firstFeed_sublist {feeds : List Token} (each : ∀ t ∈ feeds, t.isFeed = true)
    (some : feeds ≠ []) (other : Location) :
    [Mark.place (firstFeed feeds other)].Sublist (feeds.map Token.mark) := by
  cases feeds with
  | nil => exact absurd rfl some
  | cons feed rest =>
    have isFeed : feed.kind = .newline := by simpa [Token.isFeed] using each feed List.mem_cons_self
    simp [firstFeed, Token.mark_of_ne (t := feed) (by simp [isFeed])]

/-- Between two tokens, a terminator stands at the first line feed, or at the brace that comes
next. -/
theorem retraces_next (kinds : List TokenKind) {last : Spaced} (isCell : last.IsCell)
    {next : Token} {emitted source : List Mark} (retraces : Retraces emitted source)
    (starts : next.kind = .rightBrace → ∃ rest, emitted = .place next.loc :: rest) :
    Retraces ((Emitted.terminators kinds last (some next)).map Token.mark ++ emitted)
      (last.feeds.map Token.mark ++ source) := by
  rw [Emitted.terminators]
  split
  case isFalse => exact .append (.of_sublist (List.nil_sublist _)) retraces
  case isTrue ends =>
    rw [List.map_singleton, mark_inserted]
    by_cases some : last.feeds = []
    · -- Without a line feed it is the brace that ends the statement.
      have closes : next.kind = .rightBrace := by
        rcases ends.2 with lineEnds | blockEnds
        · exact absurd some lineEnds.1
        · exact blockEnds.1
      obtain ⟨rest, rfl⟩ := starts closes
      rw [some]
      exact .again retraces
    · exact .append (.of_sublist (firstFeed_sublist isCell.feeds some _)) retraces

/-- Behind the last token, a terminator stands at the first line feed, or at the token itself. -/
theorem retraces_end (kind : TokenKind) (kinds : List TokenKind) {last : Spaced}
    (isCell : last.IsCell) :
    Retraces ((last.token.retype kind).mark ::
        (Emitted.terminators (kind :: kinds) last none).map Token.mark)
      ((last.token.retype kind).mark :: last.feeds.map Token.mark) := by
  rw [Emitted.terminators]
  split
  case isFalse => exact .of_sublist (by simp)
  case isTrue ends =>
    have other : kind ≠ .leftBrace := by
      rintro rfl
      cases ends
    rw [Token.mark_of_ne (t := last.token.retype kind) other, List.map_singleton, mark_inserted]
    split
    case isTrue =>
      by_cases some : last.feeds = []
      · rw [some]
        exact .again (.refl _)
      · exact .of_sublist ((firstFeed_sublist isCell.feeds some _).cons_cons _)
    case isFalse => exact .again (.of_sublist (by simp))

/-- The marks of what is emitted retrace those of the tokens and line feeds that it is emitted
for. -/
theorem retraces_marks (kinds : List TokenKind) {cells : List Spaced}
    (isCell : ∀ cell ∈ cells, cell.IsCell) :
    Retraces (((emissions kinds cells).flatMap output).map Token.mark)
      ((emissions kinds cells).flatMap marks) := by
  induction cells generalizing kinds with
  | nil => exact .refl _
  | cons cell rest ih =>
    obtain ⟨here, others⟩ := List.forall_mem_cons.mp isCell
    rw [emissions, List.flatMap_cons, List.flatMap_cons, output, marks, List.map_append,
      List.map_cons, List.cons_append, List.cons_append]
    cases rest with
    | nil =>
      have ending := retraces_end (kindOf kinds cell.token.kind) kinds here
      simpa [emissions] using ending
    | cons next rest =>
      refine (Retraces.refl [_]).append (retraces_next _ here (ih _ others) fun closes => ?_)
      have same (kinds : List TokenKind) : kindOf kinds next.token.kind = .rightBrace := by
        simp [closes, kindOf]
      rw [emissions, List.flatMap_cons, output, List.cons_append, List.map_cons, same,
        Token.mark_of_ne (by simp [Token.retype])]
      exact ⟨_, rfl⟩

/-- The tokens and line feeds of some cells stand where their marks do. -/
theorem loc_marks (kinds : List TokenKind) (cells : List Spaced) :
    ((emissions kinds cells).flatMap marks).map Mark.loc =
      (cells.flatMap Spaced.tokens).map Token.loc := by
  induction cells generalizing kinds with
  | nil => rfl
  | cons cell rest ih =>
    simp [emissions, marks, Spaced.tokens, ih, Token.loc_mark, Token.retype]

end Emission

namespace Token

theorem map_loc_of_kept {before after : List Token} (kept : List.Forall₂ Kept before after) :
    after.map loc = before.map loc := by
  induction kept with
  | nil => rfl
  | cons first _ ih => rw [List.map_cons, List.map_cons, first.loc, ih]

/-- The tokens that the syntax reads stand in the order of the source, each brace of a block behind
all the tokens before it. -/
theorem refine_ascends {t : Text} {ts : List Token} (scanned : scan t = .ok ts) :
    ((refine ts).map mark).Pairwise Mark.Before ∧
      ∀ own ∈ (refine ts).map mark, Location.first ≤ own.loc := by
  obtain ⟨ascends, behind⟩ := scan_ascends scanned
  let marked := markArrows (markPropertyNames ts)
  have locs : marked.map loc = ts.map loc :=
    map_loc_of_kept (kept_trans (kept_markPropertyNames ts none false) (kept_markArrows _))
  have part : ((spaced marked).flatMap Spaced.tokens).map loc <:+ ts.map loc := by
    rw [← locs]
    nth_rewrite 2 [← takeWhile_append_spaced marked]
    rw [List.map_append]
    exact List.suffix_append _ _
  have retraces := Emission.retraces_marks [] (isCell_of_mem_spaced marked)
  rw [refine, markArrowParameters_eq, insertTerminators_eq]
  have sources := Emission.loc_marks [] (spaced marked)
  constructor
  · refine retraces.pairwise_before ?_
    rw [sources]
    exact (List.pairwise_map.mpr ascends).sublist part.sublist
  · intro own isMark
    have isSource := List.mem_map_of_mem (f := Mark.loc) (retraces.subset isMark)
    rw [sources] at isSource
    obtain ⟨source, isToken, same⟩ := List.mem_map.mp (part.subset isSource)
    exact same ▸ behind source isToken

end Token

end TypeGloss
