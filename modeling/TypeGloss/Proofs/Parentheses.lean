import TypeGloss.Proofs.Marks

/-!
# Matching parentheses

Which parentheses match is said by counting, without a stack: between an opening parenthesis and the
one that closes it as many parentheses are closed as opened, and up to no token in between more are
closed than opened. Tokens of other kinds do not count, and a closing parenthesis with no partner is
never between two that match. The marks for arrow parameters are exactly those that this gives.
-/

namespace TypeGloss

namespace Token

/-- The kind of the token at an index. -/
def kindAt (ts : List Token) (i : Nat) : Option TokenKind := ts[i]?.map kind

/-- The tokens behind one index and before another. -/
def inside (ts : List Token) (i j : Nat) : List Token := (ts.drop (i + 1)).take (j - (i + 1))

/-- How many parentheses the tokens open. -/
def opened (ts : List Token) : Nat := ts.countP (·.kind = .leftParen)

/-- How many parentheses the tokens close. -/
def closed (ts : List Token) : Nat := ts.countP (·.kind = .rightParen)

/-- The token at `j` is the parenthesis that closes the one at `i`. -/
structure Closes (ts : List Token) (i j : Nat) : Prop where
  before : i < j
  opening : kindAt ts i = some .leftParen
  closing : kindAt ts j = some .rightParen
  level : closed (inside ts i j) = opened (inside ts i j)
  within : ∀ k, i < k → k < j → closed (inside ts i k) ≤ opened (inside ts i k)

/-- The first token behind an index that is no line feed is `=>`. -/
def ArrowBehind (ts : List Token) (j : Nat) : Prop :=
  ∃ k, j < k ∧ kindAt ts k = some .arrow ∧ ∀ m, j < m → m < k → kindAt ts m = some .newline

/-- The token at an index opens the parameters of an arrow function. -/
def OpensParameters (ts : List Token) (i : Nat) : Prop := ∃ j, Closes ts i j ∧ ArrowBehind ts j

theorem kindAt_drop (ts : List Token) (n i : Nat) : kindAt (ts.drop n) i = kindAt ts (n + i) := by
  simp [kindAt]

/-- Looking for an arrow passes over line feeds. -/
theorem arrowFollows_iff (ts : List Token) :
    arrowFollows ts = true ↔
      ∃ k, kindAt ts k = some .arrow ∧ ∀ m < k, kindAt ts m = some .newline := by
  induction ts with
  | nil => simp [arrowFollows, kindAt]
  | cons t rest ih =>
    by_cases feed : t.kind = .newline
    · have skip : arrowFollows (t :: rest) = arrowFollows rest := by simp [arrowFollows, feed]
      rw [skip, ih]
      constructor
      · rintro ⟨k, arrow, feeds⟩
        refine ⟨k + 1, by simpa [kindAt] using arrow, ?_⟩
        rintro (_ | m) before
        · simp [kindAt, feed]
        · simpa [kindAt] using feeds m (by omega)
      · rintro ⟨_ | k, arrow, feeds⟩
        · simp [kindAt, feed] at arrow
        · refine ⟨k, by simpa [kindAt] using arrow, fun m before => ?_⟩
          simpa [kindAt] using feeds (m + 1) (by omega)
    · have here : arrowFollows (t :: rest) = decide (t.kind = .arrow) := by
        simp [arrowFollows, feed]
      rw [here, decide_eq_true_iff]
      constructor
      · exact fun arrow => ⟨0, by simp [kindAt, arrow], by simp⟩
      · rintro ⟨_ | k, arrow, feeds⟩
        · simpa [kindAt] using arrow
        · exact absurd (by simpa [kindAt] using feeds 0 (by omega)) feed

/-- Tokens after which `depth` parentheses that were open before them are closed, and no sooner. -/
structure Settles (depth : Nat) (ts : List Token) : Prop where
  level : closed ts = opened ts + depth
  within : ∀ k, closed (ts.take k) ≤ opened (ts.take k) + depth

theorem settles_nil_iff (depth : Nat) : Settles depth [] ↔ depth = 0 := by
  constructor
  · intro settles
    simpa [opened, closed] using settles.level.symm
  · rintro rfl
    exact ⟨rfl, by simp [opened, closed]⟩

theorem opened_cons (t : Token) (ts : List Token) :
    opened (t :: ts) = opened ts + if t.kind = .leftParen then 1 else 0 := by
  simp [opened, List.countP_cons]

theorem closed_cons (t : Token) (ts : List Token) :
    closed (t :: ts) = closed ts + if t.kind = .rightParen then 1 else 0 := by
  simp [closed, List.countP_cons]

private theorem settles_cons_iff_counts (depth : Nat) (t : Token) (ts : List Token) :
    Settles depth (t :: ts) ↔
      closed (t :: ts) = opened (t :: ts) + depth ∧
        ∀ k, closed (t :: ts.take k) ≤ opened (t :: ts.take k) + depth := by
  constructor
  · exact fun settles => ⟨settles.level, fun k => settles.within (k + 1)⟩
  · rintro ⟨level, within⟩
    refine ⟨level, ?_⟩
    rintro (_ | k)
    · simp [closed]
    · exact within k

/-- One token more in front is one parenthesis more to close, one less, or none. -/
theorem settles_cons_iff (depth : Nat) (t : Token) (ts : List Token) :
    Settles depth (t :: ts) ↔
      if t.kind = .leftParen then Settles (depth + 1) ts
      else if t.kind = .rightParen then ∃ outer, depth = outer + 1 ∧ Settles outer ts
      else Settles depth ts := by
  rw [settles_cons_iff_counts]
  simp only [opened_cons, closed_cons]
  by_cases opening : t.kind = .leftParen
  · simp only [opening, reduceCtorEq, if_true, if_false]
    constructor
    · rintro ⟨level, within⟩
      exact ⟨by omega, fun k => by have := within k; omega⟩
    · rintro ⟨level, within⟩
      exact ⟨by omega, fun k => by have := within k; omega⟩
  · by_cases closing : t.kind = .rightParen
    · simp only [closing, reduceCtorEq, if_true, if_false]
      constructor
      · rintro ⟨level, within⟩
        -- The first token alone closes a parenthesis, so one has to be open before it.
        have isOpen : 1 ≤ depth := by simpa [opened, closed] using within 0
        exact ⟨depth - 1, by omega, by omega, fun k => by have := within k; omega⟩
      · rintro ⟨outer, rfl, level, within⟩
        exact ⟨by omega, fun k => by have := within k; omega⟩
    · simp only [opening, closing, if_false]
      exact ⟨fun ⟨level, within⟩ => ⟨level, within⟩, fun ⟨level, within⟩ => ⟨level, within⟩⟩

/-- The look ahead for the parenthesis that closes an earlier one finds it, if there is one. -/
theorem closesIntoArrow_iff (depth : Nat) (ts : List Token) :
    closesIntoArrow depth ts = true ↔
      ∃ inner close rest, ts = inner ++ close :: rest ∧ close.kind = .rightParen ∧
        Settles depth inner ∧ arrowFollows rest = true := by
  induction ts generalizing depth with
  | nil => simp [closesIntoArrow]
  | cons t ts ih =>
    -- The parenthesis looked for is the first token, or it stands among those behind.
    have split : (∃ inner close rest, t :: ts = inner ++ close :: rest ∧
          close.kind = .rightParen ∧ Settles depth inner ∧ arrowFollows rest = true) ↔
        (t.kind = .rightParen ∧ depth = 0 ∧ arrowFollows ts = true) ∨
        ∃ inner close rest, ts = inner ++ close :: rest ∧ close.kind = .rightParen ∧
          Settles depth (t :: inner) ∧ arrowFollows rest = true := by
      constructor
      · rintro ⟨_ | ⟨first, inner⟩, close, rest, same, closing, settles, arrow⟩
        · obtain ⟨rfl, rfl⟩ := List.cons.inj same
          exact .inl ⟨closing, (settles_nil_iff depth).mp settles, arrow⟩
        · obtain ⟨rfl, rfl⟩ := List.cons.inj same
          exact .inr ⟨inner, close, rest, rfl, closing, settles, arrow⟩
      · rintro (⟨closing, level, arrow⟩ | ⟨inner, close, rest, rfl, others⟩)
        · exact ⟨[], t, ts, rfl, closing, (settles_nil_iff depth).mpr level, arrow⟩
        · exact ⟨t :: inner, close, rest, rfl, others⟩
    rw [split, closesIntoArrow.eq_def]
    simp only [settles_cons_iff]
    by_cases opening : t.kind = .leftParen
    · simp [opening, ih]
    · by_cases closing : t.kind = .rightParen
      · cases depth with
        | zero => simp [closing]
        | succ depth => simp [closing, ih]
      · simp [opening, closing, ih]

/-- Of two parentheses that match, the second is the first behind those in between to settle. -/
theorem closes_iff (ts : List Token) (i j : Nat) :
    Closes ts i j ↔
      kindAt ts i = some .leftParen ∧
        ∃ inner close rest, ts.drop (i + 1) = inner ++ close :: rest ∧ j = i + 1 + inner.length ∧
          close.kind = .rightParen ∧ Settles 0 inner := by
  constructor
  · rintro ⟨before, opening, closing, level, within⟩
    obtain ⟨close, found, kind⟩ := Option.map_eq_some_iff.mp closing
    obtain ⟨bound, here⟩ := List.getElem?_eq_some_iff.mp found
    have behind : (ts.drop (i + 1)).drop (j - (i + 1)) = close :: ts.drop (j + 1) := by
      rw [List.drop_drop, Nat.add_sub_cancel' before, List.drop_eq_getElem_cons bound, here]
    refine ⟨opening, inside ts i j, close, ts.drop (j + 1), ?_, ?_, kind, ?_, fun k => ?_⟩
    · rw [← behind, inside, List.take_append_drop]
    · simp only [inside, List.length_take, List.length_drop]
      omega
    · exact level
    · rcases Nat.lt_or_ge k (j - (i + 1)) with inner | past
      · have part : (inside ts i j).take k = inside ts i (i + 1 + k) := by
          rw [inside, inside, List.take_take, Nat.min_eq_left (Nat.le_of_lt inner),
            Nat.add_sub_cancel_left]
        rw [part]
        exact within _ (by omega) (by omega)
      · have whole : (inside ts i j).take k = inside ts i j := by
          rw [inside, List.take_take, Nat.min_eq_right past]
        rw [whole]
        exact Nat.le_of_eq level
  · rintro ⟨opening, inner, close, rest, split, rfl, kind, level, within⟩
    have part (k : Nat) (le : k ≤ i + 1 + inner.length) :
        inside ts i k = inner.take (k - (i + 1)) := by
      rw [inside, split, List.take_append_of_le_length (by omega)]
    refine ⟨by omega, opening, ?_, ?_, fun k _ before => ?_⟩
    · rw [← kindAt_drop, split]
      simp [kindAt, kind]
    · rw [part _ (Nat.le_refl _), Nat.add_sub_cancel_left, List.take_length]
      exact level
    · rw [part k (Nat.le_of_lt before)]
      exact within _

theorem arrowBehind_iff (ts : List Token) (j : Nat) :
    ArrowBehind ts j ↔ arrowFollows (ts.drop (j + 1)) = true := by
  simp only [arrowFollows_iff, kindAt_drop]
  constructor
  · rintro ⟨k, behind, arrow, feeds⟩
    exact ⟨k - (j + 1), by rwa [Nat.add_sub_cancel' behind],
      fun m before => feeds _ (by omega) (by omega)⟩
  · rintro ⟨k, arrow, feeds⟩
    refine ⟨j + 1 + k, by omega, arrow, fun m behind before => ?_⟩
    rw [← Nat.add_sub_cancel' behind]
    exact feeds _ (by omega)

theorem opensParameters_iff (ts : List Token) (i : Nat) :
    OpensParameters ts i ↔
      kindAt ts i = some .leftParen ∧ closesIntoArrow 0 (ts.drop (i + 1)) = true := by
  have behind {inner rest : List Token} {close : Token}
      (split : ts.drop (i + 1) = inner ++ close :: rest) :
      ts.drop (i + 1 + inner.length + 1) = rest := by
    rw [Nat.add_assoc, ← List.drop_drop, split]
    simp
  simp only [OpensParameters, closes_iff, arrowBehind_iff, closesIntoArrow_iff]
  constructor
  · rintro ⟨_, ⟨opening, inner, close, rest, split, rfl, closing, settles⟩, arrow⟩
    exact ⟨opening, inner, close, rest, split, closing, settles, behind split ▸ arrow⟩
  · rintro ⟨opening, inner, close, rest, split, closing, settles, arrow⟩
    exact ⟨_, ⟨opening, inner, close, rest, split, rfl, closing, settles⟩,
      (behind split).symm ▸ arrow⟩

/-- The parentheses that are marked are exactly those that open the parameters of an arrow function:
that some parenthesis closes with `=>` next behind it, line feeds aside. A marked token keeps its
text and its place, and all other tokens stay as they are. -/
theorem markArrowParameters_exact (ts : List Token) (i : Nat) :
    ((markArrowParameters ts)[i]? ≠ ts[i]? ↔ OpensParameters ts i) ∧
      ((markArrowParameters ts)[i]? = ts[i]? ∨
        (markArrowParameters ts)[i]? = ts[i]?.map (·.retype .arrowParen)) := by
  rw [markArrowParameters_eq, getElem?_markArrows, opensParameters_iff, kindAt]
  cases ts[i]? with
  | none => simp
  | some t =>
    simp only [Option.map_some, ne_eq, Option.some.injEq, arrowMark]
    split
    case isTrue opens =>
      have changed : t.retype .arrowParen ≠ t := by
        intro same
        cases opens.1.symm.trans (congrArg kind same).symm
      exact ⟨iff_of_true changed opens, .inr rfl⟩
    case isFalse stays => exact ⟨iff_of_false (fun changed => changed rfl) stays, .inl rfl⟩

end Token

end TypeGloss
