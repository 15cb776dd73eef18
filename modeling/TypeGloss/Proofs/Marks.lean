import TypeGloss.Proofs.Symbols

/-!
# Marks on tokens

Whether a parenthesis opens the parameters of an arrow function is known from the tokens behind it
alone. This gives the marks by looking ahead, without the stack of open parentheses.
-/

namespace TypeGloss

namespace Token

/-- Whether the parenthesis that closes the one opened `depth + 1` levels up is followed by `=>`. -/
def closesIntoArrow (depth : Nat) : List Token → Bool
  | [] => false
  | t :: rest =>
    if t.kind = .leftParen then closesIntoArrow (depth + 1) rest
    else if t.kind = .rightParen then
      match depth with
      | 0 => arrowFollows rest
      | depth + 1 => closesIntoArrow depth rest
    else closesIntoArrow depth rest

/-- A token with the mark that what follows gives it. -/
def arrowMark (t : Token) (rest : List Token) : Token :=
  if t.kind = .leftParen ∧ closesIntoArrow 0 rest = true then t.retype .arrowParen else t

/-- The tokens with the parentheses of arrow parameters marked by looking ahead. -/
def markArrows : List Token → List Token
  | [] => []
  | t :: rest => arrowMark t rest :: markArrows rest

private theorem mem_arrowParensFrom (ts : List Token) (i : Nat) (opens : List Nat) (j : Nat) :
    j ∈ arrowParensFrom i opens ts ↔
      (∃ k : Nat, opens[k]? = some j ∧ closesIntoArrow k ts = true) ∨
      ∃ m t, ts[m]? = some t ∧ j = i + m ∧ t.kind = .leftParen ∧
        closesIntoArrow 0 (ts.drop (m + 1)) = true := by
  induction ts generalizing i opens with
  | nil => simp [arrowParensFrom, closesIntoArrow]
  | cons t rest ih =>
    -- The indices behind the first token are one more than those counted from the next one on.
    have shift : (∃ m u, (t :: rest)[m]? = some u ∧ j = i + m ∧ u.kind = .leftParen ∧
          closesIntoArrow 0 ((t :: rest).drop (m + 1)) = true) ↔
        (j = i ∧ t.kind = .leftParen ∧ closesIntoArrow 0 rest = true) ∨
        ∃ m u, rest[m]? = some u ∧ j = i + 1 + m ∧ u.kind = .leftParen ∧
          closesIntoArrow 0 (rest.drop (m + 1)) = true := by
      constructor
      · rintro ⟨_ | m, u, found, rfl, kind, closes⟩
        · obtain rfl : t = u := by simpa using found
          exact .inl ⟨rfl, kind, closes⟩
        · exact .inr ⟨m, u, by simpa using found, by omega, kind, closes⟩
      · rintro (⟨rfl, kind, closes⟩ | ⟨m, u, found, rfl, kind, closes⟩)
        · exact ⟨0, t, rfl, rfl, kind, closes⟩
        · exact ⟨m + 1, u, by simpa using found, by omega, kind, closes⟩
    rw [shift, arrowParensFrom.eq_def]
    simp only
    by_cases opening : t.kind = .leftParen
    · rw [if_pos opening, ih]
      simp only [closesIntoArrow, opening, if_true]
      constructor
      · rintro (⟨_ | k, found, closes⟩ | later)
        · obtain rfl : i = j := by simpa using found
          exact .inr (.inl ⟨rfl, trivial, closes⟩)
        · exact .inl ⟨k, by simpa using found, closes⟩
        · exact .inr (.inr later)
      · rintro (⟨k, found, closes⟩ | ⟨rfl, -, closes⟩ | later)
        · exact .inl ⟨k + 1, by simpa using found, closes⟩
        · exact .inl ⟨0, rfl, closes⟩
        · exact .inr later
    · rw [if_neg opening]
      by_cases closing : t.kind = .rightParen
      · rw [if_pos closing]
        simp only [closesIntoArrow, closing, reduceCtorEq, if_true, if_false, false_and, and_false,
          false_or]
        cases opens with
        | nil => simp [ih]
        | cons start outer =>
          simp only
          split
          · rename_i follows
            rw [List.mem_cons, ih]
            constructor
            · rintro (rfl | ⟨k, found, closes⟩ | later)
              · exact .inl ⟨0, rfl, follows⟩
              · exact .inl ⟨k + 1, by simpa using found, closes⟩
              · exact .inr later
            · rintro (⟨_ | k, found, closes⟩ | later)
              · exact .inl (by simpa using found.symm)
              · exact .inr (.inl ⟨k, by simpa using found, closes⟩)
              · exact .inr (.inr later)
          · rename_i follows
            rw [ih]
            constructor
            · rintro (⟨k, found, closes⟩ | later)
              · exact .inl ⟨k + 1, by simpa using found, closes⟩
              · exact .inr later
            · rintro (⟨_ | k, found, closes⟩ | later)
              · exact absurd closes follows
              · exact .inl ⟨k, by simpa using found, closes⟩
              · exact .inr later
      · rw [if_neg closing, ih]
        simp [closesIntoArrow, opening, closing]

theorem getElem?_markArrows (ts : List Token) (i : Nat) :
    (markArrows ts)[i]? = ts[i]?.map fun t => arrowMark t (ts.drop (i + 1)) := by
  induction ts generalizing i with
  | nil => simp [markArrows]
  | cons t rest ih => cases i <;> simp [markArrows, ih]

/-- The parentheses of arrow parameters are those that close before `=>`. -/
theorem markArrowParameters_eq (ts : List Token) : markArrowParameters ts = markArrows ts := by
  apply List.ext_getElem?
  intro i
  rw [getElem?_markArrows, markArrowParameters, markAt, List.getElem?_mapIdx]
  cases found : ts[i]? with
  | none => rfl
  | some t =>
    have mem := mem_arrowParensFrom ts 0 [] i
    simp only [List.getElem?_nil, reduceCtorEq, false_and, exists_false, false_or, Nat.zero_add]
      at mem
    rw [Option.map_some, Option.map_some, arrowMark]
    congr 1
    apply if_congr _ rfl rfl
    rw [List.contains_iff_mem, mem]
    constructor
    · rintro ⟨m, u, found', rfl, kind, closes⟩
      obtain rfl : t = u := by simpa [found] using found'
      exact ⟨kind, closes⟩
    · rintro ⟨kind, closes⟩
      exact ⟨i, t, found, rfl, kind, closes⟩

end Token

end TypeGloss
