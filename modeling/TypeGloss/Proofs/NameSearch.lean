import TypeGloss.Proofs.InterfaceName

/-!
# The search for a name ends

The search for the name of an interface goes on as long as the names it tries are taken. Nothing
counts its turns, and what is reserved and what the table holds is arbitrary. Still it ends, because
no two turns try the same name, also where the base ends in digits: among more names than can be
taken there is a free one.
-/

namespace TypeGloss

namespace InterfaceName

/-- The search with no limit on its turns. A name is tried, and the next one has `number` behind the
base; `passed` are the names that were taken, and `found` is the one at which the search ends. -/
inductive Searched (taken : Text → Bool) (base : Text) :
    (tried : Text) → (number : Nat) → (passed : List Text) → (found : Text) → Prop
  | free {tried : Text} {number : Nat} (isFree : taken tried = false) :
      Searched taken base tried number [] tried
  | next {tried found : Text} {number : Nat} {passed : List Text} (isTaken : taken tried = true)
      (rest : Searched taken base (base ++ Text.decimal number) (number + 1) passed found) :
      Searched taken base tried number (tried :: passed) found

variable {taken : Text → Bool} {base tried found : Text} {number : Nat} {passed : List Text}

/-- A search ends in one way only. -/
theorem Searched.unique {others : List Text} {other : Text}
    (searched : Searched taken base tried number passed found)
    (again : Searched taken base tried number others other) : others = passed ∧ other = found := by
  induction searched generalizing others other with
  | free isFree =>
    cases again with
    | free => exact ⟨rfl, rfl⟩
    | next isTaken => cases isFree.symm.trans isTaken
  | next isTaken rest ih =>
    cases again with
    | free isFree => cases isFree.symm.trans isTaken
    | next _ again => exact (ih again).imp_left (congrArg _)

/-- The search goes through the candidates from a turn on up to the first that is free. -/
theorem searched_candidates {turn turns stop : Nat} (ends : turn + turns = stop)
    (isTaken : ∀ i, turn ≤ i → i < stop → taken (candidate base i) = true)
    (isFree : taken (candidate base stop) = false) :
    Searched taken base (candidate base turn) (turn + 2)
      ((List.range' turn turns).map (candidate base)) (candidate base stop) := by
  induction turns generalizing turn with
  | zero =>
    obtain rfl : turn = stop := ends
    exact .free isFree
  | succ turns ih =>
    have behind : turn + 1 + turns = stop := by omega
    exact .next (isTaken turn (Nat.le_refl turn) (by omega))
      (ih behind fun i after => isTaken i (Nat.le_of_succ_le after))

/-- For all reserved names, tables, variables and shapes the search ends, in one way. It passes over
at most as many names as are reserved or in the table, and the name that it ends with is not
reserved and stands in the table for this shape or not at all. -/
theorem searched_choose (reserved : List Text) (table : Table Text Shape) (variableName : Text)
    (shape : Shape) :
    ∃ passed : List Text,
      (∀ names name, Searched (isTaken reserved table shape) (capitalized variableName)
          (capitalized variableName) 2 names name ↔
        names = passed ∧ name = choose reserved table variableName shape) ∧
      passed.length ≤ reserved.toFinset.card + table.keys.toFinset.card ∧
      choose reserved table variableName shape ∉ reserved ∧
      (table.get? (choose reserved table variableName shape) = none ∨
        table.get? (choose reserved table variableName shape) = some shape) := by
  have free := isTaken_choose reserved table variableName shape
  have notTaken := mt isTaken_iff.mpr (Bool.eq_false_iff.mp free)
  obtain ⟨turns, found, -, taken, -⟩ := search_eq (isTaken reserved table shape)
    (capitalized variableName) (reserved.length + table.length) 0
  rw [← choose] at found
  have searched := searched_candidates (Nat.zero_add turns) taken (found ▸ free)
  rw [← found] at searched
  refine ⟨_, fun names name => ⟨fun other => searched.unique other, ?_⟩, ?_,
    fun isReserved => notTaken (.inl isReserved), ?_⟩
  · rintro ⟨rfl, rfl⟩
    exact searched
  · rw [List.length_map, List.length_range']
    exact turns_le fun i before => taken i (Nat.zero_le i) before
  · cases entry : table.get? (choose reserved table variableName shape) with
    | none => exact .inl rfl
    | some other =>
      by_contra differs
      exact notTaken (.inr ⟨other, entry, by simpa using differs⟩)

end InterfaceName

end TypeGloss
