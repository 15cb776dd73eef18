import TypeGloss.Syntax.Walk

/-!
# Working off a stack

The loop behind a walk takes the top off a stack and puts its children there instead, until nothing
is left. `Drained` is this loop with no limit on its turns. Neither the stack nor what is on top of
it gets smaller from turn to turn, so it may run forever. Where it ends, what it visits is fixed,
and the children of everything visited come behind it.
-/

namespace TypeGloss

/-- A stack is worked off, and these are the things visited on the way, in order. -/
inductive Drained {α : Type} (children : α → List α) : (stack visited : List α) → Prop
  | done : Drained children [] []
  | visit {top : α} {stack visited : List α}
      (rest : Drained children (children top ++ stack) visited) :
      Drained children (top :: stack) (top :: visited)

namespace Drained

variable {α : Type} {children : α → List α} {stack visited : List α}

/-- Fuel for every visit is enough fuel. -/
theorem drain_eq (drained : Drained children stack visited) :
    ∀ fuel ≥ visited.length, drain children fuel stack = visited := by
  induction drained with
  | done =>
    rintro (_ | fuel) - <;> rfl
  | visit rest ih =>
    rintro (_ | fuel) enough
    · cases enough
    · rw [drain, ih fuel (Nat.le_of_succ_le_succ enough)]

theorem unique {other : List α} (drained : Drained children stack visited)
    (again : Drained children stack other) : other = visited := by
  induction drained generalizing other with
  | done =>
    cases again
    rfl
  | visit rest ih =>
    cases again with
    | visit again => rw [ih again]

theorem mem_visited {a : α} (drained : Drained children stack visited) (mem : a ∈ stack) :
    a ∈ visited := by
  induction drained with
  | done => cases mem
  | visit rest ih =>
    rcases List.mem_cons.mp mem with rfl | mem
    · exact List.mem_cons_self
    · exact List.mem_cons_of_mem _ (ih (List.mem_append_right _ mem))

/-- The children of what is visited are visited later. -/
theorem children_behind {before after : List α} {parent child : α}
    (drained : Drained children stack visited) (split : visited = before ++ parent :: after)
    (mem : child ∈ children parent) : child ∈ after := by
  induction drained generalizing before with
  | done => cases before <;> cases split
  | visit rest ih =>
    cases before with
    | nil =>
      obtain ⟨rfl, rfl⟩ := List.cons.inj split
      exact rest.mem_visited (List.mem_append_left _ mem)
    | cons first before => exact ih (List.cons.inj split).2

/-- What children take over from their parents holds of all that is visited. -/
theorem forall_visited {p : α → Prop} (inherits : ∀ a, p a → ∀ child ∈ children a, p child)
    (drained : Drained children stack visited) (initial : ∀ a ∈ stack, p a) :
    ∀ a ∈ visited, p a := by
  induction drained with
  | done => exact initial
  | visit rest ih =>
    obtain ⟨here, others⟩ := List.forall_mem_cons.mp initial
    refine List.forall_mem_cons.mpr ⟨here, ih fun a mem => ?_⟩
    rcases List.mem_append.mp mem with mem | mem
    · exact inherits _ here a mem
    · exact others a mem

/-- A stack of things that stand for others is worked off as theirs is. -/
theorem lift {β : Type} {inner : β → List β} {f : β → α}
    (stands : ∀ b, (inner b).map f = children (f b)) {copies : List β}
    (drained : Drained children stack visited) (same : copies.map f = stack) :
    ∃ seen, Drained inner copies seen ∧ seen.map f = visited := by
  induction drained generalizing copies with
  | done =>
    obtain rfl := List.map_eq_nil_iff.mp same
    exact ⟨[], .done, rfl⟩
  | visit rest ih =>
    obtain ⟨top, copies, rfl, rfl, rfl⟩ := List.map_eq_cons_iff.mp same
    have together : (inner top ++ copies).map f = children (f top) ++ copies.map f := by
      rw [List.map_append, stands]
    obtain ⟨seen, drained, visits⟩ := ih together
    exact ⟨top :: seen, .visit drained, by rw [List.map_cons, visits]⟩

end Drained

end TypeGloss
