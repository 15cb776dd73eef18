import Mathlib.Data.Finset.Card
import Mathlib.Data.List.Nodup
import Mathlib.Tactic.ByContra
import TypeGloss.Facts.InterfaceName

/-!
# The names of interfaces

The name of an interface is the first candidate that is neither reserved nor given to another shape.
Since the table of interfaces only grows, candidates that were passed over stay taken and the chosen
one keeps its shape. So candidates of one variable name tell shapes apart, and nothing else.
-/

namespace TypeGloss

namespace Table

variable {Key α : Type} [DecidableEq Key] {table later : Table Key α} {key : Key} {value : α}

/-- A table whose entries another one has as well. -/
def Within (table later : Table Key α) : Prop :=
  ∀ key value, table.get? key = some value → later.get? key = some value

theorem Within.refl : Within table table := fun _ _ => id

theorem Within.trans {last : Table Key α} (first : Within table later)
    (second : Within later last) : Within table last :=
  fun key value found => second key value (first key value found)

theorem mem_of_get? (found : table.get? key = some value) : (key, value) ∈ table := by
  induction table with
  | nil => cases found
  | cons entry rest ih =>
    obtain ⟨old, oldValue⟩ := entry
    rw [get?] at found
    split at found
    case isTrue same =>
      rw [same, Option.some.inj found]
      exact List.mem_cons_self
    case isFalse => exact List.mem_cons_of_mem _ (ih found)

theorem mem_keys_of_get? (found : table.get? key = some value) : key ∈ table.keys :=
  List.mem_map_of_mem (mem_of_get? found)

/-- Giving a key a value adds the key behind all others, if it is new. -/
theorem keys_insert (table : Table Key α) (key : Key) (value : α) :
    (table.insert key value).keys =
      if key ∈ table.keys then table.keys else table.keys ++ [key] := by
  induction table with
  | nil => simp [insert, keys]
  | cons entry rest ih =>
    obtain ⟨old, oldValue⟩ := entry
    simp only [keys] at ih
    by_cases same : old = key
    · simp [insert, keys, same]
    · by_cases mem : key ∈ rest.map Prod.fst <;> simp [insert, keys, same, ih, Ne.symm same, mem]

theorem nodup_keys_insert (distinct : table.keys.Nodup) :
    (table.insert key value).keys.Nodup := by
  rw [keys_insert]
  split
  case isTrue => exact distinct
  case isFalse new => exact List.concat_eq_append ▸ distinct.concat new

theorem mem_insert {entry : Key × α} (mem : entry ∈ table.insert key value) :
    entry ∈ table ∨ entry = (key, value) := by
  induction table with
  | nil => exact .inr (List.mem_singleton.mp mem)
  | cons first rest ih =>
    obtain ⟨old, oldValue⟩ := first
    rw [insert] at mem
    split at mem
    case isTrue =>
      rcases List.mem_cons.mp mem with same | mem
      · exact .inr same
      · exact .inl (List.mem_cons_of_mem _ mem)
    case isFalse =>
      rcases List.mem_cons.mp mem with same | mem
      · exact .inl (same ▸ List.mem_cons_self)
      · exact (ih mem).imp_left (List.mem_cons_of_mem _)

theorem mem_of_mem_ofPairs {pairs : List (Key × α)} {entry : Key × α}
    (mem : entry ∈ ofPairs pairs) : entry ∈ pairs := by
  have step (pairs : List (Key × α)) : ∀ {table : Table Key α},
      entry ∈ pairs.foldl (fun table pair => table.insert pair.1 pair.2) table →
        entry ∈ table ∨ entry ∈ pairs := by
    induction pairs with
    | nil => exact .inl
    | cons pair rest ih =>
      intro table mem
      rcases ih mem with inserted | later
      · exact (mem_insert inserted).imp_right fun same => List.mem_cons.mpr (.inl same)
      · exact .inr (List.mem_cons_of_mem _ later)
  exact (step pairs mem).resolve_left List.not_mem_nil

/-- Giving a key the value that it has, or its first one, keeps all entries. -/
theorem within_insert (fits : ∀ old, table.get? key = some old → old = value) :
    Within table (table.insert key value) := by
  intro wanted old found
  rw [get?_insert]
  split
  case isTrue same => rw [fits old (same ▸ found)]
  case isFalse => exact found

end Table

namespace InterfaceName

theorem decimal_injective : Function.Injective Text.decimal := by
  intro m n same
  have digits : Nat.toDigits 10 m = Nat.toDigits 10 n :=
    (List.map_injective_iff.mpr fun _ _ => CodePoint.scalar.inj) same
  calc
    m = Nat.ofDigitChars 10 (Nat.toDigits 10 m) 0 := Nat.ofDigitChars_ten_toDigits.symm
    _ = Nat.ofDigitChars 10 (Nat.toDigits 10 n) 0 := by rw [digits]
    _ = n := Nat.ofDigitChars_ten_toDigits

/-- Different turns try different names. -/
theorem candidate_injective (base : Text) : Function.Injective (candidate base) := by
  have digits (n : Nat) : Text.decimal n ≠ [] := by simp [Text.decimal]
  intro i j same
  match i, j with
  | 0, 0 => rfl
  | 0, j + 1 => exact absurd same.symm (by simp [candidate, digits])
  | i + 1, 0 => exact absurd same (by simp [candidate, digits])
  | i + 1, j + 1 =>
    have numerals := decimal_injective (List.append_cancel_left same)
    omega

variable {reserved : List Text} {table : Table Text Shape} {base name : Text} {shape : Shape}

theorem isTaken_iff :
    isTaken reserved table shape name = true ↔
      name ∈ reserved ∨ ∃ other, table.get? name = some other ∧ other ≠ shape := by
  rw [isTaken, Bool.or_eq_true, List.contains_iff_mem]
  cases table.get? name <;> simp

/-- A search stops at the first candidate that is not taken, or when its tries are used up. -/
theorem search_eq (taken : Text → Bool) (base : Text) (tries turn : Nat) :
    ∃ stop, search taken base tries turn = candidate base stop ∧ turn ≤ stop ∧
      (∀ i, turn ≤ i → i < stop → taken (candidate base i) = true) ∧
      (taken (candidate base stop) = true → stop = turn + tries) := by
  induction tries generalizing turn with
  | zero => exact ⟨turn, rfl, Nat.le_refl _, fun i _ _ => by omega, fun _ => rfl⟩
  | succ tries ih =>
    rw [search]
    split
    case isTrue isTaken =>
      obtain ⟨stop, found, le, passed, ended⟩ := ih (turn + 1)
      refine ⟨stop, found, by omega, fun i from_ before => ?_, fun taken => ?_⟩
      · rcases Nat.eq_or_lt_of_le from_ with rfl | after
        · exact isTaken
        · exact passed i after before
      · have := ended taken
        omega
    case isFalse free =>
      exact ⟨turn, rfl, Nat.le_refl _, fun i _ _ => by omega, fun taken => absurd taken free⟩

/-- No more candidates are taken in a row than there are names that are reserved or in the table. -/
theorem turns_le {turns : Nat}
    (taken : ∀ i < turns, isTaken reserved table shape (candidate base i) = true) :
    turns ≤ reserved.toFinset.card + table.keys.toFinset.card := by
  have covered : (Finset.range turns).image (candidate base) ⊆
      reserved.toFinset ∪ table.keys.toFinset := by
    intro name mem
    obtain ⟨i, within, rfl⟩ := Finset.mem_image.mp mem
    rw [Finset.mem_union, List.mem_toFinset, List.mem_toFinset]
    exact (isTaken_iff.mp (taken i (Finset.mem_range.mp within))).imp_right
      fun ⟨_, found, _⟩ => Table.mem_keys_of_get? found
  calc
    turns = ((Finset.range turns).image (candidate base)).card := by
      rw [Finset.card_image_of_injective _ (candidate_injective base), Finset.card_range]
    _ ≤ (reserved.toFinset ∪ table.keys.toFinset).card := Finset.card_le_card covered
    _ ≤ reserved.toFinset.card + table.keys.toFinset.card := Finset.card_union_le _ _

theorem exists_free (reserved : List Text) (table : Table Text Shape) (base : Text)
    (shape : Shape) :
    ∃ i ≤ reserved.length + table.length,
      isTaken reserved table shape (candidate base i) = false := by
  by_contra none
  simp only [not_exists, not_and, Bool.not_eq_false] at none
  have turns := turns_le fun i (before : i < reserved.length + table.length + 1) =>
    none i (Nat.le_of_lt_succ before)
  have names := reserved.toFinset_card_le
  have keys := table.keys.toFinset_card_le
  rw [Table.keys, List.length_map] at keys
  rw [Table.keys] at turns
  omega

/-- What is known of a chosen name, now and later: it has its shape, and the candidates before it
are taken. -/
structure Chosen (reserved : List Text) (table : Table Text Shape) (base : Text) (shape : Shape)
    (name : Text) : Prop where
  free : name ∉ reserved
  entry : table.get? name = some shape
  first : ∃ turn, name = candidate base turn ∧
    ∀ i < turn, isTaken reserved table shape (candidate base i) = true

theorem Chosen.mono {later : Table Text Shape} (within : table.Within later)
    (chosen : Chosen reserved table base shape name) :
    Chosen reserved later base shape name := by
  obtain ⟨free, entry, turn, isCandidate, passed⟩ := chosen
  refine ⟨free, within _ _ entry, turn, isCandidate, fun i before => isTaken_iff.mpr ?_⟩
  exact (isTaken_iff.mp (passed i before)).imp_right
    fun ⟨other, found, differs⟩ => ⟨other, within _ _ found, differs⟩

/-- For one base, names and shapes determine each other. -/
theorem Chosen.name_eq_iff {otherName : Text} {otherShape : Shape}
    (chosen : Chosen reserved table base shape name)
    (other : Chosen reserved table base otherShape otherName) :
    name = otherName ↔ shape = otherShape := by
  constructor
  · rintro rfl
    exact Option.some.inj (chosen.entry.symm.trans other.entry)
  · rintro rfl
    -- Of two candidates the earlier one would be taken when the later one is chosen.
    have noEarlier {name : Text} {turn otherTurn : Nat}
        (chosen : Chosen reserved table base shape name) (isCandidate : name = candidate base turn)
        (passed : ∀ i < otherTurn, isTaken reserved table shape (candidate base i) = true) :
        ¬ turn < otherTurn := by
      intro earlier
      rcases isTaken_iff.mp (passed turn earlier) with isReserved | ⟨other, found, differs⟩
      · exact chosen.free (isCandidate ▸ isReserved)
      · rw [← isCandidate, chosen.entry] at found
        exact differs (Option.some.inj found).symm
    obtain ⟨turn, isCandidate, passed⟩ := chosen.first
    obtain ⟨otherTurn, isOther, passedOther⟩ := other.first
    have le := noEarlier chosen isCandidate passedOther
    have ge := noEarlier other isOther passed
    rw [isCandidate, isOther, show turn = otherTurn by omega]

/-- The name that is chosen is free for its shape. -/
theorem isTaken_choose (reserved : List Text) (table : Table Text Shape) (variableName : Text)
    (shape : Shape) :
    isTaken reserved table shape (choose reserved table variableName shape) = false := by
  obtain ⟨stop, found, -, passed, ended⟩ := search_eq (isTaken reserved table shape)
    (capitalized variableName) (reserved.length + table.length) 0
  rw [choose, found, Bool.eq_false_iff]
  intro taken
  obtain ⟨i, within, free⟩ := exists_free reserved table (capitalized variableName) shape
  have stopped := ended taken
  rcases Nat.lt_or_ge i stop with before | after
  · rw [passed i (Nat.zero_le i) before] at free
    cases free
  · rw [show i = stop by omega, taken] at free
    cases free

/-- Entering a chosen name keeps all entries. -/
theorem within_choose (reserved : List Text) (table : Table Text Shape) (variableName : Text)
    (shape : Shape) :
    table.Within (table.insert (choose reserved table variableName shape) shape) := by
  have free := isTaken_choose reserved table variableName shape
  refine Table.within_insert fun old found => ?_
  by_contra differs
  rw [isTaken_iff.mpr (.inr ⟨old, found, differs⟩)] at free
  cases free

theorem chosen_choose (reserved : List Text) (table : Table Text Shape) (variableName : Text)
    (shape : Shape) :
    Chosen reserved (table.insert (choose reserved table variableName shape) shape)
      (capitalized variableName) shape (choose reserved table variableName shape) := by
  have free := isTaken_choose reserved table variableName shape
  obtain ⟨stop, found, -, passed, -⟩ := search_eq (isTaken reserved table shape)
    (capitalized variableName) (reserved.length + table.length) 0
  refine ⟨fun isReserved => ?_, by rw [Table.get?_insert, if_pos rfl], stop, found,
    fun i before => ?_⟩
  · rw [isTaken_iff.mpr (.inl isReserved)] at free
    cases free
  · refine isTaken_iff.mpr ((isTaken_iff.mp (passed i (Nat.zero_le i) before)).imp_right ?_)
    rintro ⟨other, entry, differs⟩
    exact ⟨other, within_choose reserved table variableName shape _ _ entry, differs⟩

/-- A name that was chosen once is chosen again, however the table has grown. -/
theorem Chosen.choose_eq {variableName : Text}
    (chosen : Chosen reserved table (capitalized variableName) shape name) :
    choose reserved table variableName shape = name := by
  have again := chosen_choose reserved table variableName shape
  exact (again.name_eq_iff (chosen.mono
    (within_choose reserved table variableName shape))).mpr rfl

end InterfaceName

end TypeGloss
