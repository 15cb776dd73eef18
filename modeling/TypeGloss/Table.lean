/-!
# Tables

A table maps keys to values and keeps the keys in the order in which they first came. Giving a key a
new value leaves it in its place.
-/

namespace TypeGloss

/-- The entries of a table in order. -/
abbrev Table (Key α : Type) := List (Key × α)

namespace Table

variable {Key α : Type} [DecidableEq Key]

/-- The value of a key. -/
def get? : Table Key α → Key → Option α
  | [], _ => none
  | (key, value) :: rest, wanted => if key = wanted then some value else get? rest wanted

/-- The table with a value for a key: in the key's place if it has one, and else at the end. -/
def insert : Table Key α → Key → α → Table Key α
  | [], key, value => [(key, value)]
  | (old, oldValue) :: rest, key, value =>
    if old = key then (key, value) :: rest else (old, oldValue) :: insert rest key value

/-- The table of pairs that are given one after the other. -/
def ofPairs (pairs : List (Key × α)) : Table Key α :=
  pairs.foldl (fun table pair => table.insert pair.1 pair.2) []

/-- The keys in order. -/
def keys (table : Table Key α) : List Key := table.map Prod.fst

/-- The table without a key. -/
def erase (table : Table Key α) (key : Key) : Table Key α := table.filter (·.1 ≠ key)

/-- Looking up a key that was just given yields its value, and other keys keep theirs. -/
theorem get?_insert (table : Table Key α) (key wanted : Key) (value : α) :
    (table.insert key value).get? wanted =
      if key = wanted then some value else table.get? wanted := by
  induction table with
  | nil => simp [insert, get?]
  | cons entry rest ih =>
    obtain ⟨old, oldValue⟩ := entry
    by_cases h : old = key
    · subst h
      by_cases hw : old = wanted <;> simp [insert, get?, hw]
    · by_cases hw : old = wanted
      · subst hw
        simp [insert, get?, h, Ne.symm h]
      · simp [insert, get?, h, hw, ih]

end Table

end TypeGloss
