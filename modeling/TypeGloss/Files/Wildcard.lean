import TypeGloss.Text.CodePoint

/-!
# Wildcards

A wildcard describes names: `*` stands for any text, `?` for any code point, and brackets for one
code point of a set, or outside it if the set starts with `!`. A bracket that is never closed stands
for itself.
-/

namespace TypeGloss

namespace Wildcard

/-- A set of code points by their numbers: single ones and ranges, or all but these. -/
structure PointSet where
  /-- Whether the set holds all but the listed ones. -/
  negated : Bool
  /-- Ranges with both ends included. -/
  ranges : List (Nat × Nat)
  deriving DecidableEq, Repr

/-- Whether a code point is in a set. -/
def PointSet.holds (set : PointSet) (c : CodePoint) : Bool :=
  (set.ranges.any fun (low, high) => low ≤ c.toNat && c.toNat ≤ high) != set.negated

/-- A part of a wildcard. -/
inductive Part where
  /-- Any text. -/
  | any
  /-- One code point of a set. -/
  | one (set : PointSet)
  deriving DecidableEq, Repr

/-- The set of all code points. -/
def everything : PointSet := ⟨true, []⟩

/-- The set of no code points. -/
def nothing : PointSet := ⟨false, []⟩

/-- The set of one code point. -/
def just (c : CodePoint) : PointSet := ⟨false, [(c.toNat, c.toNat)]⟩

/-- Cuts the inside of brackets at the hyphens that make ranges. A hyphen makes a range if it has a
code point on either side that belongs to no range yet: the first `guarded` code points, and the
two behind a hyphen, cannot be such hyphens. -/
def cutRanges : (guarded : Nat) → (piece : Text) → Text → List Text
  | _, piece, [] => [piece.reverse]
  | guarded + 1, piece, c :: rest => cutRanges guarded (c :: piece) rest
  | 0, piece, c :: rest =>
    if c = .scalar '-' then piece.reverse :: cutRanges 2 [] rest
    else cutRanges 0 (c :: piece) rest

/-- A hyphen at the very end belongs to the piece before it. -/
def mendEnd : List Text → List Text
  | [piece, []] => [piece ++ [.scalar '-']]
  | piece :: rest => piece :: mendEnd rest
  | [] => []

/-- Joins neighbouring pieces whose range would be empty, without its two ends. The last pieces come
first. -/
def dropEmptyRanges : List Text → List Text
  | [] => []
  | piece :: rest =>
    match dropEmptyRanges rest with
    | [] => [piece]
    | next :: others =>
      match piece.getLast?, next with
      | some low, high :: behind =>
        if high.toNat < low.toNat then (piece.dropLast ++ behind) :: others
        else piece :: next :: others
      | _, _ => piece :: next :: others

/-- The inside of brackets: code points, with a hyphen that makes a range as a gap. -/
def withGaps : List Text → List (Option CodePoint)
  | [] => []
  | [piece] => piece.map some
  | piece :: rest => piece.map some ++ none :: withGaps rest

/-- The ranges that the inside of brackets lists. -/
def rangesOf : List (Option CodePoint) → List (Nat × Nat)
  | some low :: none :: some high :: rest => (low.toNat, high.toNat) :: rangesOf rest
  | some c :: rest => (c.toNat, c.toNat) :: rangesOf rest
  | none :: rest => ('-'.toNat, '-'.toNat) :: rangesOf rest
  | [] => []

/-- The set that the inside of brackets describes. -/
def setOf (inside : Text) : PointSet :=
  let guarded := if inside.head? = some (.scalar '!') then 2 else 1
  match withGaps (dropEmptyRanges (mendEnd (cutRanges guarded [] inside))) with
  | [] => nothing
  | [some (.scalar '!')] => everything
  | some (.scalar '!') :: listed => ⟨true, rangesOf listed⟩
  | listed => ⟨false, rangesOf listed⟩

/-- The inside of brackets and what is behind them, from behind the opening one. A closing bracket
that comes first, or behind a `!` that comes first, belongs to the inside. -/
def bracket? (t : Text) : Option (Text × Text) :=
  let skipped := match t with
    | .scalar '!' :: .scalar ']' :: _ => 2
    | .scalar '!' :: _ => 1
    | .scalar ']' :: _ => 1
    | _ => 0
  let length := skipped + ((t.drop skipped).takeWhile (· ≠ .scalar ']')).length
  match t.drop length with
  | _ :: behind => some (t.take length, behind)
  | [] => none

/-- The parts of a wildcard; every part takes one unit of `fuel`. -/
def partsWithin : (fuel : Nat) → Text → List Part
  | 0, _ => []
  | _ + 1, [] => []
  | fuel + 1, c :: rest =>
    if c = .scalar '*' then .any :: partsWithin fuel rest
    else if c = .scalar '?' then .one everything :: partsWithin fuel rest
    else if c = .scalar '[' then
      match bracket? rest with
      | some (inside, behind) => .one (setOf inside) :: partsWithin fuel behind
      | none => .one (just c) :: partsWithin fuel rest
    else .one (just c) :: partsWithin fuel rest

/-- The parts of a wildcard. -/
def parts (t : Text) : List Part := partsWithin t.length t

/-- Whether one of the truth values from each one on is true. -/
def anyFrom : List Bool → List Bool
  | [] => []
  | first :: rest =>
    let later := anyFrom rest
    (first || later.headD false) :: later

/-- Whether parts describe each end of a name, from the whole name down to nothing. Any text and more
parts describe an end if the parts describe a later one. -/
def describedEnds (name : Text) : List Part → List Bool
  | [] => name.map (fun _ => false) ++ [true]
  | .one set :: rest =>
    name.zipWith (fun c described => set.holds c && described) (describedEnds name rest).tail ++
      [false]
  | .any :: rest => anyFrom (describedEnds name rest)

/-- Whether a wildcard describes a name. -/
def describes (wildcard name : Text) : Bool :=
  (describedEnds name (parts wildcard)).headD false

/-- Whether a text holds something other than plain code points. -/
def isMagic (t : Text) : Bool :=
  t.any fun c => c = .scalar '*' || c = .scalar '?' || c = .scalar '['

end Wildcard

end TypeGloss
