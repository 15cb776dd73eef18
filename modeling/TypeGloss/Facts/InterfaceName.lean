import TypeGloss.Shape.Global
import TypeGloss.Shape.Basic
import TypeGloss.Text.Numeral

/-!
# Names for interfaces

A variable that starts as an object has an interface named after it. The name is the variable's with
its first letter in upper case; if that is taken, the numbers from two on are tried behind it. A
name is taken if it is reserved, or if the table of interfaces has it for another shape.
-/

namespace TypeGloss

namespace InterfaceName

/-- The upper-case letter of a letter. Names of variables start with a letter from `a` to `z` or
`A` to `Z`, or with a sign that has no case. -/
def upper : CodePoint → CodePoint
  | .scalar c => .scalar c.toUpper
  | c => c

/-- A name with its first letter in upper case. -/
def capitalized : Text → Text
  | [] => []
  | c :: rest => upper c :: rest

/-- The name that is tried at a turn: the plain one first, and then with the numbers from two on. -/
def candidate (base : Text) : (turn : Nat) → Text
  | 0 => base
  | turn + 1 => base ++ Text.decimal (turn + 2)

/-- Whether a name cannot stand for a shape. -/
def isTaken (reserved : List Text) (table : Table Text Shape) (shape : Shape) (name : Text) : Bool :=
  reserved.contains name || (table.get? name).getD shape != shape

/-- The first candidate from a turn on that is not taken, after at most `tries` others. -/
def search (taken : Text → Bool) (base : Text) : (tries turn : Nat) → Text
  | 0, turn => candidate base turn
  | tries + 1, turn =>
    if taken (candidate base turn) then search taken base tries (turn + 1) else candidate base turn

/-- The name of the interface for a variable. As many candidates can be taken as there are names
that are reserved or in the table. -/
def choose (reserved : List Text) (table : Table Text Shape) (variableName : Text) (shape : Shape) :
    Text :=
  search (isTaken reserved table shape) (capitalized variableName)
    (reserved.length + table.length) 0

end InterfaceName

end TypeGloss
