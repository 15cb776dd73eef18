import TypeGloss.Table
import TypeGloss.Text.CodePoint

/-!
# Global types

The types that every program can name without declaring them, and how many arguments each takes.
-/

namespace TypeGloss

namespace GlobalType

/-- The global types that take arguments, with their number. -/
def generic : Table Text Nat :=
  [("Array", 1), ("ReadonlyArray", 1), ("Promise", 1), ("Set", 1), ("Partial", 1),
   ("Map", 2), ("Record", 2)]

/-- The global types that take no arguments. -/
def plain : Table Text Nat :=
  [("Object", 0), ("String", 0), ("Number", 0), ("Boolean", 0), ("Function", 0), ("Date", 0),
   ("RegExp", 0), ("Error", 0)]

/-- The global types with the number of their arguments. -/
def arities : Table Text Nat := generic ++ plain

/-- The names of the global types. -/
def names : List Text := arities.keys

/-- The number of arguments that a global type takes. -/
def arity? (name : Text) : Option Nat := arities.get? name

end GlobalType

end TypeGloss
