import TypeGloss.Location
import TypeGloss.Shape.Render

/-!
# Mismatches

A record can only annotate the program whose facts it lists. A mismatch says where the two part.
-/

namespace TypeGloss

/-- What a record lists in the order of the source. -/
inductive Counted where
  | declarations
  | functions
  deriving DecidableEq, Repr

/-- Why a record does not fit a program. -/
inductive Mismatch where
  /-- A shape names an interface that the table lacks. -/
  | unknownInterface (name : Text)
  /-- An array shape has no element shapes. -/
  | emptyArray
  /-- There is no shape where one is needed. -/
  | noShape
  /-- The table has something other than an object shape for an interface. -/
  | notObject (name : Text) (shape : Option Shape)
  /-- The record lists a different number of declarations than the program has. -/
  | count (what : Counted) (listed found : Nat)
  /-- A declaration has another keyword or another number of variables than its fact. -/
  | declaration (loc : Location)
  /-- A variable has another name than its fact. -/
  | variableName (loc : Location) (expected found : Text)
  /-- A function has another name or another number of parameters than its fact. -/
  | function (loc : Location) (name : Text)
  /-- A parameter has another name than its fact. -/
  | paramName (loc : Location) (expected found : Text)
  deriving DecidableEq, Repr

namespace Mismatch

/-- The word for what is counted. -/
def countedName : Counted → Text
  | .declarations => "variable declarations"
  | .functions => "function declarations"

/-- A place in front of a message. -/
def place (loc : Location) : Text :=
  Text.decimal loc.line ++ ":" ++ Text.decimal loc.column ++ ": "

/-- The message for a mismatch. -/
def message : Mismatch → Text
  | .unknownInterface name => "reference to unknown interface '" ++ name ++ "'"
  | .emptyArray => "array type without element types"
  | .noShape => "unsupported type descriptor: " ++ Shape.outline? none
  | .notObject name shape =>
    "interface '" ++ name ++ "' is not an object shape: " ++ Shape.outline? shape
  | .count what listed found =>
    "analysis record lists " ++ Text.decimal listed ++ " " ++ countedName what ++
      ", the tree has " ++ Text.decimal found
  | .declaration loc => place loc ++ "declaration does not match its analysis fact"
  | .variableName loc expected found =>
    place loc ++ "expected declarator '" ++ expected ++ "', found '" ++ found ++ "'"
  | .function loc name =>
    place loc ++ "function '" ++ name ++ "' does not match its analysis fact"
  | .paramName loc expected found =>
    place loc ++ "expected parameter '" ++ expected ++ "', found '" ++ found ++ "'"

end Mismatch

end TypeGloss
