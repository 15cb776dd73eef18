import TypeGloss.Text.Numeral
import TypeGloss.Text.Quoted

/-!
# Errors of file operations

A file operation that is refused reports why, and on which paths.
-/

namespace TypeGloss

/-- Why a file operation is refused. -/
inductive FileError.Cause where
  | notFound
  | alreadyExists
  | notDirectory
  | isDirectory
  | nameTooLong
  /-- Any other cause, with its number and its words. -/
  | other (number : Nat) (words : Text)
  deriving DecidableEq, Repr

/-- A file operation that is refused. -/
structure FileError where
  /-- Why it is refused. -/
  cause : FileError.Cause
  /-- The path it is about. -/
  path : Text
  /-- The path that something was to be moved to. -/
  target : Option Text := none
  deriving DecidableEq, Repr

namespace FileError

/-- The number of a cause. -/
def Cause.number : Cause → Nat
  | .notFound => 2
  | .alreadyExists => 17
  | .notDirectory => 20
  | .isDirectory => 21
  | .nameTooLong => 36
  | .other number _ => number

/-- The words for a cause. -/
def Cause.words : Cause → Text
  | .notFound => "No such file or directory"
  | .alreadyExists => "File exists"
  | .notDirectory => "Not a directory"
  | .isDirectory => "Is a directory"
  | .nameTooLong => "File name too long"
  | .other _ words => words

/-- The cause with a number, under the given words if it has no name here. -/
def Cause.ofNumber (number : Nat) (words : Text) : Cause :=
  match number with
  | 2 => .notFound
  | 17 => .alreadyExists
  | 20 => .notDirectory
  | 21 => .isDirectory
  | 36 => .nameTooLong
  | number => .other number words

/-- The arrow to the path that something was to be moved to. -/
def arrow : Option Text → Text
  | some target => " -> " ++ Text.quoted target
  | none => []

/-- The message for an operation that is refused. -/
def message (e : FileError) : Text :=
  "[Errno " ++ Text.decimal e.cause.number ++ "] " ++ e.cause.words ++ ": " ++
    Text.quoted e.path ++ arrow e.target

end FileError

end TypeGloss
