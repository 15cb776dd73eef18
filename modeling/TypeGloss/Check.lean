import TypeGloss.Facts.Collect
import TypeGloss.Source.Failure

/-!
# Checking printed programs

A printed program is read back, and its type names are resolved against the interfaces it declares
and the global types. First come interfaces that are declared again, then references to types in the
order of the source.
-/

namespace TypeGloss

namespace Check

/-- What is wrong with a type name. -/
inductive Fault where
  /-- An interface is declared again. -/
  | duplicate (name : Text)
  /-- No type has the name. -/
  | unknown (name : Text)
  /-- The type takes no arguments and has some. -/
  | notGeneric (name : Text)
  /-- The type takes another number of arguments. -/
  | arity (name : Text) (expected : Nat)
  deriving DecidableEq, Repr

namespace Fault

/-- The message for a fault. -/
def message : Fault → Text
  | .duplicate name => "Duplicate identifier '" ++ name ++ "'."
  | .unknown name => "Cannot find name '" ++ name ++ "'."
  | .notGeneric name => "Type '" ++ name ++ "' is not generic."
  | .arity name expected =>
    "Generic type '" ++ name ++ "' requires " ++ Text.decimal expected ++ " type argument(s)."

/-- The code of a fault. -/
def code : Fault → Text
  | .duplicate _ => "TS2300"
  | .unknown _ => "TS2304"
  | .notGeneric _ => "TS2315"
  | .arity _ _ => "TS2314"

end Fault

/-- The names of the interfaces that a program declares, in order. -/
def declared (program : Node) : List Text := program.walk.filterMap Node.interfaceName?

/-- The interfaces whose names came before, with their places. -/
def duplicates : (seen : List Text) → List Node → List (Location × Fault)
  | _, [] => []
  | seen, node :: rest =>
    match node.interfaceName? with
    | none => duplicates seen rest
    | some name =>
      if seen.contains name then (node.loc, .duplicate name) :: duplicates seen rest
      else duplicates (name :: seen) rest

/-- The number of arguments that a type takes: none if the program declares it. -/
def arity? (interfaces : List Text) (name : Text) : Option Nat :=
  if interfaces.contains name then some 0 else GlobalType.arity? name

/-- What is wrong with a reference to a type. -/
def referenceFault? (interfaces : List Text) (name : Text) (arguments : Nat) : Option Fault :=
  match arity? interfaces name with
  | none => some (.unknown name)
  | some 0 => if arguments = 0 then none else some (.notGeneric name)
  | some expected => if arguments = expected then none else some (.arity name expected)

/-- What is wrong with a node that refers to a type, with its place. -/
def reference? (interfaces : List Text) : Node → Option (Location × Fault)
  | .typeReference loc name arguments =>
    (referenceFault? interfaces name arguments.length).map (loc, ·)
  | _ => none

/-- What is wrong with the type names of a program. -/
def faults (program : Node) : List (Location × Fault) :=
  duplicates [] program.walk ++ program.walk.filterMap (reference? (declared program))

/-- The diagnostic for a fault. -/
def diagnostic (file : Option Text) (found : Location × Fault) : Diagnostic :=
  { message := found.2.message
    code := some found.2.code
    phase := some "verifier"
    span := .ofLocation file found.1 }

/-- The diagnostic for a text that cannot be read back. -/
def unreadable (file : Option Text) (e : ReadError) : Diagnostic :=
  { e.diagnostic file with code := some "TS1005", phase := some "verifier" }

/-- The problems of a printed program. -/
def text (file : Option Text) (t : Text) : List Diagnostic :=
  match Source.read .typescript t with
  | .ok program => (faults program).map (diagnostic file)
  | .error e => [unreadable file e]

/-- The problems of a printed program, or nothing if it is nested too deeply to be read back. -/
def textBounded (file : Option Text) (t : Text) : Option (List Diagnostic) :=
  match Source.readBounded .typescript t with
  | .ok program => some ((faults program).map (diagnostic file))
  | .error (.error e) => some [unreadable file e]
  | .error .tooDeep => none

end Check

end TypeGloss
