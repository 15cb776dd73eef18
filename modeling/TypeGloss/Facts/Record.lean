import TypeGloss.Shape.Basic

/-!
# Facts about a program

A record lists what was found in a program: its variable declarations, functions, returns, object
and array literals in the order of the source, the shape of each name, and the interfaces that were
named for variables that start as objects.
-/

namespace TypeGloss

/-- What is known of one declared variable. -/
structure DeclaratorFact where
  /-- The name of the variable. -/
  name : Text
  /-- The kind of its initializer; an empty slot is `undefined`. -/
  initializerKind : Text
  /-- The shape of its initializer. -/
  shape : Shape
  /-- The shape that its declaration is annotated with. -/
  typing : Shape
  deriving DecidableEq, Repr

/-- What is known of a variable declaration. -/
structure DeclarationFact where
  /-- The keyword of the declaration. -/
  keyword : Text
  /-- Its variables in order. -/
  declarators : List DeclaratorFact
  deriving DecidableEq, Repr

/-- What is known of a function declaration. -/
structure FunctionFact where
  /-- The name of the function. -/
  name : Text
  /-- Its parameters with their shapes. -/
  params : List (Text × Shape)
  /-- The shape of what it returns. -/
  result : Shape
  deriving DecidableEq, Repr

/-- The shape of the function itself. -/
def FunctionFact.shape (fact : FunctionFact) : Shape := .function fact.params fact.result

/-- What is known of a return statement. -/
structure ReturnFact where
  /-- The kind of the argument; `none` marks a return without one. -/
  argumentKind : Text
  /-- The shape of the argument. -/
  shape : Shape
  deriving DecidableEq, Repr

/-- What is known of a property of an object literal. -/
structure PropertyFact where
  /-- The text of the key. -/
  key : Text
  /-- The kind of the value. -/
  valueKind : Text
  /-- The shape of the value. -/
  shape : Shape
  deriving DecidableEq, Repr

/-- What is known of an object literal. -/
structure ObjectFact where
  /-- Its properties in order. -/
  properties : List PropertyFact
  /-- Its shape. -/
  shape : Shape
  deriving DecidableEq, Repr

/-- What is known of an array literal. -/
structure ArrayFact where
  /-- The kinds of its elements; a hole is `undefined`. -/
  elementKinds : List Text
  /-- Its shape. -/
  shape : Shape
  deriving DecidableEq, Repr

/-- What is known of a program. -/
structure Record where
  /-- The variable declarations in order. -/
  declarations : List DeclarationFact := []
  /-- The function declarations in order. -/
  functions : List FunctionFact := []
  /-- The return statements in order. -/
  returns : List ReturnFact := []
  /-- The object literals in order. -/
  objects : List ObjectFact := []
  /-- The array literals in order. -/
  arrays : List ArrayFact := []
  /-- The shape of each name; the last fact on a name counts. -/
  typings : Table Text Shape := []
  /-- The interfaces that were named. -/
  interfaces : Table Text Shape := []
  deriving DecidableEq, Repr

end TypeGloss
