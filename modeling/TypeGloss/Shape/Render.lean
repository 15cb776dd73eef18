import TypeGloss.Shape.Basic
import TypeGloss.Shape.Key
import TypeGloss.Text.Quoted

/-!
# The text of a shape

A shape is written as a TypeScript type. A second form lists the parts of a shape by name; messages
about shapes that do not fit use it.
-/

namespace TypeGloss

namespace Shape

/-- A function shape inside a union stands in parentheses. -/
def grouped (s : Shape) (t : Text) : Text :=
  match s with
  | .function .. => "(" ++ t ++ ")"
  | _ => t

mutual

/-- A shape as a type. -/
def render : Shape → Text
  | .any => "any"
  | .primitive kind => kind.name
  | .object [] => "\x7b\x7d"
  | .object fields => "\x7b " ++ Text.join "; " (renderFields fields) ++ " \x7d"
  | .array [element] => "Array<" ++ render element ++ ">"
  | .array elements => "Array<" ++ Text.join " | " (renderMembers elements) ++ ">"
  | .function params result =>
    "(" ++ Text.join ", " (renderParams params) ++ ") => " ++ render result
  | .interface name => name

/-- The fields of an object. -/
def renderFields : List (Text × Shape) → List Text
  | [] => []
  | (name, s) :: rest => (Key.render name ++ ": " ++ render s) :: renderFields rest

/-- The members of a union. -/
def renderMembers : List Shape → List Text
  | [] => []
  | s :: rest => grouped s (render s) :: renderMembers rest

/-- The parameters of a function. -/
def renderParams : List (Text × Shape) → List Text
  | [] => []
  | (name, s) :: rest => (name ++ ": " ++ render s) :: renderParams rest

end

/-- Items in parentheses; a single one is followed by a comma. -/
def tuple : List Text → Text
  | [item] => "(" ++ item ++ ",)"
  | items => "(" ++ Text.join ", " items ++ ")"

mutual

/-- A shape with all its parts by name. -/
def outline : Shape → Text
  | .any => "AnyType()"
  | .primitive kind => "Primitive(kind=" ++ Text.quoted kind.name ++ ")"
  | .object fields => "ObjectShape(fields=" ++ tuple (outlineFields fields) ++ ")"
  | .array elements => "ArrayShape(element_types=" ++ tuple (outlineAll elements) ++ ")"
  | .function params result =>
    "FunctionShape(params=" ++ tuple (outlineFields params) ++ ", return_type=" ++
      outline result ++ ")"
  | .interface name => "InterfaceRef(name=" ++ Text.quoted name ++ ")"

/-- Named shapes with all their parts. -/
def outlineFields : List (Text × Shape) → List Text
  | [] => []
  | (name, s) :: rest => ("(" ++ Text.quoted name ++ ", " ++ outline s ++ ")") :: outlineFields rest

/-- Shapes with all their parts. -/
def outlineAll : List Shape → List Text
  | [] => []
  | s :: rest => outline s :: outlineAll rest

end

/-- The outline of a shape that may be missing. -/
def outline? : Option Shape → Text
  | some s => outline s
  | none => "None"

end Shape

/-- The message for a name that no primitive has. -/
def Primitive.unknownMessage (name : Text) : Text :=
  "Unknown primitive kind: " ++ Text.quoted name

end TypeGloss
