import TypeGloss.Gloss.Mismatch
import TypeGloss.Syntax.Node

/-!
# Type syntax of shapes

A shape becomes type syntax that stands nowhere in a source. An interface must be in the table, and
an array must have element shapes.
-/

namespace TypeGloss

namespace Shape

/-- One type as it is, and several as a union. -/
def unionSyntax : List Node → Node
  | [member] => member
  | members => .unionType .synthetic members

mutual

/-- The type syntax of a shape, given the names of the interfaces. -/
def toSyntax (known : List Text) : Shape → Except Mismatch Node
  | .any => .ok (.keywordType .synthetic "any")
  | .primitive kind => .ok (.keywordType .synthetic kind.name)
  | .interface name =>
    if known.contains name then .ok (.typeReference .synthetic name [])
    else .error (.unknownInterface name)
  | .object fields => do return .typeLiteral .synthetic (← memberSyntax known fields)
  | .array [] => .error .emptyArray
  | .array (first :: rest) => do
    let head ← toSyntax known first
    let tail ← toSyntaxAll known rest
    return .typeReference .synthetic "Array" [unionSyntax (head :: tail)]
  | .function params result => do
    let params ← paramSyntax known params
    return .functionType .synthetic params (← toSyntax known result)

/-- The type syntax of shapes in order. -/
def toSyntaxAll (known : List Text) : List Shape → Except Mismatch (List Node)
  | [] => .ok []
  | shape :: rest => do
    let head ← toSyntax known shape
    return head :: (← toSyntaxAll known rest)

/-- The members of a type body. -/
def memberSyntax (known : List Text) : List (Text × Shape) → Except Mismatch (List Node)
  | [] => .ok []
  | (key, shape) :: rest => do
    let head ← toSyntax known shape
    return .propertySignature .synthetic (.name key) head false :: (← memberSyntax known rest)

/-- The parameters of a function type. -/
def paramSyntax (known : List Text) : List (Text × Shape) → Except Mismatch (List Node)
  | [] => .ok []
  | (name, shape) :: rest => do
    let head ← toSyntax known shape
    return .identifier .synthetic false name head :: (← paramSyntax known rest)

end

/-- The type syntax of a shape that may be missing. -/
def toSyntax? (known : List Text) : Option Shape → Except Mismatch Node
  | some shape => shape.toSyntax known
  | none => .error .noShape

/-- The declaration of an interface. Only an object shape can be declared. -/
def interfaceSyntax (known : List Text) (name : Text) :
    Option Shape → Except Mismatch Node
  | some (.object fields) => do
    return .interfaceDeclaration .synthetic (.identifier .synthetic false name .absent)
      (← memberSyntax known fields)
  | shape => .error (.notObject name shape)

end Shape

end TypeGloss
