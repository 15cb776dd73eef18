import TypeGloss.Table
import TypeGloss.Text.CodePoint

/-!
# Shapes

A shape is the type that an expression is found to have. Shapes are compared by structure: the
fields of an object and the elements of an array in their order.
-/

namespace TypeGloss

/-- The types without parts. -/
inductive Primitive where
  | number
  | string
  | boolean
  | null
  | void
  deriving DecidableEq, Repr

namespace Primitive

/-- All primitives. -/
def all : List Primitive := [.number, .string, .boolean, .null, .void]

/-- The name of a primitive. -/
def name : Primitive → Text
  | .number => "number"
  | .string => "string"
  | .boolean => "boolean"
  | .null => "null"
  | .void => "void"

/-- The primitive with a name. -/
def ofName? (name : Text) : Option Primitive := all.find? (·.name = name)

end Primitive

/-- The type of an expression. -/
inductive Shape where
  /-- Nothing is known. -/
  | any
  | primitive (kind : Primitive)
  /-- An object with its fields in the order of the source. -/
  | object (fields : List (Text × Shape))
  /-- An array with the types that its elements have. -/
  | array (elements : List Shape)
  | function (params : List (Text × Shape)) (result : Shape)
  /-- An interface, by its name. -/
  | interface (name : Text)
  deriving Repr

namespace Shape

instance : Inhabited Shape := ⟨.any⟩

mutual

/-- Decides whether two shapes are equal. -/
def decEq : (a b : Shape) → Decidable (a = b)
  | .any, .any => isTrue rfl
  | .primitive a, .primitive b =>
    if h : a = b then isTrue (h ▸ rfl) else isFalse fun e => h (Shape.primitive.inj e)
  | .object a, .object b =>
    match decEqFields a b with
    | isTrue h => isTrue (h ▸ rfl)
    | isFalse h => isFalse fun e => h (Shape.object.inj e)
  | .array a, .array b =>
    match decEqList a b with
    | isTrue h => isTrue (h ▸ rfl)
    | isFalse h => isFalse fun e => h (Shape.array.inj e)
  | .function a r, .function b s =>
    match decEqFields a b, decEq r s with
    | isTrue h, isTrue k => isTrue (h ▸ k ▸ rfl)
    | isFalse h, _ => isFalse fun e => h (Shape.function.inj e).1
    | _, isFalse k => isFalse fun e => k (Shape.function.inj e).2
  | .interface a, .interface b =>
    if h : a = b then isTrue (h ▸ rfl) else isFalse fun e => h (Shape.interface.inj e)
  | .any, .primitive _ | .any, .object _ | .any, .array _ | .any, .function _ _
  | .any, .interface _ => isFalse nofun
  | .primitive _, .any | .primitive _, .object _ | .primitive _, .array _
  | .primitive _, .function _ _ | .primitive _, .interface _ => isFalse nofun
  | .object _, .any | .object _, .primitive _ | .object _, .array _ | .object _, .function _ _
  | .object _, .interface _ => isFalse nofun
  | .array _, .any | .array _, .primitive _ | .array _, .object _ | .array _, .function _ _
  | .array _, .interface _ => isFalse nofun
  | .function _ _, .any | .function _ _, .primitive _ | .function _ _, .object _
  | .function _ _, .array _ | .function _ _, .interface _ => isFalse nofun
  | .interface _, .any | .interface _, .primitive _ | .interface _, .object _
  | .interface _, .array _ | .interface _, .function _ _ => isFalse nofun

/-- Decides whether two lists of named shapes are equal. -/
def decEqFields : (a b : List (Text × Shape)) → Decidable (a = b)
  | [], [] => isTrue rfl
  | [], _ :: _ => isFalse nofun
  | _ :: _, [] => isFalse nofun
  | (n, s) :: f, (m, t) :: g =>
    if h : n = m then
      match decEq s t, decEqFields f g with
      | isTrue k, isTrue l => isTrue (h ▸ k ▸ l ▸ rfl)
      | isFalse k, _ => isFalse (by simp [k])
      | _, isFalse l => isFalse (by simp [l])
    else isFalse (by simp [h])

/-- Decides whether two lists of shapes are equal. -/
def decEqList : (a b : List Shape) → Decidable (a = b)
  | [], [] => isTrue rfl
  | [], _ :: _ => isFalse nofun
  | _ :: _, [] => isFalse nofun
  | s :: f, t :: g =>
    match decEq s t, decEqList f g with
    | isTrue k, isTrue l => isTrue (k ▸ l ▸ rfl)
    | isFalse k, _ => isFalse (by simp [k])
    | _, isFalse l => isFalse (by simp [l])

end

instance : DecidableEq Shape := decEq

/-- The shape of a number. -/
def number : Shape := .primitive .number

/-- The shape of a text. -/
def string : Shape := .primitive .string

/-- The shape of a truth value. -/
def boolean : Shape := .primitive .boolean

/-- The shape of the null value. -/
def null : Shape := .primitive .null

/-- The shape of no value. -/
def void : Shape := .primitive .void

/-- The members of a list, each at its first place only. -/
def distinct : List Shape → List Shape
  | [] => []
  | s :: rest => s :: (distinct rest).filter (· ≠ s)

/-- The shape of an array, from the shapes of its elements. Each shape counts once, and `any` counts
only if there is nothing else. -/
def arrayOf (elements : List Shape) : Shape :=
  match (distinct elements).filter (· ≠ .any) with
  | [] => .array [.any]
  | concrete => .array concrete

/-- The shape of an object, from its properties in order. A key that comes again keeps its place and
takes the later shape. -/
def objectOf (properties : List (Text × Shape)) : Shape := .object (Table.ofPairs properties)

/-- The shape of a field of an object. -/
def field? : Shape → Text → Option Shape
  | .object fields, name => Table.get? fields name
  | _, _ => none

/-- Whether a shape is that of an object. -/
def isObject : Shape → Bool
  | .object _ => true
  | _ => false

end Shape

end TypeGloss
