import TypeGloss.Shape.Basic
import TypeGloss.Syntax.Node

/-!
# Fingerprints

Two expressions with the same fingerprint have the same shape. A fingerprint holds what the shape
depends on: the spelling of literals, the keys and values of objects, the elements of arrays, the
operators and operands of a chain, and the shape that a name has in its context. Locations and
parentheses do not count.
-/

namespace TypeGloss

/-- The shapes of the names that are known. -/
abbrev Context := Table Text Shape

/-- What the shape of an expression depends on. -/
inductive Fingerprint where
  /-- An empty slot. -/
  | undefined
  | number (raw : Text)
  | string (raw : Text)
  | boolean (value : Bool)
  | object (fields : List (Text × Fingerprint))
  | array (elements : List Fingerprint)
  /-- A chain: its first operand, and each operator with its right operand. -/
  | chain (first : Fingerprint) (links : List (Text × Fingerprint))
  /-- A name with its shape in the context. -/
  | identifier (name : Text) (shape : Shape)
  /-- Any other kind of node, by the name of its kind. -/
  | other (kind : String)
  deriving Repr

namespace Fingerprint

instance : Inhabited Fingerprint := ⟨.undefined⟩

mutual

/-- Whether two fingerprints are equal. -/
def beq : Fingerprint → Fingerprint → Bool
  | .undefined, .undefined => true
  | .number a, .number b => a = b
  | .string a, .string b => a = b
  | .boolean a, .boolean b => a = b
  | .object a, .object b => beqFields a b
  | .array a, .array b => beqList a b
  | .chain a f, .chain b g => beq a b && beqFields f g
  | .identifier a s, .identifier b t => a = b && s = t
  | .other a, .other b => a = b
  | _, _ => false

/-- Whether two lists of named fingerprints are equal. -/
def beqFields : List (Text × Fingerprint) → List (Text × Fingerprint) → Bool
  | [], [] => true
  | (n, a) :: f, (m, b) :: g => n = m && beq a b && beqFields f g
  | _, _ => false

/-- Whether two lists of fingerprints are equal. -/
def beqList : List Fingerprint → List Fingerprint → Bool
  | [], [] => true
  | a :: f, b :: g => beq a b && beqList f g
  | _, _ => false

end

mutual

/-- Fingerprints that compare as equal are equal. -/
theorem eq_of_beq : ∀ {a b : Fingerprint}, beq a b = true → a = b
  | .undefined, b, h => by cases b <;> simp_all [beq]
  | .number _, b, h => by cases b <;> simp_all [beq]
  | .string _, b, h => by cases b <;> simp_all [beq]
  | .boolean _, b, h => by cases b <;> simp_all [beq]
  | .object f, b, h => by
    cases b <;> simp only [beq, Bool.false_eq_true] at h
    rw [eq_of_beqFields h]
  | .array f, b, h => by
    cases b <;> simp only [beq, Bool.false_eq_true] at h
    rw [eq_of_beqList h]
  | .chain a f, b, h => by
    cases b <;> simp only [beq, Bool.false_eq_true, Bool.and_eq_true] at h
    rw [eq_of_beq h.1, eq_of_beqFields h.2]
  | .identifier _ _, b, h => by cases b <;> simp_all [beq]
  | .other _, b, h => by cases b <;> simp_all [beq]

/-- Lists of named fingerprints that compare as equal are equal. -/
theorem eq_of_beqFields : ∀ {f g : List (Text × Fingerprint)}, beqFields f g = true → f = g
  | [], g, h => by cases g <;> simp_all [beqFields]
  | (n, a) :: f, [], h => by simp [beqFields] at h
  | (n, a) :: f, (m, b) :: g, h => by
    simp only [beqFields, Bool.and_eq_true, decide_eq_true_eq] at h
    rw [h.1.1, eq_of_beq h.1.2, eq_of_beqFields h.2]

/-- Lists of fingerprints that compare as equal are equal. -/
theorem eq_of_beqList : ∀ {f g : List Fingerprint}, beqList f g = true → f = g
  | [], g, h => by cases g <;> simp_all [beqList]
  | a :: f, [], h => by simp [beqList] at h
  | a :: f, b :: g, h => by
    simp only [beqList, Bool.and_eq_true] at h
    rw [eq_of_beq h.1, eq_of_beqList h.2]

end

mutual

/-- A fingerprint compares as equal to itself. -/
theorem beq_self : ∀ a : Fingerprint, beq a a = true
  | .undefined => by simp [beq]
  | .number _ => by simp [beq]
  | .string _ => by simp [beq]
  | .boolean _ => by simp [beq]
  | .object f => by simp [beq, beqFields_self f]
  | .array f => by simp [beq, beqList_self f]
  | .chain a f => by simp [beq, beq_self a, beqFields_self f]
  | .identifier _ _ => by simp [beq]
  | .other _ => by simp [beq]

/-- A list of named fingerprints compares as equal to itself. -/
theorem beqFields_self : ∀ f : List (Text × Fingerprint), beqFields f f = true
  | [] => by simp [beqFields]
  | (n, a) :: f => by simp [beqFields, beq_self a, beqFields_self f]

/-- A list of fingerprints compares as equal to itself. -/
theorem beqList_self : ∀ f : List Fingerprint, beqList f f = true
  | [] => by simp [beqList]
  | a :: f => by simp [beqList, beq_self a, beqList_self f]

end

instance : DecidableEq Fingerprint := fun a b =>
  if h : beq a b = true then isTrue (eq_of_beq h)
  else isFalse fun e => h (e ▸ beq_self a)

/-- A chain prolonged by one link; any other fingerprint starts a chain. -/
def link (left : Fingerprint) (operator : Text) (right : Fingerprint) : Fingerprint :=
  match left with
  | .chain first links => .chain first (links ++ [(operator, right)])
  | first => .chain first [(operator, right)]

end Fingerprint

namespace Node

/-- The text of a property's key: a quoted key denotes its value, the others their spelling. -/
def propertyKey : Node → Text
  | .identifier _ _ name _ => name
  | .string _ _ raw => Literal.stringText raw
  | .number _ _ raw => raw
  | _ => []

mutual

/-- The fingerprint of a node in a context. -/
def fingerprint (context : Context) : Node → Fingerprint
  | .absent => .undefined
  | .number _ _ raw => .number raw
  | .string _ _ raw => .string raw
  | .boolean _ _ value => .boolean value
  | .object _ _ properties => .object (fingerprintFields context properties)
  | .array _ _ elements => .array (fingerprintAll context elements)
  | .binary _ _ operator left right =>
    (fingerprint context left).link operator (fingerprint context right)
  | .identifier _ _ name _ => .identifier name ((context.get? name).getD .any)
  | node => .other node.kindName

/-- The fingerprints of the elements of an array. -/
def fingerprintAll (context : Context) : List Node → List Fingerprint
  | [] => []
  | node :: rest => fingerprint context node :: fingerprintAll context rest

/-- The keys of the properties of an object, with the fingerprints of their values. -/
def fingerprintFields (context : Context) : List Node → List (Text × Fingerprint)
  | [] => []
  | .property _ key value _ :: rest =>
    (key.propertyKey, fingerprint context value) :: fingerprintFields context rest
  | _ :: rest => fingerprintFields context rest

end

end Node

end TypeGloss
