import TypeGloss.Inference.Cache

/-!
# Inference

The shape of an expression. Literals have the shape of their kind, objects and arrays are made of
the shapes of their parts, a name has its shape in the context, and `+` gives a text if one of its
operands is a text and a number otherwise. Everything else can be anything.

Shapes of the expressions modelled here are looked up before they are worked out. A chain of binary
operators counts as one expression: its inner parts are worked out on the way and not looked up.
-/

namespace TypeGloss

/-- The operator that adds numbers and joins texts. -/
def plusSign : Text := "+"

/-- The shape of a sum. -/
def Shape.plus (left right : Shape) : Shape :=
  if left = .string ∨ right = .string then .string else .number

namespace Inference

/-- A shape that is known at once. -/
def known (shape : Shape) (cache : Cache) : Shape × Cache := (shape, cache)

mutual

/-- The shape of an expression, and the memory behind. `inChain` tells that the expression is the
left operand of a chain. -/
def infer (context : Context) (inChain : Bool) : Node → Cache → Shape × Cache
  | .number loc wrapped raw, cache =>
    cache.remember (Node.fingerprint context (.number loc wrapped raw)) (known .number)
  | .string loc wrapped raw, cache =>
    cache.remember (Node.fingerprint context (.string loc wrapped raw)) (known .string)
  | .boolean loc wrapped value, cache =>
    cache.remember (Node.fingerprint context (.boolean loc wrapped value)) (known .boolean)
  | .null loc wrapped, cache =>
    cache.remember (Node.fingerprint context (.null loc wrapped)) (known .null)
  | .identifier loc wrapped name typing, cache =>
    cache.remember (Node.fingerprint context (.identifier loc wrapped name typing))
      (known ((context.get? name).getD .any))
  | .object loc wrapped properties, cache =>
    cache.remember (Node.fingerprint context (.object loc wrapped properties)) fun cache =>
      let (fields, cache) := inferProperties context properties cache
      (Shape.objectOf fields, cache)
  | .array loc wrapped elements, cache =>
    cache.remember (Node.fingerprint context (.array loc wrapped elements)) fun cache =>
      let (shapes, cache) := inferAll context elements cache
      (Shape.arrayOf shapes, cache)
  | .binary loc wrapped operator left right, cache =>
    let work (cache : Cache) : Shape × Cache :=
      let (leftShape, cache) := infer context true left cache
      if operator = plusSign then
        let (rightShape, cache) := infer context false right cache
        (leftShape.plus rightShape, cache)
      else (.any, cache)
    if inChain then work cache
    else cache.remember (Node.fingerprint context (.binary loc wrapped operator left right)) work
  | _, cache => (.any, cache)

/-- The shapes of the elements of an array. -/
def inferAll (context : Context) : List Node → Cache → List Shape × Cache
  | [], cache => ([], cache)
  | node :: rest, cache =>
    let (shape, cache) := infer context false node cache
    let (shapes, cache) := inferAll context rest cache
    (shape :: shapes, cache)

/-- The keys and shapes of the properties of an object. -/
def inferProperties (context : Context) : List Node → Cache → List (Text × Shape) × Cache
  | [], cache => ([], cache)
  | .property _ key value _ :: rest, cache =>
    let (shape, cache) := infer context false value cache
    let (fields, cache) := inferProperties context rest cache
    ((key.propertyKey, shape) :: fields, cache)
  | _ :: rest, cache => inferProperties context rest cache

end

/-- The shape of an expression in a context, and the memory behind. -/
def typeOf (context : Context) (node : Node) (cache : Cache) : Shape × Cache :=
  infer context false node cache

/-- The operators of a chain, the innermost first: those of the binary expressions along the left
operands, and that of the whole. An expression without two operands has none. -/
def operators? : Node → Option (List Text)
  | .binary _ _ operator left _ | .logical _ _ operator left _ | .assignment _ _ operator left _ =>
    some (spine left ++ [operator])
  | _ => none
where
  /-- The operators of a binary expression and of the binary expressions along its left operands. -/
  spine : Node → List Text
  | .binary _ _ operator left _ => spine left ++ [operator]
  | _ => []

end Inference

end TypeGloss
