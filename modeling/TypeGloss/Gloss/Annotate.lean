import TypeGloss.Facts.Collect
import TypeGloss.Gloss.TypeSyntax
import TypeGloss.Syntax.Rebuild

/-!
# Annotating a program

A record annotates its program in two steps. First each declaration is held against its fact, and
the types for its slots are worked out: all variable declarations, then all function declarations,
then the interfaces. Then the tree is rebuilt with these types in the order in which a walk meets
the declarations. A slot that holds a type keeps it.
-/

namespace TypeGloss

namespace Gloss

/-- The type of a slot: the one it holds, or else the type syntax of a shape. -/
def slotType (known : List Text) (typing : Node) (shape : Shape) : Except Mismatch Node :=
  if typing.isAbsent then shape.toSyntax known else .ok typing

/-- The annotation of an identifier. -/
def typingOf : Node → Node
  | .identifier _ _ _ typing => typing
  | _ => .absent

/-- The identifier that a declarator declares. -/
def declaredBy : Node → Node
  | .declarator _ name _ => name
  | _ => .absent

/-- The types for identifiers, each held against the name and the shape of its fact. -/
def slotTypes (known : List Text) (wrongName : Location → Text → Text → Mismatch) :
    List Node → List (Text × Shape) → Except Mismatch (List Node)
  | identifier :: identifiers, (name, shape) :: facts => do
    if identifier.name ≠ name then
      throw (wrongName identifier.loc name identifier.name)
    let type ← slotType known (typingOf identifier) shape
    return type :: (← slotTypes known wrongName identifiers facts)
  | _, _ => .ok []

/-- The types for the slots of a variable declaration. -/
def declarationTypes (known : List Text) (node : Node) (fact : DeclarationFact) :
    Except Mismatch (List Node) :=
  match node with
  | .variableDeclaration loc keyword declared =>
    if keyword ≠ fact.keyword ∨ declared.length ≠ fact.declarators.length then
      .error (.declaration loc)
    else slotTypes known .variableName (declared.map declaredBy)
      (fact.declarators.map fun d => (d.name, d.typing))
  | _ => .ok []

/-- The types for the parameters of a function, and its result type. -/
structure FunctionTypes where
  /-- The types of the parameters. -/
  params : List Node
  /-- The type of the result. -/
  result : Node

/-- The types for the slots of a function declaration. -/
def functionTypes (known : List Text) (node : Node) (fact : FunctionFact) :
    Except Mismatch FunctionTypes :=
  match node with
  | .functionDeclaration loc name params _ result =>
    if name.functionName ≠ fact.name ∨ params.length ≠ fact.params.length then
      .error (.function loc name.functionName)
    else do
      let types ← slotTypes known .paramName (params.map Node.bound) fact.params
      return ⟨types, ← slotType known result fact.result⟩
  | _ => .ok ⟨[], .absent⟩

/-- The types for all slots, in the order in which a walk meets the declarations. -/
structure Plan where
  /-- The types for each variable declaration. -/
  declarations : List (List Node)
  /-- The types for each function declaration. -/
  functions : List FunctionTypes

/-- Whether a node is a variable declaration. -/
def isDeclaration : Node → Bool
  | .variableDeclaration .. => true
  | _ => false

/-- Whether a node is a function declaration. -/
def isFunction : Node → Bool
  | .functionDeclaration .. => true
  | _ => false

/-- Requires as many facts as there are nodes. -/
def checkCount (what : Counted) (listed found : Nat) : Except Mismatch Unit :=
  if listed = found then .ok () else .error (.count what listed found)

/-- Works through nodes and their facts side by side. -/
def pairwise {Fact Out : Type} (work : Node → Fact → Except Mismatch Out) :
    List Node → List Fact → Except Mismatch (List Out)
  | node :: nodes, fact :: facts => do
    let out ← work node fact
    return out :: (← pairwise work nodes facts)
  | _, _ => .ok []

/-- The types that a record has for a program. -/
def plan (known : List Text) (record : Record) (program : Node) : Except Mismatch Plan := do
  let declarations := program.walk.filter isDeclaration
  let functions := program.walk.filter isFunction
  checkCount .declarations record.declarations.length declarations.length
  checkCount .functions record.functions.length functions.length
  let declarations ← pairwise (declarationTypes known) declarations record.declarations
  let functions ← pairwise (functionTypes known) functions record.functions
  return { declarations, functions }

/-- Gives an identifier a type. -/
def withTyping (node type : Node) : Node :=
  match node with
  | .identifier loc wrapped name _ => .identifier loc wrapped name type
  | node => node

/-- Gives the identifier of a declarator a type. -/
def typeDeclarator (node type : Node) : Node :=
  match node with
  | .declarator loc name initializer => .declarator loc (withTyping name type) initializer
  | node => node

/-- Gives the identifier of a parameter a type. -/
def typeParam (node type : Node) : Node :=
  match node with
  | .defaultParam loc target value => .defaultParam loc (withTyping target type) value
  | node => withTyping node type

/-- The first entry of a plan for a node, put into the node, and the plan for what follows. The
entry is taken before the slots are rebuilt and put in behind. -/
def takeEntry (node : Node) (plan : Plan) : (Node → Node) × Plan :=
  match node, plan.declarations, plan.functions with
  | .variableDeclaration .., types :: rest, _ =>
    (fun
      | .variableDeclaration loc keyword declared =>
        .variableDeclaration loc keyword (declared.zipWith typeDeclarator types)
      | node => node, { plan with declarations := rest })
  | .functionDeclaration .., _, types :: rest =>
    (fun
      | .functionDeclaration loc name params body _ =>
        .functionDeclaration loc name (params.zipWith typeParam types.params) body types.result
      | node => node, { plan with functions := rest })
  | _, _, _ => (id, plan)

/-- Rebuilds slots from left to right, each with what the one before left of the plan. -/
def fillSlots : List (Plan → Node × Plan) → Plan → List Node × Plan
  | [], plan => ([], plan)
  | rebuild :: rest, plan =>
    let (node, plan) := rebuild plan
    let (nodes, plan) := fillSlots rest plan
    (node :: nodes, plan)

/-- The tree with the types of a plan in its slots, and what is left of the plan. -/
def fill (node : Node) : Plan → Node × Plan :=
  node.fold fun node slots plan =>
    let (finish, plan) := takeEntry node plan
    let (slots, plan) := fillSlots slots plan
    (finish (node.withSlots slots), plan)

/-- The declarations of the interfaces of a table. -/
def interfaces (known : List Text) : Table Text (Option Shape) → Except Mismatch (List Node)
  | [] => .ok []
  | (name, shape) :: rest => do
    let head ← Shape.interfaceSyntax known name shape
    return head :: (← interfaces known rest)

/-- Puts statements in front of those of a program. -/
def prepend (statements : List Node) : Node → Node
  | .program loc body => .program loc (statements ++ body)
  | node => node

/-- The program with the types of a record, and a table of interfaces in front. -/
def annotateWith (table : Table Text (Option Shape)) (record : Record) (program : Node) :
    Except Mismatch Node := do
  let plan ← plan table.keys record program
  let declared ← interfaces table.keys table
  return prepend declared (fill program plan).1

/-- The program with the types and the interfaces of a record. -/
def annotate (record : Record) (program : Node) : Except Mismatch Node :=
  annotateWith (record.interfaces.map fun (name, shape) => (name, some shape)) record program

end Gloss

end TypeGloss
