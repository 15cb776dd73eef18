import TypeGloss.Facts.InterfaceName
import TypeGloss.Facts.Record
import TypeGloss.Inference.Infer
import TypeGloss.Syntax.Walk

/-!
# Collecting facts

One walk over a program collects its record. Each node adds the facts of its kind; the shapes come
from one memory that is handed from node to node.
-/

namespace TypeGloss

namespace Node

/-- The name of an identifier. -/
def name : Node → Text
  | .identifier _ _ name _ => name
  | _ => []

/-- The identifier that a parameter binds. -/
def bound : Node → Node
  | .defaultParam _ target _ => target
  | param => param

/-- The name of a function, which may have none of its own. -/
def functionName : Node → Text
  | .absent => "anonymous"
  | node => node.name

/-- The name of the kind of a node as text. -/
def kind (node : Node) : Text := node.kindName

/-- The names that stand as operands of a `+`. -/
def summands : Node → List Text
  | .binary _ _ operator left right =>
    if operator = plusSign then [left, right].filterMap operand? else []
  | _ => []
where
  /-- The name of an operand that is one. -/
  operand? : Node → Option Text
  | .identifier _ _ name _ => some name
  | _ => none

/-- The value that a return statement gives. -/
def returned? : Node → Option Node
  | .returnStatement _ argument => if argument.isAbsent then none else some argument
  | _ => none

/-- The name that an interface declaration gives. -/
def interfaceName? : Node → Option Text
  | .interfaceDeclaration _ name _ => some name.name
  | _ => none

end Node

namespace Facts

/-- The record so far, and the memory of inference. -/
structure State where
  /-- The record so far. -/
  record : Record := {}
  /-- The memory of inference. -/
  cache : Cache

/-- Parameters that are an operand of `+` somewhere in a function's body are numbers. -/
def hints (params : List Text) (body : Node) : Context :=
  Table.ofPairs <| ((body.walk.flatMap Node.summands).filter params.contains).map (·, .number)

/-- The shape of what a function returns: that of the last value that its body returns, nested
functions included, or that of no value. -/
def result (context : Context) (body : Node) (cache : Cache) : Shape × Cache :=
  (body.walk.filterMap Node.returned?).foldl
    (fun (_, cache) argument => Inference.typeOf context argument cache) (.void, cache)

/-- The name of the interface for a variable with an object shape, and the table with it. -/
def interfaceFor (reserved : List Text) (table : Table Text Shape) (name : Text) (shape : Shape) :
    Text × Table Text Shape :=
  let chosen := InterfaceName.choose reserved table name shape
  (chosen, table.insert chosen shape)

/-- Adds one declared variable. -/
def declarator (reserved : List Text) (state : State) (name initializer : Node) :
    DeclaratorFact × State :=
  let (shape, cache) := Inference.typeOf [] initializer state.cache
  let (typing, interfaces) : Shape × Table Text Shape :=
    match initializer, shape with
    | .object .., .object fields =>
      let (chosen, table) :=
        interfaceFor reserved state.record.interfaces name.name (.object fields)
      (.interface chosen, table)
    | _, shape => (shape, state.record.interfaces)
  ({ name := name.name, initializerKind := initializer.kind, shape, typing },
   { record := { state.record with
       typings := state.record.typings.insert name.name typing
       interfaces }
     cache })

/-- Adds the variables of a declaration. -/
def declarators (reserved : List Text) : List Node → State → List DeclaratorFact × State
  | [], state => ([], state)
  | .declarator _ name initializer :: rest, state =>
    let (fact, state) := declarator reserved state name initializer
    let (facts, state) := declarators reserved rest state
    (fact :: facts, state)
  | _ :: rest, state => declarators reserved rest state

/-- The fact about a function declaration, and the memory behind. -/
def function (name : Node) (params : List Node) (body : Node) (cache : Cache) :
    FunctionFact × Cache :=
  let names := params.map (·.bound.name)
  let context := hints names body
  let (result, cache) := result context body cache
  ({ name := name.functionName
     params := names.map fun name => (name, (context.get? name).getD .any)
     result }, cache)

/-- The shapes of names that a function adds: those of its parameters, and its result. -/
def functionTypings (fact : FunctionFact) (typings : Table Text Shape) : Table Text Shape :=
  (fact.params.foldl (fun table param => table.insert param.1 param.2) typings).insert
    (fact.name ++ "_return") fact.result

/-- The facts about the properties of an object literal, and the memory behind. -/
def properties : List Node → Cache → List PropertyFact × Cache
  | [], cache => ([], cache)
  | .property _ key value _ :: rest, cache =>
    let (shape, cache) := Inference.typeOf [] value cache
    let (facts, cache) := properties rest cache
    ({ key := key.propertyKey, valueKind := value.kind, shape } :: facts, cache)
  | _ :: rest, cache => properties rest cache

/-- Adds the facts of one node. -/
def visit (reserved : List Text) (state : State) (node : Node) : State :=
  match node with
  | .variableDeclaration _ keyword declared =>
    let (facts, state) := declarators reserved declared state
    { state with record.declarations := state.record.declarations ++ [⟨keyword, facts⟩] }
  | .functionDeclaration _ name params body _ =>
    let (fact, cache) := function name params body state.cache
    { record := { state.record with
        functions := state.record.functions ++ [fact]
        typings := functionTypings fact state.record.typings }
      cache }
  | .returnStatement _ argument =>
    if argument.isAbsent then
      { state with record.returns := state.record.returns ++ [⟨"none", .void⟩] }
    else
      let (shape, cache) := Inference.typeOf [] argument state.cache
      { record := { state.record with
          returns := state.record.returns ++ [⟨argument.kind, shape⟩] }
        cache }
  | .object _ _ members =>
    let (facts, cache) := properties members state.cache
    let (shape, cache) := Inference.typeOf [] node cache
    { record := { state.record with objects := state.record.objects ++ [⟨facts, shape⟩] }, cache }
  | .array _ _ elements =>
    let (shape, cache) := Inference.typeOf [] node state.cache
    { record := { state.record with
        arrays := state.record.arrays ++ [⟨elements.map Node.kind, shape⟩] }
      cache }
  | _ => state

/-- The names that no new interface may have: those of the global types and of the interfaces that
the program declares anywhere. -/
def reserved (program : Node) : List Text :=
  GlobalType.names ++ program.walk.filterMap Node.interfaceName?

/-- The record of a program, and the memory behind. -/
def collect (program : Node) (cache : Cache) : Record × Cache :=
  let state := program.walk.foldl (visit (reserved program)) { cache }
  (state.record, state.cache)

end Facts

end TypeGloss
