import TypeGloss.Parse.Frame
import TypeGloss.Proofs.Lexeme

/-!
# The grammar of trees

Which trees a program can have, stated without tokens. An expression fits a slot if it binds tightly
enough for it, if it may start there, and if it may end there: where a brace would open a block, no
object starts an expression, and where `function` would declare, no function does.

The grammar leaves open which annotations and interfaces occur, and whether a reserved word may
stand as an operand. It may do so in two places only, and only if a colon follows directly.
-/

namespace TypeGloss

open Lexeme (isWordText IsName IsNumber IsString IsTemplate)

namespace Grammar

/-- The operators before a single operand. -/
def unarySigns : List Text := ["+", "-", "!", "~", "typeof", "void", "delete"]

/-- The operators that change a variable by one. -/
def updateSigns : List Text := ["++", "--"]

/-- The operators of a level. -/
def levelSigns : Parse.Level → List Text
  | .orElse => ["||", "??"]
  | .andThen => ["&&"]
  | .equality => ["==", "!=", "===", "!=="]
  | .relational => ["<", ">", "<=", ">=", "instanceof"]
  | .additive => ["+", "-"]
  | .multiplicative => ["*", "/", "%"]

/-- The operators that assign. -/
def assignSigns : List Text :=
  ["=", "+=", "-=", "*=", "/=", "%=", "??=", "||=", "&&="]

/-- The words that declare variables. -/
def declarationWords : List Text := ["var", "let", "const"]

/-- The words that stand as operators before an operand or between two. -/
def voidWord : Text := "void"

/-- The sign of a comparison that ends like a type argument list. -/
def greaterSign : Text := ">"

/-- What an expression must not start with. -/
inductive Opening where
  /-- It may start with anything. -/
  | any
  /-- It must not start with the brace of an object. -/
  | noObject
  /-- It must neither start with the brace of an object nor with a function. -/
  | noObjectOrFunction
  deriving DecidableEq, Repr

/-- Whether an object may come first. -/
def Opening.allowsObject : Opening → Bool
  | .any => true
  | _ => false

/-- Whether a function may come first. -/
def Opening.allowsFunction : Opening → Bool
  | .noObjectOrFunction => false
  | _ => true

/-- The kinds of slots of a tree. -/
inductive Form where
  /-- An expression of some tightness. If `tail` is set, a colon follows it directly. -/
  | expression (tightness : Nat) (opening : Opening) (tail : Bool)
  /-- An expression that may be left out. -/
  | optional (tightness : Nat) (opening : Opening)
  /-- What `new` constructs. -/
  | callee
  | property
  | param
  | declarator
  /-- A variable declaration. -/
  | declaration
  /-- A declaration that may be exported. -/
  | declared
  /-- The first part of the header of a loop. -/
  | initializer
  /-- A block. -/
  | block
  /-- A statement. If `closed` is set, it does not end in an `if` without `else`. -/
  | statement (closed : Bool)
  | program

/-- The key of a property. -/
inductive Key : Node → Prop
  | name {loc : Location} {name : Text} (word : isWordText name = true) :
      Key (.identifier loc false name .absent)
  | string {loc : Location} {raw : Text} (spelling : IsString raw) : Key (.string loc false raw)
  | number {loc : Location} {raw : Text} (spelling : IsNumber raw) : Key (.number loc false raw)

/-- The name of a function, if it has one. -/
inductive NameSlot : Node → Prop
  | none : NameSlot .absent
  | some {loc : Location} {name : Text} (isName : IsName name) :
      NameSlot (.identifier loc false name .absent)

end Grammar

/-- What the grammar of trees leaves open. -/
structure Grammar where
  /-- The names with annotations. -/
  annotated : Text → Node → Prop
  /-- The result types of functions. -/
  result : Node → Prop
  /-- The interface declarations. -/
  interface : Node → Prop
  /-- Whether a reserved word may stand as an operand. -/
  reserved : Prop

namespace Grammar

/-- A name with its annotation, if it has one. -/
inductive Binder (G : Grammar) : Node → Prop
  | plain {loc : Location} {name : Text} (isName : IsName name) :
      Binder G (.identifier loc false name .absent)
  | typed {loc : Location} {name : Text} {type : Node} (annotated : G.annotated name type) :
      Binder G (.identifier loc false name type)

/-- The result type of a function, if it has one. -/
inductive ResultSlot (G : Grammar) : Node → Prop
  | none : ResultSlot G .absent
  | some {type : Node} (result : G.result type) : ResultSlot G type

/-- The trees that fit a slot. -/
inductive Fits (G : Grammar) : Form → Node → Prop
  -- Expressions that may be called.
  | name {ℓ o t loc name} (isName : IsName name) :
      Fits G (.expression ℓ o t) (.identifier loc false name .absent)
  | number {ℓ o t loc raw} (spelling : IsNumber raw) :
      Fits G (.expression ℓ o t) (.number loc false raw)
  | string {ℓ o t loc raw} (spelling : IsString raw) :
      Fits G (.expression ℓ o t) (.string loc false raw)
  | template {ℓ o t loc raw} (spelling : IsTemplate raw) :
      Fits G (.expression ℓ o t) (.template loc false raw)
  | boolean {ℓ o t loc value} : Fits G (.expression ℓ o t) (.boolean loc false value)
  | null {ℓ o t loc} : Fits G (.expression ℓ o t) (.null loc false)
  | this {ℓ o t loc} : Fits G (.expression ℓ o t) (.this loc false)
  | array {ℓ o t loc elements} (each : ∀ e ∈ elements, Fits G (.optional 1 .any) e) :
      Fits G (.expression ℓ o t) (.array loc false elements)
  | object {ℓ o t loc properties} (opens : o.allowsObject = true)
      (each : ∀ p ∈ properties, Fits G .property p) :
      Fits G (.expression ℓ o t) (.object loc false properties)
  | function {ℓ o t loc name params body result} (opens : o.allowsFunction = true)
      (named : NameSlot name) (each : ∀ p ∈ params, Fits G .param p) (block : Fits G .block body)
      (typed : ResultSlot G result) :
      Fits G (.expression ℓ o t) (.functionExpression loc false name params body result)
  | call {ℓ o t loc callee arguments} (called : Fits G (.expression 10 o false) callee)
      (each : ∀ a ∈ arguments, Fits G (.expression 1 .any false) a) :
      Fits G (.expression ℓ o t) (.call loc false callee arguments)
  | construction {ℓ o t loc callee arguments} (called : Fits G .callee callee)
      (each : ∀ a ∈ arguments, Fits G (.expression 1 .any false) a) :
      Fits G (.expression ℓ o t) (.construction loc false callee arguments)
  | member {ℓ o t loc value nameLoc name} (inner : Fits G (.expression 10 o false) value)
      (word : isWordText name = true) :
      Fits G (.expression ℓ o t)
        (.member loc false value (.identifier nameLoc false name .absent) false)
  | index {ℓ o t loc value selector} (inner : Fits G (.expression 10 o false) value)
      (selected : Fits G (.expression 0 .any false) selector) :
      Fits G (.expression ℓ o t) (.member loc false value selector true)
  | wrapped {ℓ o t e} (inner : Fits G (.expression 0 .any false) e)
      (unwrapped : e.isWrapped = false) : Fits G (.expression ℓ o t) e.wrap
  -- Operators.
  | updateBehind {ℓ o t loc operator argument} (loose : ℓ ≤ 9) (sign : operator ∈ updateSigns)
      (inner : Fits G (.expression 10 o false) argument) :
      Fits G (.expression ℓ o t) (.update loc false operator false argument)
  | updateBefore {ℓ o t loc operator argument} (loose : ℓ ≤ 8) (sign : operator ∈ updateSigns)
      (inner : Fits G (.expression 8 .noObjectOrFunction t) argument) :
      Fits G (.expression ℓ o t) (.update loc false operator true argument)
  | unary {ℓ o t loc operator argument} (loose : ℓ ≤ 8) (sign : operator ∈ unarySigns)
      (inner : Fits G (.expression 8 .any t) argument) :
      Fits G (.expression ℓ o t) (.unary loc false operator argument)
  | reservedUnary {ℓ o loc nameLoc name} (allowed : G.reserved) (loose : ℓ ≤ 8)
      (word : isWordText name = true) :
      Fits G (.expression ℓ o true)
        (.unary loc false voidWord (.identifier nameLoc false name .absent))
  | binary {ℓ o t loc operator left right} (level : Parse.Level) (loose : ℓ ≤ level.rank + 2)
      (sign : operator ∈ levelSigns level)
      (first : Fits G (.expression (level.rank + 2) o false) left)
      (second : Fits G (.expression (level.rank + 3) .any t) right) :
      Fits G (.expression ℓ o t) (level.node loc operator left right)
  | reservedRight {ℓ o loc left nameLoc name} (allowed : G.reserved)
      (loose : ℓ ≤ Parse.Level.relational.rank + 2)
      (first : Fits G (.expression (Parse.Level.relational.rank + 2) o false) left)
      (word : isWordText name = true) :
      Fits G (.expression ℓ o true)
        (Parse.Level.relational.node loc greaterSign left
          (.identifier nameLoc false name .absent))
  | conditional {ℓ o t loc test consequent alternate} (loose : ℓ ≤ 1)
      (condition : Fits G (.expression 2 o false) test)
      (first : Fits G (.expression 1 .any true) consequent)
      (second : Fits G (.expression 1 .any t) alternate) :
      Fits G (.expression ℓ o t) (.conditional loc false test consequent alternate)
  | assignment {ℓ o t loc operator target value} (loose : ℓ ≤ 1) (sign : operator ∈ assignSigns)
      (assigned : Fits G (.expression 10 o false) target)
      (inner : Fits G (.expression 1 .any t) value) :
      Fits G (.expression ℓ o t) (.assignment loc false operator target value)
  | arrow {ℓ o t loc params body} (loose : ℓ ≤ 1) (each : ∀ p ∈ params, Fits G .param p)
      (inner : Fits G (.expression 1 .noObject t) body) :
      Fits G (.expression ℓ o t) (.arrowFunction loc false params body)
  | arrowBlock {ℓ o t loc params body} (loose : ℓ ≤ 1) (each : ∀ p ∈ params, Fits G .param p)
      (block : Fits G .block body) :
      Fits G (.expression ℓ o t) (.arrowFunction loc false params body)
  | sequence {ℓ o t loc first others} (loose : ℓ = 0) (several : others ≠ [])
      (leading : Fits G (.expression 1 o false) first)
      (each : ∀ e ∈ others, Fits G (.expression 1 .any false) e) :
      Fits G (.expression ℓ o t) (.sequence loc false (first :: others))
  -- Parts of expressions.
  | omitted {ℓ o} : Fits G (.optional ℓ o) .absent
  | given {ℓ o e} (inner : Fits G (.expression ℓ o false) e) : Fits G (.optional ℓ o) e
  | calleeName {loc name} (isName : IsName name) :
      Fits G .callee (.identifier loc false name .absent)
  | calleeMember {loc callee nameLoc name} (inner : Fits G .callee callee)
      (word : isWordText name = true) :
      Fits G .callee (.member loc false callee (.identifier nameLoc false name .absent) false)
  | shorthand {loc keyLoc valueLoc name} (isName : IsName name) :
      Fits G .property
        (.property loc (.identifier keyLoc false name .absent)
          (.identifier valueLoc false name .absent) true)
  | property {loc key value} (isKey : Key key) (inner : Fits G (.expression 1 .any false) value) :
      Fits G .property (.property loc key value false)
  | param {binder} (bound : Binder G binder) : Fits G .param binder
  | defaultParam {loc binder value} (bound : Binder G binder)
      (inner : Fits G (.expression 1 .any false) value) :
      Fits G .param (.defaultParam loc binder value)
  -- Declarations.
  | declarator {loc binder initializer} (bound : Binder G binder)
      (inner : Fits G (.optional 1 .any) initializer) :
      Fits G .declarator (.declarator loc binder initializer)
  | declaration {loc keyword declarators} (word : keyword ∈ declarationWords)
      (some : declarators ≠ []) (each : ∀ d ∈ declarators, Fits G .declarator d) :
      Fits G .declaration (.variableDeclaration loc keyword declarators)
  | declaredVariables {d} (inner : Fits G .declaration d) : Fits G .declared d
  | declaredFunction {loc name params body result} (named : NameSlot name)
      (each : ∀ p ∈ params, Fits G .param p) (block : Fits G .block body)
      (typed : ResultSlot G result) :
      Fits G .declared (.functionDeclaration loc name params body result)
  | noInitializer : Fits G .initializer .absent
  | initializerVariables {d} (inner : Fits G .declaration d) : Fits G .initializer d
  | initializerExpression {e} (inner : Fits G (.expression 0 .any false) e) :
      Fits G .initializer e
  | block {loc body} (each : ∀ s ∈ body, Fits G (.statement false) s) :
      Fits G .block (.block loc body)
  -- Statements.
  | declared {c d} (inner : Fits G .declared d) : Fits G (.statement c) d
  | interface {c d} (allowed : G.interface d) : Fits G (.statement c) d
  | exportNamed {c loc d} (inner : Fits G .declared d) : Fits G (.statement c) (.exportNamed loc d)
  | exportDefault {c loc d} (inner : Fits G .declared d) :
      Fits G (.statement c) (.exportDefault loc d)
  | blockStatement {c b} (inner : Fits G .block b) : Fits G (.statement c) b
  | returned {c loc argument} (inner : Fits G (.optional 0 .any) argument) :
      Fits G (.statement c) (.returnStatement loc argument)
  | thrown {c loc argument} (inner : Fits G (.expression 0 .any false) argument) :
      Fits G (.statement c) (.throwStatement loc argument)
  | breakStatement {c loc} : Fits G (.statement c) (.breakStatement loc)
  | continueStatement {c loc} : Fits G (.statement c) (.continueStatement loc)
  | emptyStatement {c loc} : Fits G (.statement c) (.emptyStatement loc)
  | expressionStatement {c loc e} (inner : Fits G (.expression 0 .noObjectOrFunction false) e) :
      Fits G (.statement c) (.expressionStatement loc e)
  | ifThen {loc test consequent} (condition : Fits G (.expression 0 .any false) test)
      (first : Fits G (.statement false) consequent) :
      Fits G (.statement false) (.ifStatement loc test consequent .absent)
  | ifElse {c loc test consequent alternate} (condition : Fits G (.expression 0 .any false) test)
      (first : Fits G (.statement true) consequent) (second : Fits G (.statement c) alternate) :
      Fits G (.statement c) (.ifStatement loc test consequent alternate)
  | whileLoop {c loc test body} (condition : Fits G (.expression 0 .any false) test)
      (inner : Fits G (.statement c) body) : Fits G (.statement c) (.whileStatement loc test body)
  | forLoop {c loc initializer test step body} (initial : Fits G .initializer initializer)
      (condition : Fits G (.optional 0 .noObjectOrFunction) test)
      (increment : Fits G (.optional 0 .noObjectOrFunction) step)
      (inner : Fits G (.statement c) body) :
      Fits G (.statement c) (.forStatement loc initializer test step body)
  | program {loc body} (each : ∀ s ∈ body, Fits G (.statement false) s) :
      Fits G .program (.program loc body)

/-- Whatever may come first under one opening may do so under another. -/
def Opening.Within (o p : Opening) : Prop :=
  (o.allowsObject = true → p.allowsObject = true) ∧
    (o.allowsFunction = true → p.allowsFunction = true)

theorem Opening.Within.refl {o : Opening} : o.Within o := ⟨id, id⟩

theorem Opening.within_any (o : Opening) : o.Within .any := ⟨fun _ => rfl, fun _ => rfl⟩

namespace Fits

variable {G : Grammar}

/-- A slot that asks for less takes every expression that fits. -/
theorem weaken {form : Form} {node : Node} (fits : Fits G form node) :
    ∀ {ℓ o t}, form = .expression ℓ o t →
      ∀ {ℓ' o' t'}, ℓ' ≤ ℓ → o.Within o' → (t = true → t' = true) →
        Fits G (.expression ℓ' o' t') node := by
  induction fits with
  | name isName => intros; exact .name isName
  | number spelling => intros; exact .number spelling
  | string spelling => intros; exact .string spelling
  | template spelling => intros; exact .template spelling
  | boolean => intros; exact .boolean
  | null => intros; exact .null
  | this => intros; exact .this
  | array each => intros; exact .array each
  | object opens each =>
    rintro ℓ o t ⟨⟩ ℓ' o' t' - within -
    exact .object (within.1 opens) each
  | function opens named each block typed =>
    rintro ℓ o t ⟨⟩ ℓ' o' t' - within -
    exact .function (within.2 opens) named each block typed
  | call called each ih =>
    rintro ℓ o t ⟨⟩ ℓ' o' t' - within -
    exact .call (ih rfl (Nat.le_refl _) within id) each
  | construction called each => intros; exact .construction called each
  | member inner word ih =>
    rintro ℓ o t ⟨⟩ ℓ' o' t' - within -
    exact .member (ih rfl (Nat.le_refl _) within id) word
  | index inner selected ih =>
    rintro ℓ o t ⟨⟩ ℓ' o' t' - within -
    exact .index (ih rfl (Nat.le_refl _) within id) selected
  | wrapped inner unwrapped => intros; exact .wrapped inner unwrapped
  | updateBehind loose sign inner ih =>
    rintro ℓ o t ⟨⟩ ℓ' o' t' le within -
    exact .updateBehind (Nat.le_trans le loose) sign (ih rfl (Nat.le_refl _) within id)
  | updateBefore loose sign inner ih =>
    rintro ℓ o t ⟨⟩ ℓ' o' t' le - tail
    exact .updateBefore (Nat.le_trans le loose) sign (ih rfl (Nat.le_refl _) .refl tail)
  | unary loose sign inner ih =>
    rintro ℓ o t ⟨⟩ ℓ' o' t' le - tail
    exact .unary (Nat.le_trans le loose) sign (ih rfl (Nat.le_refl _) .refl tail)
  | reservedUnary allowed loose word =>
    rintro ℓ o t ⟨⟩ ℓ' o' t' le - tail
    obtain rfl := tail rfl
    exact .reservedUnary allowed (Nat.le_trans le loose) word
  | binary level loose sign first second ihFirst ihSecond =>
    rintro ℓ o t ⟨⟩ ℓ' o' t' le within tail
    exact .binary level (Nat.le_trans le loose) sign (ihFirst rfl (Nat.le_refl _) within id)
      (ihSecond rfl (Nat.le_refl _) .refl tail)
  | reservedRight allowed loose first word ih =>
    rintro ℓ o t ⟨⟩ ℓ' o' t' le within tail
    obtain rfl := tail rfl
    exact .reservedRight allowed (Nat.le_trans le loose) (ih rfl (Nat.le_refl _) within id) word
  | conditional loose condition first second ihCondition ihFirst ihSecond =>
    rintro ℓ o t ⟨⟩ ℓ' o' t' le within tail
    exact .conditional (Nat.le_trans le loose) (ihCondition rfl (Nat.le_refl _) within id) first
      (ihSecond rfl (Nat.le_refl _) .refl tail)
  | assignment loose sign assigned inner ihAssigned ihInner =>
    rintro ℓ o t ⟨⟩ ℓ' o' t' le within tail
    exact .assignment (Nat.le_trans le loose) sign (ihAssigned rfl (Nat.le_refl _) within id)
      (ihInner rfl (Nat.le_refl _) .refl tail)
  | arrow loose each inner ihEach ihInner =>
    rintro ℓ o t ⟨⟩ ℓ' o' t' le - tail
    exact .arrow (Nat.le_trans le loose) each (ihInner rfl (Nat.le_refl _) .refl tail)
  | arrowBlock loose each block =>
    rintro ℓ o t ⟨⟩ ℓ' o' t' le - -
    exact .arrowBlock (Nat.le_trans le loose) each block
  | sequence loose several leading each ih =>
    rintro ℓ o t ⟨⟩ ℓ' o' t' le within -
    exact .sequence (by omega) several (ih rfl (Nat.le_refl _) within id) each
  | _ => rintro ℓ o t ⟨⟩

/-- A statement that does not end in an open `if` may stand wherever a statement may. -/
theorem unclosed {form : Form} {node : Node} (fits : Fits G form node) :
    form = .statement true → ∀ {c}, Fits G (.statement c) node := by
  induction fits with
  | declared inner => intros; exact .declared inner
  | interface allowed => intros; exact .interface allowed
  | exportNamed inner => intros; exact .exportNamed inner
  | exportDefault inner => intros; exact .exportDefault inner
  | blockStatement inner => intros; exact .blockStatement inner
  | returned inner => intros; exact .returned inner
  | thrown inner => intros; exact .thrown inner
  | breakStatement => intros; exact .breakStatement
  | continueStatement => intros; exact .continueStatement
  | emptyStatement => intros; exact .emptyStatement
  | expressionStatement inner => intros; exact .expressionStatement inner
  | ifElse condition first second _ _ ih =>
    rintro ⟨⟩ c
    exact .ifElse condition first (ih rfl)
  | whileLoop condition inner _ ih =>
    rintro ⟨⟩ c
    exact .whileLoop condition (ih rfl)
  | forLoop initial condition increment inner _ _ _ ih =>
    rintro ⟨⟩ c
    exact .forLoop initial condition increment (ih rfl)
  | _ => rintro ⟨⟩

/-- An expression in parentheses fits every slot for expressions. -/
theorem of_isWrapped {form : Form} {node : Node} (fits : Fits G form node) :
    ∀ {ℓ o t}, form = .expression ℓ o t → node.isWrapped = true →
      ∀ {ℓ' o' t'}, Fits G (.expression ℓ' o' t') node := by
  induction fits with
  | wrapped inner unwrapped => intros; exact .wrapped inner unwrapped
  | binary level => cases level <;> intros <;> contradiction
  | reservedRight => intros; contradiction
  | _ => intros; contradiction

/-- Parentheses make an expression fit every slot for expressions. -/
theorem wrap {e : Node} (fits : Fits G (.expression 0 .any false) e) {ℓ : Nat} {o : Opening}
    {t : Bool} : Fits G (.expression ℓ o t) e.wrap := by
  cases isWrapped : e.isWrapped with
  | false => exact .wrapped fits isWrapped
  | true =>
    have same : e.wrap = e := by cases e <;> simp_all [Node.isWrapped, Node.wrap]
    rw [same]
    exact of_isWrapped fits rfl isWrapped

end Fits

end Grammar

end TypeGloss
