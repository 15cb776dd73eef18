import TypeGloss.Proofs.Parts
import TypeGloss.Proofs.Refill

/-!
# Trees with types fit a grammar

A tree that fits one grammar fits another one when it is given types, if these are types of the
other grammar. With the types that it has, this also says when a tree fits another grammar as it is.
-/

namespace TypeGloss

open Lexeme (isWordText IsName)
open Gloss

namespace Node

/-- The operands of an operator. -/
def operands : Node → List Node
  | .unary _ _ _ argument => [argument]
  | .binary _ _ _ left right => [left, right]
  | _ => []

end Node

namespace Gloss

variable (types : Types)

theorem refill_wrap (node : Node) : refill types node.wrap = (refill types node).wrap := by
  rw [refill_eq, refill_eq]
  cases node <;> simp [put, Node.mapSlots, Node.withSlots, Node.slots, Node.wrap]

theorem isWrapped_refill (node : Node) : (refill types node).isWrapped = node.isWrapped := by
  rw [refill_eq]
  cases node <;> simp [put, Node.mapSlots, Node.withSlots, Node.slots, Node.isWrapped]

theorem refill_functionExpression (loc : Location) (wrapped : Bool) (name : Node)
    (params : List Node) (body result : Node) :
    refill types (.functionExpression loc wrapped name params body result) =
      .functionExpression loc wrapped (refill types name) (params.map (refill types))
        (refill types body) (refill types result) := by
  rw [refill_of_other types rfl rfl]
  simp [Node.mapSlots, Node.withSlots, Node.slots]

theorem refill_arrowFunction (loc : Location) (wrapped : Bool) (params : List Node) (body : Node) :
    refill types (.arrowFunction loc wrapped params body) =
      .arrowFunction loc wrapped (params.map (refill types)) (refill types body) := by
  rw [refill_of_other types rfl rfl]
  simp [Node.mapSlots, Node.withSlots, Node.slots]

theorem refill_level (level : Parse.Level) (loc : Location) (operator : Text) (left right : Node) :
    refill types (level.node loc operator left right) =
      level.node loc operator (refill types left) (refill types right) := by
  cases level <;> rfl

end Gloss

namespace Grammar

variable {G G' : Grammar} {types : Types}

theorem NameSlot.refill {node : Node} (named : NameSlot node) : NameSlot (refill types node) := by
  cases named with
  | none => exact .none
  | some isName => exact .some isName

theorem Key.refill {node : Node} (isKey : Key node) : Key (refill types node) := by
  cases isKey with
  | name word => exact .name word
  | string spelling => exact .string spelling
  | number spelling => exact .number spelling

/-- A type that every name may have. -/
def TypesBinders (G : Grammar) (type : Node) : Prop :=
  ∀ {loc name old}, Binder G (.identifier loc false name old) →
    Binder G (.identifier loc false name type)

/-- Types that may be put into the slots of another grammar. -/
structure Suits (G G' : Grammar) (types : Types) (p : Node → Prop) : Prop where
  wrap : ∀ e : Node, p e.wrap → p e
  annotated : ∀ {loc name type}, Node.Every p (.identifier loc false name type) →
    G.annotated name type → G'.annotated name (refill types type)
  result : ∀ {type : Node}, type.Every p → G.result type → G'.result (refill types type)
  interface : ∀ {d : Node}, d.Every p → G.interface d → G'.interface (refill types d)
  reserved : G.reserved → ∀ {node : Node} {loc name}, p node →
    .identifier loc false name .absent ∈ node.operands → isWordText name = true →
    G'.reserved ∨ IsName name
  puts : ∀ {node : Node}, p node →
    Puts types (fun _ => TypesBinders G') (fun _ => ResultSlot G') node

section Slots

variable {p : Node → Prop} (suits : Suits G G' types p)

include suits

theorem Suits.binder {node : Node} (bound : Binder G node) (every : node.Every p) :
    Binder G' (refill types node) := by
  cases bound with
  | plain isName => exact .plain isName
  | typed typed => exact .typed (suits.annotated every typed)

theorem Suits.resultSlot {node : Node} (slot : ResultSlot G node) (every : node.Every p) :
    ResultSlot G' (refill types node) := by
  cases slot with
  | none => exact .none
  | some allowed => exact .some (suits.result every allowed)

end Slots

theorem Binder.unwrapped {loc : Location} {wrapped : Bool} {name : Text} {typing : Node}
    (bound : Binder G (.identifier loc wrapped name typing)) : wrapped = false := by
  cases bound <;> rfl

/-- Declarators that fit still do so with types that suit them. -/
theorem fits_typeDeclarator {declared new : List Node}
    (pairs : Gloss.Pairs (fun _ => TypesBinders G') declared new Gloss.declaresName
      Gloss.declaredBy)
    (each : ∀ d ∈ declared, Fits G' .declarator (refill types d)) :
    ∀ d ∈ List.zipWith Gloss.typeDeclarator (declared.map (refill types)) new,
      Fits G' .declarator d := by
  induction pairs with
  | nil => simp
  | @cons d type declared new both _ ih =>
    obtain ⟨here, others⟩ := List.forall_mem_cons.mp each
    refine List.forall_mem_cons.mpr ⟨?_, ih others⟩
    obtain ⟨loc, nameLoc, wrapped, name, typing, initializer, rfl⟩ :=
      declaresName_iff.mp both.1
    rw [refill_declarator] at here
    cases here with
    | declarator bound inner =>
      obtain rfl := bound.unwrapped
      exact .declarator (both.2 bound) inner

/-- Parameters that fit still do so with types that suit them. -/
theorem fits_typeParam {params new : List Node}
    (pairs : Gloss.Pairs (fun _ => TypesBinders G') params new Gloss.bindsName Node.bound)
    (each : ∀ p ∈ params, Fits G' .param (refill types p)) :
    ∀ p ∈ List.zipWith Gloss.typeParam (params.map (refill types)) new, Fits G' .param p := by
  induction pairs with
  | nil => simp
  | @cons p type params new both _ ih =>
    obtain ⟨here, others⟩ := List.forall_mem_cons.mp each
    refine List.forall_mem_cons.mpr ⟨?_, ih others⟩
    rcases bindsName_iff.mp both.1 with ⟨loc, wrapped, name, typing, rfl⟩ |
      ⟨loc, nameLoc, wrapped, name, typing, value, rfl⟩
    · rw [refill_identifier] at here
      cases here with
      | param bound =>
        obtain rfl := bound.unwrapped
        exact .param (both.2 bound)
    · rw [refill_defaultParam, refill_identifier] at here
      cases here with
      | param bound => cases bound
      | defaultParam bound inner =>
        obtain rfl := bound.unwrapped
        exact .defaultParam (both.2 bound) inner

/-- A tree that fits one grammar fits another one with types that suit it. -/
theorem Fits.refill {p : Node → Prop} (suits : Suits G G' types p) {form : Form} {node : Node}
    (fits : Fits G form node) (every : node.Every p) : Fits G' form (refill types node) := by
  have mapped {form : Form} {nodes : List Node}
      (each : ∀ n ∈ nodes, Fits G' form (Gloss.refill types n)) :
      ∀ n ∈ nodes.map (Gloss.refill types), Fits G' form n := List.forall_mem_map.mpr each
  induction fits with
  | name isName => exact .name isName
  | number spelling => exact .number spelling
  | string spelling => exact .string spelling
  | template spelling => exact .template spelling
  | boolean => exact .boolean
  | null => exact .null
  | this => exact .this
  | array each ih =>
    rw [refill_of_other types rfl rfl]
    exact .array (mapped fun e mem => ih e mem (every.each e mem))
  | object opens each ih =>
    rw [refill_of_other types rfl rfl]
    exact .object opens (mapped fun e mem => ih e mem (every.each e mem))
  | function opens named each block typed ihEach ihBlock =>
    rw [refill_functionExpression]
    exact .function opens named.refill
      (mapped fun p mem => ihEach p mem (every.each p (by simp [Node.slots, mem])))
      (ihBlock (every.each _ (by simp [Node.slots])))
      (suits.resultSlot typed (every.each _ (by simp [Node.slots])))
  | call called each ih ihEach =>
    rw [refill_of_other types rfl rfl]
    exact .call (ih (every.each _ (by simp [Node.slots])))
      (mapped fun a mem => ihEach a mem (every.each a (by simp [Node.slots, mem])))
  | construction called each ih ihEach =>
    rw [refill_of_other types rfl rfl]
    exact .construction (ih (every.each _ (by simp [Node.slots])))
      (mapped fun a mem => ihEach a mem (every.each a (by simp [Node.slots, mem])))
  | member inner word ih => exact .member (ih (every.each _ (by simp [Node.slots]))) word
  | index inner selected ih ihSelected =>
    exact .index (ih (every.each _ (by simp [Node.slots])))
      (ihSelected (every.each _ (by simp [Node.slots])))
  | wrapped inner unwrapped ih =>
    rw [refill_wrap]
    exact .wrapped (ih (.mk (suits.wrap _ every.here) (by simpa using every.each)))
      ((isWrapped_refill types _).trans unwrapped)
  | updateBehind loose sign inner ih =>
    exact .updateBehind loose sign (ih (every.each _ (by simp [Node.slots])))
  | updateBefore loose sign inner ih =>
    exact .updateBefore loose sign (ih (every.each _ (by simp [Node.slots])))
  | unary loose sign inner ih =>
    exact .unary loose sign (ih (every.each _ (by simp [Node.slots])))
  | reservedUnary allowed loose word =>
    rcases suits.reserved allowed every.here (List.mem_singleton.mpr rfl) word with
      allowed | isName
    · exact .reservedUnary allowed loose word
    · exact .unary loose (by decide) (.name isName)
  | @binary _ _ _ loc sign left right level loose isSign first second ihFirst ihSecond =>
    have leftSlot : left ∈ (level.node loc sign left right).slots := by
      cases level <;> simp [Node.slots, Parse.Level.node]
    have rightSlot : right ∈ (level.node loc sign left right).slots := by
      cases level <;> simp [Node.slots, Parse.Level.node]
    rw [refill_level]
    exact .binary level loose isSign (ihFirst (every.each _ leftSlot))
      (ihSecond (every.each _ rightSlot))
  | @reservedRight _ _ _ left nameLoc _ allowed loose first word ih =>
    have first := ih (every.each _ (by simp [Node.slots, Parse.Level.node]))
    have operand : ∀ {name}, .identifier nameLoc false name .absent ∈
        [left, .identifier nameLoc false name .absent] := by simp
    rcases suits.reserved allowed every.here operand word with allowed | isName
    · exact .reservedRight allowed loose first word
    · exact .binary .relational loose (by decide) first (.name isName)
  | conditional loose condition first second ihCondition ihFirst ihSecond =>
    exact .conditional loose (ihCondition (every.each _ (by simp [Node.slots])))
      (ihFirst (every.each _ (by simp [Node.slots])))
      (ihSecond (every.each _ (by simp [Node.slots])))
  | assignment loose sign assigned inner ihAssigned ihInner =>
    exact .assignment loose sign (ihAssigned (every.each _ (by simp [Node.slots])))
      (ihInner (every.each _ (by simp [Node.slots])))
  | arrow loose each inner ihEach ihInner =>
    rw [refill_arrowFunction]
    exact .arrow loose
      (mapped fun p mem => ihEach p mem (every.each p (by simp [Node.slots, mem])))
      (ihInner (every.each _ (by simp [Node.slots])))
  | arrowBlock loose each block ihEach ihBlock =>
    rw [refill_arrowFunction]
    exact .arrowBlock loose
      (mapped fun p mem => ihEach p mem (every.each p (by simp [Node.slots, mem])))
      (ihBlock (every.each _ (by simp [Node.slots])))
  | sequence loose several leading each ih ihEach =>
    rw [refill_of_other types rfl rfl]
    exact .sequence loose (by simpa using several) (ih (every.each _ (by simp [Node.slots])))
      (mapped fun e mem => ihEach e mem (every.each e (by simp [Node.slots, mem])))
  | omitted => exact .omitted
  | given inner ih => exact .given (ih every)
  | calleeName isName => exact .calleeName isName
  | calleeMember inner word ih =>
    exact .calleeMember (ih (every.each _ (by simp [Node.slots]))) word
  | shorthand isName => exact .shorthand isName
  | property isKey inner ih =>
    exact .property isKey.refill (ih (every.each _ (by simp [Node.slots])))
  | param bound => exact .param (suits.binder bound every)
  | defaultParam bound inner ih =>
    exact .defaultParam (suits.binder bound (every.each _ (by simp [Node.slots])))
      (ih (every.each _ (by simp [Node.slots])))
  | declarator bound inner ih =>
    exact .declarator (suits.binder bound (every.each _ (by simp [Node.slots])))
      (ih (every.each _ (by simp [Node.slots])))
  | declaration word some each ih =>
    rw [refill_declaration]
    have pairs := suits.puts every.here
    refine .declaration word ?_
      (fits_typeDeclarator pairs fun d mem => ih d mem (every.each d mem))
    intro empty
    rcases List.zipWith_eq_nil_iff.mp empty with none | none
    · exact some (List.map_eq_nil_iff.mp none)
    · have length := List.Forall₂.length_eq pairs
      rw [none] at length
      exact some (List.length_eq_zero_iff.mp length)
  | declaredVariables inner ih => exact .declaredVariables (ih every)
  | declaredFunction named each block typed ihEach ihBlock =>
    rw [refill_function]
    obtain ⟨pairs, result⟩ := suits.puts every.here
    exact .declaredFunction named.refill
      (fits_typeParam pairs fun p mem =>
        ihEach p mem (every.each p (by simp [Node.slots, mem])))
      (ihBlock (every.each _ (by simp [Node.slots]))) result
  | noInitializer => exact .noInitializer
  | initializerVariables inner ih => exact .initializerVariables (ih every)
  | initializerExpression inner ih => exact .initializerExpression (ih every)
  | block each ih =>
    rw [refill_of_other types rfl rfl]
    exact .block (mapped fun s mem => ih s mem (every.each s mem))
  | declared inner ih => exact .declared (ih every)
  | interface allowed => exact .interface (suits.interface every allowed)
  | exportNamed inner ih => exact .exportNamed (ih (every.each _ (by simp [Node.slots])))
  | exportDefault inner ih => exact .exportDefault (ih (every.each _ (by simp [Node.slots])))
  | blockStatement inner ih => exact .blockStatement (ih every)
  | returned inner ih => exact .returned (ih (every.each _ (by simp [Node.slots])))
  | thrown inner ih => exact .thrown (ih (every.each _ (by simp [Node.slots])))
  | breakStatement => exact .breakStatement
  | continueStatement => exact .continueStatement
  | emptyStatement => exact .emptyStatement
  | expressionStatement inner ih =>
    exact .expressionStatement (ih (every.each _ (by simp [Node.slots])))
  | ifThen condition first ihCondition ihFirst =>
    exact .ifThen (ihCondition (every.each _ (by simp [Node.slots])))
      (ihFirst (every.each _ (by simp [Node.slots])))
  | ifElse condition first second ihCondition ihFirst ihSecond =>
    exact .ifElse (ihCondition (every.each _ (by simp [Node.slots])))
      (ihFirst (every.each _ (by simp [Node.slots])))
      (ihSecond (every.each _ (by simp [Node.slots])))
  | whileLoop condition inner ihCondition ihInner =>
    exact .whileLoop (ihCondition (every.each _ (by simp [Node.slots])))
      (ihInner (every.each _ (by simp [Node.slots])))
  | forLoop initial condition increment inner ihInitial ihCondition ihIncrement ihInner =>
    exact .forLoop (ihInitial (every.each _ (by simp [Node.slots])))
      (ihCondition (every.each _ (by simp [Node.slots])))
      (ihIncrement (every.each _ (by simp [Node.slots])))
      (ihInner (every.each _ (by simp [Node.slots])))
  | program each ih =>
    rw [refill_of_other types rfl rfl]
    exact .program (mapped fun s mem => ih s mem (every.each s mem))

end Grammar

end TypeGloss
