import TypeGloss.Proofs.Facts
import TypeGloss.Proofs.Fingerprint

/-!
# What the fact about a function means

The facts about functions are described by what stands in their bodies. A parameter is a number if
its name is an operand of a sum anywhere in the body, and the result is the shape of the last value
that the body returns. Nested functions count as part of the body.
-/

namespace TypeGloss

namespace Node

/-- Whether a node is an identifier with a name. -/
def isNamed (name : Text) : Node → Bool
  | .identifier _ _ other _ => other = name
  | _ => false

/-- Whether a node is a sum with a name as one of its operands. -/
def adds (name : Text) : Node → Bool
  | .binary _ _ operator left right =>
    operator = plusSign && (left.isNamed name || right.isNamed name)
  | _ => false

theorem operand?_eq_some_iff (node : Node) (name : Text) :
    summands.operand? node = some name ↔ node.isNamed name = true := by
  cases node <;> simp [summands.operand?, isNamed]

/-- The names that a node adds are those that stand as operands of its `+`. -/
theorem mem_summands_iff (node : Node) (name : Text) :
    name ∈ node.summands ↔ node.adds name = true := by
  cases node with
  | binary loc wrapped operator left right =>
    by_cases plus : operator = plusSign
    · rw [summands, if_pos plus, adds]
      simp [plus, operand?_eq_some_iff]
    · simp [summands, adds, plus]
  | _ => simp [summands, adds]

end Node

namespace Table

variable {Key α : Type} [DecidableEq Key]

/-- A table that gives all its keys one value. -/
theorem get?_map_const {keys : List Key} {value found : α} {wanted : Key} :
    Table.get? (keys.map (·, value)) wanted = some found ↔ wanted ∈ keys ∧ value = found := by
  induction keys with
  | nil => simp [get?]
  | cons key rest ih =>
    by_cases same : key = wanted
    · simp [get?, same]
    · simp [get?, same, Ne.symm same, ih]

theorem get?_ofPairs_map_const {keys : List Key} {value found : α} {wanted : Key} :
    (ofPairs (keys.map (·, value))).get? wanted = some found ↔ wanted ∈ keys ∧ value = found := by
  induction keys using List.reverseRecOn with
  | nil => simp [ofPairs, get?]
  | append_singleton keys last ih =>
    rw [ofPairs, List.map_append, List.map_singleton, List.foldl_concat, get?_insert, ← ofPairs]
    by_cases same : last = wanted
    · simp [same]
    · simp [same, Ne.symm same, ih]

end Table

namespace Facts

open Inference (plain)
open Inference.Request (serveAll)

/-- Whether a name is an operand of a sum anywhere in a body. -/
def isAdded (body : Node) (name : Text) : Bool := body.preorder.any (·.adds name)

/-- What is known of the parameters of a function: those that its body adds are numbers. -/
def numbers (names : List Text) (body : Node) : Context :=
  (names.filter (isAdded body)).map (·, .number)

/-- The shape that a body returns: that of its last value, however much was inferred before, or that
of no value. -/
inductive Returns (context : Context) (body : Node) : Shape → Prop
  | nothing (bare : ∀ loc argument, .returnStatement loc argument ∈ body.preorder →
      argument.isAbsent = true) : Returns context body .void
  | last {before after : List Node} {loc : Location} {argument : Node} {shape : Shape}
      (order : body.preorder = before ++ .returnStatement loc argument :: after)
      (value : argument.isAbsent = false)
      (bare : ∀ loc argument, .returnStatement loc argument ∈ after → argument.isAbsent = true)
      (infers : ∀ history,
        (Inference.typeOf context argument (serveAll history .empty).2).1 = shape) :
      Returns context body shape

/-- A fact that says of a function declaration what it means. -/
inductive Means : Node → FunctionFact → Prop
  | mk {loc : Location} {name : Node} {params : List Node} {body type : Node} {result : Shape}
      (returns : Returns (numbers (params.map (·.bound.name)) body) body result) :
      Means (.functionDeclaration loc name params body type)
        { name := name.functionName
          params := params.map fun param =>
            (param.bound.name, if isAdded body param.bound.name then .number else .any)
          result }

section Body

variable (names : List Text) (body : Node)

theorem mem_summands_walk_iff (name : Text) :
    name ∈ body.walk.flatMap Node.summands ↔ isAdded body name = true := by
  simp only [isAdded, Node.walk_eq_preorder, List.mem_flatMap, Node.mem_summands_iff,
    List.any_eq_true]

/-- The names with a hint are the parameters that the body adds. -/
theorem get?_hints (name : Text) :
    (hints names body).get? name = (numbers names body).get? name := by
  ext shape
  rw [hints, numbers, Table.get?_ofPairs_map_const, Table.get?_map_const, List.mem_filter,
    List.mem_filter, mem_summands_walk_iff, List.contains_iff_mem, and_comm (a := name ∈ names)]

theorem hint_eq {name : Text} (mem : name ∈ names) :
    ((hints names body).get? name).getD .any = if isAdded body name then .number else .any := by
  rw [get?_hints]
  cases found : (numbers names body).get? name with
  | some shape =>
    obtain ⟨isNumber, rfl⟩ := Table.get?_map_const.mp found
    rw [if_pos (List.mem_filter.mp isNumber).2, Option.getD_some]
  | none =>
    have other : ¬ isAdded body name = true := fun added =>
      absurd (Table.get?_map_const.mpr ⟨List.mem_filter.mpr ⟨mem, added⟩, rfl⟩)
        (by rw [← numbers, found]; exact nofun)
    rw [if_neg other, Option.getD_none]

theorem returned?_eq_none_iff {nodes : List Node} :
    (∀ node ∈ nodes, node.returned? = none) ↔
      ∀ loc argument, .returnStatement loc argument ∈ nodes → argument.isAbsent = true := by
  constructor
  · intro none loc argument mem
    simpa [Node.returned?] using none _ mem
  · intro bare node mem
    cases node with
    | returnStatement loc argument => simp [Node.returned?, bare loc argument mem]
    | _ => rfl

theorem returned?_eq_some {node argument : Node} (some : node.returned? = some argument) :
    argument.isAbsent = false ∧ ∃ loc, node = .returnStatement loc argument := by
  cases node with
  | returnStatement loc returned =>
    by_cases absent : returned.isAbsent = true <;> simp [Node.returned?, absent] at some
    subst some
    exact ⟨by simpa using absent, loc, rfl⟩
  | _ => cases some

/-- The result of a function is what its body returns. -/
theorem returns_plainResult :
    Returns (numbers names body) body (plainResult (hints names body) body) := by
  rw [plainResult, Node.walk_eq_preorder]
  cases last : (body.preorder.filterMap Node.returned?).getLast? with
  | none =>
    rw [List.getLast?_eq_none_iff, List.filterMap_eq_nil_iff, returned?_eq_none_iff] at last
    exact .nothing last
  | some argument =>
    obtain ⟨others, valuesEq⟩ := List.getLast?_eq_some_iff.mp last
    obtain ⟨front, back, order, -, backEq⟩ := List.filterMap_eq_append_iff.mp valuesEq
    obtain ⟨middle, node, after, rfl, -, isLast, noMore⟩ := List.filterMap_eq_cons_iff.mp backEq
    obtain ⟨value, loc, rfl⟩ := returned?_eq_some isLast
    rw [List.filterMap_eq_nil_iff, returned?_eq_none_iff] at noMore
    rw [← List.append_assoc] at order
    refine .last order value noMore fun history => ?_
    have sound := (Inference.Request.serveAll_sound history Cache.sound_empty).2
    rw [(Inference.typeOf_gives _ argument sound).shape_eq]
    exact (Node.Keeps.id.plain_map (get?_hints names body) argument).symm

end Body

/-- The fact about a function declaration says what the declaration means. -/
theorem means_functionFact {node : Node} (isFunction : Gloss.isFunction node = true) :
    Means node (functionFact node) := by
  cases node with
  | functionDeclaration loc name params body type =>
    have paramsEq : (functionFact (.functionDeclaration loc name params body type)).params =
        params.map fun param =>
          (param.bound.name, if isAdded body param.bound.name then .number else .any) := by
      rw [functionFact, List.map_map]
      refine List.map_congr_left fun param mem => ?_
      rw [Function.comp_apply, hint_eq _ _ (List.mem_map_of_mem mem)]
    have means : Means (.functionDeclaration loc name params body type) _ :=
      .mk (returns_plainResult (params.map (·.bound.name)) body)
    rwa [← paramsEq] at means
  | _ => cases isFunction

/-- The record of a program has one fact for each function declaration, in pre-order. It names the
function; it makes numbers of the parameters that the body of the function adds; and its result is
the shape of the last value that the body returns, inferred with these hints. -/
theorem functions_mean (history : List Inference.Request) (program : Node) :
    List.Forall₂ Means (program.preorder.filter Gloss.isFunction)
      (collect program (serveAll history .empty).2).1.functions := by
  have sound := (Inference.Request.serveAll_sound history Cache.sound_empty).2
  rw [(collect_lists program sound).functions, Node.walk_eq_preorder,
    List.forall₂_map_right_iff, List.forall₂_same]
  intro node mem
  exact means_functionFact (List.mem_filter.mp mem).2

end Facts

end TypeGloss
