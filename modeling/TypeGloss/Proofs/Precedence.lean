import TypeGloss.Gloss.Annotate
import TypeGloss.Print.Node
import TypeGloss.Proofs.Parts
import TypeGloss.Proofs.SourceTokens

/-!
# Precedence in trees

The printer writes operators and branches down without a look at how tightly they bind, and puts
parentheses only where the source had them. This is right for trees whose expressions all bind at
least as tightly as their positions need, unless they are in parentheses, and in which no `else`
could be taken for one of an inner `if`. Every program that is read is such a tree.
-/

namespace TypeGloss

open Grammar (Fits levelSigns)

/-- The levels of expressions, from the loosest to the tightest. -/
inductive Tier where
  /-- Expressions with commas between them. -/
  | sequence
  /-- Assignments, conditionals and arrow functions. -/
  | assigned
  | orElse
  | andThen
  | equality
  | relational
  | additive
  | multiplicative
  /-- Operators in front of their operand. -/
  | unary
  /-- `++` and `--` behind their operand. -/
  | suffixed
  /-- Calls, members, literals, names, and all that may be called. -/
  | called
  deriving DecidableEq, Repr

namespace Tier

/-- The place of a tier in the order of tightness. -/
def rank : Tier → Nat
  | .sequence => 0
  | .assigned => 1
  | .orElse => 2
  | .andThen => 3
  | .equality => 4
  | .relational => 5
  | .additive => 6
  | .multiplicative => 7
  | .unary => 8
  | .suffixed => 9
  | .called => 10

/-- The tier of an expression with a binary operator, and of what may stand on its left. -/
def ofLevel : Parse.Level → Tier
  | .orElse => .orElse
  | .andThen => .andThen
  | .equality => .equality
  | .relational => .relational
  | .additive => .additive
  | .multiplicative => .multiplicative

/-- The tier that the right operand of a binary operator needs. -/
def rightOf : Parse.Level → Tier
  | .orElse => .andThen
  | .andThen => .equality
  | .equality => .relational
  | .relational => .additive
  | .additive => .multiplicative
  | .multiplicative => .unary

@[simp] theorem rank_ofLevel (level : Parse.Level) : (ofLevel level).rank = level.rank + 2 := by
  cases level <;> rfl

@[simp] theorem rank_rightOf (level : Parse.Level) : (rightOf level).rank = level.rank + 3 := by
  cases level <;> rfl

theorem rank_le (tier : Tier) : tier.rank ≤ 10 := by cases tier <;> decide

end Tier

namespace Node

/-- The level of an operator that computes a value from both operands. -/
def binaryLevel? (operator : Text) : Option Parse.Level :=
  [.multiplicative, .additive, .relational, .equality].find? fun level =>
    (levelSigns level).contains operator

/-- The level of an operator that may leave out its second operand. -/
def logicalLevel? (operator : Text) : Option Parse.Level :=
  [.andThen, .orElse].find? fun level => (levelSigns level).contains operator

/-- The tier of an expression, without the parentheses it may be in. -/
def tier? : Node → Option Tier
  | .identifier .. | .number .. | .string .. | .boolean .. | .null .. | .template .. | .this ..
  | .array .. | .object .. | .functionExpression .. | .call .. | .construction .. | .member .. =>
    some .called
  | .update _ _ _ leading _ => some (if leading then .unary else .suffixed)
  | .unary .. => some .unary
  | .binary _ _ operator _ _ => (binaryLevel? operator).map .ofLevel
  | .logical _ _ operator _ _ => (logicalLevel? operator).map .ofLevel
  | .assignment .. | .conditional .. | .arrowFunction .. => some .assigned
  | .sequence .. => some .sequence
  | _ => none

/-- Whether a node may stand where a tier is needed: it is an expression in parentheses, or of a
tier that is at least as tight. -/
def Fills (needed : Tier) (node : Node) : Prop :=
  ∃ tier, node.tier? = some tier ∧ (node.isWrapped = true ∨ needed.rank ≤ tier.rank)

/-- A position that may be empty. -/
def present (needed : Tier) (node : Node) : List (Tier × Node) :=
  if node.isAbsent then [] else [(needed, node)]

/-- Both sides of a binary operator with the tiers they need. -/
def sides (level : Option Parse.Level) (left right : Node) : List (Tier × Node) :=
  level.elim [] fun level => [(.ofLevel level, left), (.rightOf level, right)]

/-- The expressions directly inside a node, each with the tier that its position needs. -/
def positions : Node → List (Tier × Node)
  | .array _ _ elements => elements.flatMap (present .assigned)
  | .property _ _ value _ => [(.assigned, value)]
  | .defaultParam _ _ value => [(.assigned, value)]
  | .arrowFunction _ _ _ body => if Print.isBlock body then [] else [(.assigned, body)]
  | .unary _ _ _ argument => [(.unary, argument)]
  | .update _ _ _ leading argument => [(if leading then .unary else .called, argument)]
  | .binary _ _ operator left right => sides (binaryLevel? operator) left right
  | .logical _ _ operator left right => sides (logicalLevel? operator) left right
  | .assignment _ _ _ left right => [(.called, left), (.assigned, right)]
  | .conditional _ _ test consequent alternate =>
    [(.orElse, test), (.assigned, consequent), (.assigned, alternate)]
  | .call _ _ callee arguments | .construction _ _ callee arguments =>
    (.called, callee) :: arguments.map ((.assigned, ·))
  | .member _ _ value selector computed =>
    (.called, value) :: if computed then [(.sequence, selector)] else []
  | .sequence _ _ expressions => expressions.map ((.assigned, ·))
  | .declarator _ _ initializer => present .assigned initializer
  | .returnStatement _ argument => present .sequence argument
  | .throwStatement _ argument => [(.sequence, argument)]
  | .expressionStatement _ expression => [(.sequence, expression)]
  | .ifStatement _ test _ _ => [(.sequence, test)]
  | .whileStatement _ test _ => [(.sequence, test)]
  | .forStatement _ initializer test step _ =>
    (if Gloss.isDeclaration initializer then [] else present .sequence initializer) ++
      present .sequence test ++ present .sequence step
  | _ => []

/-- Whether a statement ends in an `if` without `else`, which an `else` behind it would join. -/
def endsOpen : Node → Bool
  | .ifStatement _ _ _ alternate => alternate.isAbsent || endsOpen alternate
  | .whileStatement _ _ body => endsOpen body
  | .forStatement _ _ _ _ body => endsOpen body
  | _ => false

/-- Whether the `else` of a node would be taken for one of an inner `if`. -/
def misplacesElse : Node → Bool
  | .ifStatement _ _ consequent alternate => !alternate.isAbsent && endsOpen consequent
  | _ => false

/-- Whether the printer puts something in parentheses that the source did not. -/
def addsParens : Node → Bool
  | .expressionStatement _ expression => Print.startsAmbiguously expression
  | .arrowFunction _ _ _ body => Print.isBareObject body
  | _ => false

/-- A node that can be printed as it is. -/
structure BindsTightly (node : Node) : Prop where
  positions : ∀ position ∈ node.positions, position.2.Fills position.1
  branches : node.misplacesElse = false
  parens : node.addsParens = false

theorem binaryLevel?_eq {level : Parse.Level} {operator : Text}
    (sign : operator ∈ levelSigns level)
    (binary : level ∈ [Parse.Level.multiplicative, .additive, .relational, .equality]) :
    binaryLevel? operator = some level := by
  have all : ∀ level ∈ [Parse.Level.multiplicative, .additive, .relational, .equality],
      ∀ sign ∈ levelSigns level, binaryLevel? sign = some level := by decide +kernel
  exact all level binary operator sign

theorem logicalLevel?_eq {level : Parse.Level} {operator : Text}
    (sign : operator ∈ levelSigns level) (logical : level ∈ [Parse.Level.andThen, .orElse]) :
    logicalLevel? operator = some level := by
  have all : ∀ level ∈ [Parse.Level.andThen, .orElse],
      ∀ sign ∈ levelSigns level, logicalLevel? sign = some level := by decide
  exact all level logical operator sign

/-- The tier of an expression with a binary operator, and what its operands need. -/
theorem level_node (level : Parse.Level) {loc : Location} {operator : Text} {left right : Node}
    (sign : operator ∈ levelSigns level) :
    (level.node loc operator left right).tier? = some (.ofLevel level) ∧
      (level.node loc operator left right).positions =
        [(.ofLevel level, left), (.rightOf level, right)] := by
  cases level with
  | orElse | andThen =>
    have known := logicalLevel?_eq sign (by simp)
    simp [Parse.Level.node, tier?, positions, sides, known]
  | equality | relational | additive | multiplicative =>
    have known := binaryLevel?_eq sign (by simp)
    simp [Parse.Level.node, tier?, positions, sides, known]

@[simp] theorem tier?_wrap (node : Node) : node.wrap.tier? = node.tier? := by
  cases node <;> rfl

@[simp] theorem positions_wrap (node : Node) : node.wrap.positions = node.positions := by
  cases node <;> rfl

theorem isWrapped_wrap {node : Node} (isExpression : node.tier?.isSome = true) :
    node.wrap.isWrapped = true := by
  cases node <;> first | rfl | cases isExpression

theorem mem_present {needed : Tier} {node : Node} {position : Tier × Node}
    (mem : position ∈ present needed node) : node.isAbsent = false ∧ position = (needed, node) := by
  unfold present at mem
  split at mem
  · cases mem
  · rename_i isPresent
    exact ⟨by simpa using isPresent, List.mem_singleton.mp mem⟩

end Node

namespace Grammar.Fits

open Node (Fills BindsTightly)

variable {R : Prop} {form : Grammar.Form} {node : Node}

/-- What stands in a slot for expressions is an expression. -/
theorem isExpression (fits : Fits (.source R) form node) :
    ∀ {ℓ o t}, form = .expression ℓ o t → node.tier?.isSome = true := by
  induction fits with
  | wrapped inner unwrapped ih =>
    intros
    rw [Node.tier?_wrap]
    exact ih rfl
  | binary level loose sign =>
    intros
    rw [(Node.level_node level sign).1]
    rfl
  | _ => intros; first | rfl | contradiction

/-- An expression fills every position that asks for at most the tightness it fits. -/
theorem fills {ℓ : Nat} {o : Grammar.Opening} {t : Bool}
    (fits : Fits (.source R) (.expression ℓ o t) node) {needed : Tier} (asked : needed.rank ≤ ℓ) :
    node.Fills needed := by
  cases fits with
  | @wrapped _ _ _ e inner =>
    have isExpression := inner.isExpression rfl
    obtain ⟨tier, own⟩ := Option.isSome_iff_exists.mp isExpression
    exact ⟨tier, e.tier?_wrap ▸ own, .inl (Node.isWrapped_wrap isExpression)⟩
  | reservedUnary _ loose => exact ⟨_, rfl, .inr (asked.trans loose)⟩
  | binary level loose sign =>
    exact ⟨_, (Node.level_node level sign).1, .inr (by simpa using asked.trans loose)⟩
  | reservedRight _ loose => exact ⟨.relational, rfl, .inr (asked.trans loose)⟩
  | updateBehind loose | updateBefore loose | unary loose | conditional loose | assignment loose
  | arrow loose | arrowBlock loose => exact ⟨_, rfl, .inr (asked.trans loose)⟩
  | sequence loose =>
    subst loose
    exact ⟨_, rfl, .inr asked⟩
  | _ => exact ⟨.called, rfl, .inr needed.rank_le⟩

/-- An expression that may be left out fills its position if it is there. -/
theorem fills_present {ℓ : Nat} {o : Grammar.Opening} (fits : Fits (.source R) (.optional ℓ o) node)
    {needed : Tier} (asked : needed.rank ≤ ℓ) :
    ∀ position ∈ Node.present needed node, position.2.Fills position.1 := by
  intro position mem
  obtain ⟨isPresent, rfl⟩ := Node.mem_present mem
  cases fits with
  | omitted => cases isPresent
  | given inner => exact inner.fills asked

/-- What is constructed may also be called. -/
theorem fills_callee (fits : Fits (.source R) .callee node) : node.Fills .called := by
  cases fits <;> exact ⟨_, rfl, .inr (Nat.le_refl _)⟩

/-- A statement that is closed does not end in an open `if`. -/
theorem endsOpen_eq_false (fits : Fits (.source R) form node) :
    form = .statement true → node.endsOpen = false := by
  induction fits with
  | declared inner =>
    intro
    cases inner with
    | declaredVariables inner => cases inner; rfl
    | declaredFunction => rfl
  | interface allowed => intro; cases allowed; rfl
  | blockStatement inner => intro; cases inner; rfl
  | ifThen => rintro ⟨⟩
  | ifElse condition first second _ _ ih =>
    rintro ⟨⟩
    rw [Node.endsOpen, Parse.isAbsent_of_fits second rfl, ih rfl]
    rfl
  | whileLoop condition inner _ ih => rintro ⟨⟩; exact ih rfl
  | forLoop initial condition increment inner _ _ _ ih => rintro ⟨⟩; exact ih rfl
  | _ => intro; first | rfl | contradiction

/-- No expression statement starts with the brace of an object or with a function. -/
theorem startsAmbiguously_eq_false {ℓ : Nat} {t : Bool}
    (fits : Fits (.source R) (.expression ℓ .noObjectOrFunction t) node) :
    Print.startsAmbiguously node = false := by
  cases fits with
  | object opens | function opens => cases opens
  | @wrapped _ _ _ e => cases e <;> rfl
  | binary level => cases level <;> rfl
  | _ => rfl

/-- The body of an arrow function is no object, unless it is in parentheses. -/
theorem isBareObject_eq_false {ℓ : Nat} {t : Bool}
    (fits : Fits (.source R) (.expression ℓ .noObject t) node) :
    Print.isBareObject node = false := by
  cases fits with
  | object opens => cases opens
  | @wrapped _ _ _ e => cases e <;> rfl
  | binary level => cases level <;> rfl
  | _ => rfl

/-- Every node of a tree that is read can be printed as it is. -/
theorem bindsTightly (fits : Fits (.source R) form node) : node.BindsTightly := by
  induction fits with
  | array each =>
    refine ⟨fun position mem => ?_, rfl, rfl⟩
    obtain ⟨e, inside, mem⟩ := List.mem_flatMap.mp mem
    exact (each e inside).fills_present le_rfl position mem
  | call called each =>
    refine ⟨List.forall_mem_cons.mpr ⟨called.fills le_rfl, ?_⟩, rfl, rfl⟩
    exact List.forall_mem_map.mpr fun a mem => (each a mem).fills le_rfl
  | construction called each =>
    refine ⟨List.forall_mem_cons.mpr ⟨called.fills_callee, ?_⟩, rfl, rfl⟩
    exact List.forall_mem_map.mpr fun a mem => (each a mem).fills le_rfl
  | member inner =>
    exact ⟨List.forall_mem_singleton.mpr (inner.fills le_rfl), rfl, rfl⟩
  | index inner selected =>
    refine ⟨List.forall_mem_cons.mpr ⟨inner.fills le_rfl, ?_⟩, rfl, rfl⟩
    exact List.forall_mem_singleton.mpr (selected.fills le_rfl)
  | @wrapped _ _ _ e inner unwrapped ih =>
    refine ⟨e.positions_wrap ▸ ih.positions, ?_, ?_⟩
    · cases e <;> exact ih.branches
    · cases e <;> exact ih.parens
  | updateBehind _ _ inner | updateBefore _ _ inner | unary _ _ inner =>
    exact ⟨List.forall_mem_singleton.mpr (inner.fills le_rfl), rfl, rfl⟩
  | reservedUnary =>
    exact ⟨List.forall_mem_singleton.mpr ⟨.called, rfl, .inr (Tier.rank_le _)⟩, rfl, rfl⟩
  | binary level _ sign first second =>
    refine ⟨?_, by cases level <;> rfl, by cases level <;> rfl⟩
    rw [(Node.level_node level sign).2]
    exact List.forall_mem_cons.mpr ⟨first.fills (by simp),
      List.forall_mem_singleton.mpr (second.fills (by simp))⟩
  | reservedRight _ _ first =>
    refine ⟨?_, rfl, rfl⟩
    rw [(Node.level_node .relational (by decide)).2]
    exact List.forall_mem_cons.mpr ⟨first.fills le_rfl,
      List.forall_mem_singleton.mpr ⟨.called, rfl, .inr (Tier.rank_le _)⟩⟩
  | conditional _ condition first second =>
    refine ⟨List.forall_mem_cons.mpr ⟨condition.fills le_rfl, ?_⟩, rfl, rfl⟩
    exact List.forall_mem_cons.mpr ⟨first.fills le_rfl,
      List.forall_mem_singleton.mpr (second.fills le_rfl)⟩
  | assignment _ _ assigned inner =>
    exact ⟨List.forall_mem_cons.mpr ⟨assigned.fills le_rfl,
      List.forall_mem_singleton.mpr (inner.fills le_rfl)⟩, rfl, rfl⟩
  | @arrow _ _ _ _ _ body _ _ inner =>
    refine ⟨fun position mem => ?_, rfl, inner.isBareObject_eq_false⟩
    rw [Node.positions] at mem
    split at mem
    · cases mem
    · obtain rfl := List.mem_singleton.mp mem
      exact inner.fills le_rfl
  | arrowBlock _ _ block =>
    cases block
    exact ⟨nofun, rfl, rfl⟩
  | sequence _ _ leading each =>
    refine ⟨List.forall_mem_map.mpr (List.forall_mem_cons.mpr ⟨leading.fills le_rfl, ?_⟩),
      rfl, rfl⟩
    exact fun e mem => (each e mem).fills le_rfl
  | calleeMember inner =>
    exact ⟨List.forall_mem_singleton.mpr inner.fills_callee, rfl, rfl⟩
  | shorthand =>
    exact ⟨List.forall_mem_singleton.mpr ⟨.called, rfl, .inr (Tier.rank_le _)⟩, rfl, rfl⟩
  | property _ inner | defaultParam _ inner =>
    exact ⟨List.forall_mem_singleton.mpr (inner.fills le_rfl), rfl, rfl⟩
  | declarator _ inner => exact ⟨inner.fills_present le_rfl, rfl, rfl⟩
  | returned inner => exact ⟨inner.fills_present le_rfl, rfl, rfl⟩
  | expressionStatement inner =>
    exact ⟨List.forall_mem_singleton.mpr (inner.fills le_rfl), rfl,
      inner.startsAmbiguously_eq_false⟩
  | ifElse condition first =>
    refine ⟨List.forall_mem_singleton.mpr (condition.fills le_rfl), ?_, rfl⟩
    rw [Node.misplacesElse, first.endsOpen_eq_false rfl, Bool.and_false]
  | thrown inner | ifThen inner | whileLoop inner =>
    exact ⟨List.forall_mem_singleton.mpr (inner.fills le_rfl), rfl, rfl⟩
  | forLoop initial condition increment =>
    refine ⟨List.forall_mem_append.mpr ⟨List.forall_mem_append.mpr ⟨?_,
      condition.fills_present le_rfl⟩, increment.fills_present le_rfl⟩, rfl, rfl⟩
    cases initial with
    | noInitializer => nofun
    | initializerVariables inner => cases inner; nofun
    | initializerExpression inner =>
      intro position mem
      split at mem
      · cases mem
      · exact fills_present (.given inner) le_rfl position mem
  | given _ ih | declaredVariables _ ih | initializerVariables _ ih | initializerExpression _ ih
  | declared _ ih | blockStatement _ ih => exact ih
  | param bound => cases bound <;> exact ⟨nofun, rfl, rfl⟩
  | interface allowed => cases allowed; exact ⟨nofun, rfl, rfl⟩
  | _ => exact ⟨nofun, rfl, rfl⟩

/-- Type syntax holds no expressions. -/
theorem bindsTightly_of_isTypePart {node : Node} (part : Grammar.isTypePart node = true) :
    node.BindsTightly := by
  have none : node.positions = [] ∧ node.misplacesElse = false ∧ node.addsParens = false := by
    cases node <;> first | exact ⟨rfl, rfl, rfl⟩ | cases part
  exact ⟨by simp [none.1], none.2.1, none.2.2⟩

/-- A tree that is read can be printed as it is, throughout. -/
theorem every_bindsTightly (fits : Fits (.source R) form node) : node.Every BindsTightly := by
  refine fits.every (.of_isTypePart (fun _ => bindsTightly_of_isTypePart) ?_) bindsTightly
  rintro _ (_ | _ | _) <;> exact ⟨nofun, rfl, rfl⟩

end Grammar.Fits

namespace Source

/-- Every program that is read can be printed without further parentheses. At each of its nodes the
expressions directly inside are in parentheses or bind at least as tightly as their positions need;
no `else` stands behind a statement that ends in an `if` without one; and no expression statement
and no body of an arrow function starts in a way that calls for parentheses. -/
theorem read_bindsTightly (dialect : Dialect) (source : Text) {program : Node}
    (read : Source.read dialect source = .ok program) :
    ∀ node ∈ program.walk, node.BindsTightly := by
  obtain ⟨ts, reads⟩ := reads_of_read read
  exact Node.walk_of_every reads.fits.every_bindsTightly

/-- Operators of several tiers, with and without parentheses, and an `else` behind an inner `if`. -/
theorem read_bindsTightly_branches :
    ∃ program, Source.read .typescript "if(a)while(b)if(c)d=-e*(f+g)||h;else(i,j)()" = .ok program ∧
      ∀ node ∈ program.walk, node.BindsTightly := by
  obtain ⟨program, read⟩ : ∃ program, Source.read .typescript
      "if(a)while(b)if(c)d=-e*(f+g)||h;else(i,j)()" = .ok program := ⟨_, rfl⟩
  exact ⟨program, read, read_bindsTightly .typescript _ read⟩

end Source

end TypeGloss
