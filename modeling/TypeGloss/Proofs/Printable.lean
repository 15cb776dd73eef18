import TypeGloss.Print.Placement
import TypeGloss.Proofs.Gloss

/-!
# Trees that fit can be printed

A node that fits a slot of the grammar can stand in the place from which the slot is printed. Since
trees that were read or annotated leave out nothing, this is all that printing asks for.
-/

namespace TypeGloss

open Grammar (Fits Form Opening Binder NameSlot ResultSlot Key TypeTree TypeSlot InterfaceTree)

namespace Print

/-- What is wrong with a complete node in each place. -/
def placed (node : Node) : Placement := node.fold (Placement.ofSlots .none)

theorem placed_eq (node : Node) :
    placed node = Placement.ofSlots .none node (node.slots.map placed) := Node.fold_eq _ node

namespace Placement

@[simp] theorem first_nil : first [] = none := rfl

@[simp] theorem first_cons_eq_none {fault : Option Unprintable}
    {faults : List (Option Unprintable)} :
    first (fault :: faults) = none ↔ fault = none ∧ first faults = none := by
  cases fault <;> simp [first]

@[simp] theorem first_append_eq_none {faults others : List (Option Unprintable)} :
    first (faults ++ others) = none ↔ first faults = none ∧ first others = none := by
  simp [first, List.findSome?_append]

@[simp] theorem text_false (use : TextUse) : text use false = none := rfl

@[simp] theorem text_none (use : TextUse) : text use Gap.none.text = none := rfl

@[simp] theorem list_none : list .none = none := rfl

end Placement

open Placement

@[simp] theorem isEmpty_placed (node : Node) : (placed node).isEmpty = node.isAbsent := by
  rw [placed_eq]
  cases node with
  | forStatement loc initializer => cases initializer <;> rfl
  | _ => rfl

/-- A complete node has its text. -/
@[simp] theorem lacksText_placed (node : Node) : (placed node).lacksText = false := by
  induction node using Node.slots_induction with
  | node node ih =>
    rw [placed_eq]
    cases node with
    | forStatement loc initializer => cases initializer <;> rfl
    | property loc key value shorthand =>
      have value := ih value (by simp [Node.slots])
      simp [Node.slots, ofSlots, withoutText, value]
    | _ => rfl

theorem first_placed {fault : Placement → Option Unprintable} {nodes : List Node}
    (each : ∀ node ∈ nodes, fault (placed node) = none) :
    first ((nodes.map placed).map fault) = none := by
  induction nodes with
  | nil => rfl
  | cons node rest ih => simpa using ⟨each node List.mem_cons_self,
      by simpa using ih fun node mem => each node (List.mem_cons_of_mem _ mem)⟩

/-- Items of a list have no fault if each has none. -/
theorem items_placed {fault : Placement → Option Unprintable} {nodes : List Node}
    (each : ∀ node ∈ nodes, fault (placed node) = none) :
    items fault (nodes.map placed) = none := by
  have noGap : (nodes.map placed).findIdx? lacksText = none := by
    simp [List.findIdx?_eq_none_iff]
  rw [items, first_append_eq_none, noGap]
  exact ⟨first_placed each, rfl⟩

/-- What a node of a form can do where it is printed. -/
def Printable : Form → Node → Prop
  | .expression _ _ _, node | .callee, node => (placed node).asExpression = none
  | .optional _ _, node => (placed node).orEmpty asExpression = none
  | .property, node => (placed node).inPlace .property = none
  | .param, node => (placed node).inPlace .param = none
  | .declarator, node => (placed node).inPlace .declarator = none
  | .declaration, node => Gloss.isDeclaration node = true ∧ (placed node).asStatement = none
  | .declared, node => (placed node).asStatement = none
  | .initializer, node =>
    if Gloss.isDeclaration node then (placed node).asStatement = none
    else (placed node).orEmpty asExpression = none
  | .block, node =>
    isBlock node = true ∧ (placed node).asStatement = none ∧ (placed node).inPlace .body = none
  | .statement _, node => (placed node).asStatement = none
  | .program, node => (placed node).inPlace .program = none

/-- What type syntax can do where it is printed. -/
def PrintableType : TypeSlot → Node → Prop
  | .type, node => (placed node).asType = none
  | .signature, node => (placed node).inPlace .member = none
  | .binding, node => (placed node).inPlace .binding = none

variable {W : Text → Prop} {K : MemberKey → Prop} {R : Prop}

/-- Type syntax can be printed. -/
theorem printable_type {slot : TypeSlot} {node : Node} (tree : TypeTree W K slot node) :
    PrintableType slot node := by
  induction tree with
  | word =>
    rw [PrintableType, placed_eq]
    rfl
  | @reference loc name arguments isName each ih =>
    rw [PrintableType, placed_eq]
    exact items_placed ih
  | @union loc members some each ih =>
    rw [PrintableType, placed_eq]
    change first [list .none, items asType (members.map placed)] = none
    simp [items_placed ih]
  | @array loc element inner ih =>
    rw [PrintableType, placed_eq]
    change first [(placed element).asType, text .front (placed element).lacksText] = none
    simpa [PrintableType] using ih
  | @literal loc members each ih =>
    rw [PrintableType, placed_eq]
    exact first_placed ih
  | @function loc params result each inner ihEach ih =>
    rw [PrintableType, placed_eq]
    change first (list .none :: ((params ++ [result]).map placed).dropLast.map (inPlace .binding) ++
      ((params ++ [result]).map placed).getLast?.toList.map asType) = none
    simpa using ⟨by simpa using first_placed ihEach, ih⟩
  | @signature loc key type optional isKey inner ih =>
    rw [PrintableType, placed_eq]
    change first [text .key Gap.none.text, (placed type).asType] = none
    simpa [PrintableType] using ih
  | @binding loc name type isName inner ih =>
    rw [PrintableType, placed_eq]
    change first [(placed type).orEmpty asType, text .front Gap.none.text] = none
    simpa [orEmpty] using fun _ => show (placed type).asType = none from ih

theorem operatorFault_placed {operator : Text} (some : operator ≠ []) (left right : Node) :
    operatorFault .none operator (placed left) (placed right) = none := by
  obtain ⟨c, rest, rfl⟩ := List.exists_cons_of_ne_nil some
  have last : (c :: rest).getLast? = .some ((c :: rest).getLast (by simp)) :=
    List.getLast?_eq_getLast_of_ne_nil (by simp)
  rw [operatorFault, if_neg (by decide), last]
  split
  · rfl
  · simp

theorem operation_placed {operator : Text} {left right : Node} (some : operator ≠ [])
    (first : (placed left).asExpression = none) (second : (placed right).asExpression = none) :
    operation .none operator ([left, right].map placed) = none := by
  change Placement.first [_, _, _] = none
  simp [first, second, operatorFault_placed some]

/-- A name can be printed with its type. -/
theorem printable_binder {node : Node} (bound : Binder (.withTypes W K R) node) :
    (placed node).inPlace .binding = none ∧ (placed node).inPlace .param = none := by
  have typed {loc : Location} {name : Text} {type : Node}
      (printable : (placed type).orEmpty asType = none) :
      (placed (.identifier loc false name type)).inPlace .binding = none ∧
        (placed (.identifier loc false name type)).inPlace .param = none := by
    rw [placed_eq]
    change first [(placed type).orEmpty asType, text .front Gap.none.text] = none ∧
      first [(placed type).orEmpty asType, text .front Gap.none.text] = none
    simp [printable]
  cases bound with
  | plain => exact typed rfl
  | typed annotated =>
    have printable : (placed _).asType = none := printable_type annotated.2
    exact typed (by simp [orEmpty, printable])

theorem printable_name {node : Node} (named : NameSlot node) :
    (placed node).orEmpty (inPlace .name) = none := by
  cases named with
  | none => rfl
  | some =>
    rw [placed_eq]
    rfl

theorem printable_result {node : Node} (slot : ResultSlot (.withTypes W K R) node) :
    (placed node).orEmpty asType = none := by
  cases slot with
  | none => rfl
  | some result =>
    have printable : (placed node).asType = none := printable_type result
    simp [orEmpty, printable]

theorem function_placed {name body result : Node} {params : List Node}
    (named : (placed name).orEmpty (inPlace .name) = none)
    (each : ∀ p ∈ params, (placed p).inPlace .param = none)
    (block : (placed body).inPlace .body = none) (typed : (placed result).orEmpty asType = none) :
    function .none ((name :: params ++ [body, result]).map placed) = none := by
  have reversed : (params.map placed ++ [placed body, placed result]).reverse =
      placed result :: placed body :: (params.map placed).reverse := by simp
  simp only [List.cons_append, List.map_cons, List.map_append, List.map_nil, function, reversed,
    List.reverse_reverse]
  simpa using ⟨named, by simpa using first_placed each, typed, block⟩

theorem asExpression_wrap (node : Node) :
    (placed node.wrap).asExpression = (placed node).asExpression := by
  rw [placed_eq, placed_eq]
  cases node with
  | forStatement loc initializer => cases initializer <;> rfl
  | _ => rfl

@[simp] theorem asExpression_identifier (loc : Location) (wrapped : Bool) (name : Text)
    (typing : Node) : (placed (.identifier loc wrapped name typing)).asExpression = none := by
  rw [placed_eq]
  rfl

theorem isBlock_wrap (node : Node) : isBlock node.wrap = isBlock node := by cases node <;> rfl

theorem isBlock_of_fits {G : Grammar} {form : Form} {node : Node} (fits : Fits G form node) :
    ∀ {ℓ o t}, form = .expression ℓ o t → isBlock node = false := by
  induction fits with
  | wrapped inner unwrapped ih => intros; rw [isBlock_wrap, ih rfl]
  | binary level => intros; cases level <;> rfl
  | _ => first | (intros; rfl) | (intros; contradiction)

theorem isDeclaration_wrap (node : Node) :
    Gloss.isDeclaration node.wrap = Gloss.isDeclaration node := by cases node <;> rfl

theorem isDeclaration_of_fits {G : Grammar} {form : Form} {node : Node} (fits : Fits G form node) :
    ∀ {ℓ o t}, form = .expression ℓ o t → Gloss.isDeclaration node = false := by
  induction fits with
  | wrapped inner unwrapped ih => intros; rw [isDeclaration_wrap, ih rfl]
  | binary level => intros; cases level <;> rfl
  | _ => first | (intros; rfl) | (intros; contradiction)

/-- An arrow can be printed if its parameters and its body can, the body as a block if it is one. -/
theorem printable_arrow {loc : Location} {params : List Node} {body : Node}
    (each : ∀ p ∈ params, (placed p).inPlace .param = none)
    (inner : (if isBlock body then inPlace .body else asExpression) (placed body) = none) :
    (placed (.arrowFunction loc false params body)).asExpression = none := by
  rw [placed_eq]
  change first ((((params ++ [body]).map placed).getLast?).toList.map
    (if isBlock body then inPlace .body else asExpression) ++
      list .none :: (((params ++ [body]).map placed).dropLast).map (inPlace .param)) = none
  simpa [inner] using by simpa using first_placed each

theorem printable_key {node : Node} (isKey : Key node) : (placed node).inPlace .key = none := by
  rw [placed_eq]
  cases isKey <;> rfl

theorem printable_interface {node : Node} (tree : InterfaceTree W K node) :
    (placed node).asStatement = none := by
  obtain @⟨loc, nameLoc, name, members, isName, each⟩ := tree
  rw [placed_eq]
  change first ((placed (.identifier nameLoc false name .absent)).inPlace .name ::
    (members.map placed).map (inPlace .member)) = none
  have named : (placed (.identifier nameLoc false name .absent)).inPlace .name = none := by
    rw [placed_eq]
    rfl
  rw [first_cons_eq_none]
  exact ⟨named, first_placed fun m mem => printable_type (each m mem)⟩

/-- A node that fits a slot can be printed from there. -/
theorem printable_of_fits {form : Form} {node : Node} (fits : Fits (.withTypes W K R) form node) :
    Printable form node := by
  induction fits with
  | name | calleeName => exact asExpression_identifier ..
  | number | string | template | boolean | null | this =>
    rw [Printable, placed_eq]
    rfl
  | @array _ _ _ _ elements each ih =>
    rw [Printable, placed_eq]
    change first [list .none, items (orEmpty asExpression) (elements.map placed)] = none
    simp [items_placed ih]
  | object opens each ih =>
    rw [Printable, placed_eq]
    exact items_placed ih
  | function opens named each block typed ihEach ihBlock =>
    rw [Printable, placed_eq]
    exact function_placed (printable_name named) ihEach ihBlock.2.2 (printable_result typed)
  | @call _ _ _ _ callee arguments called each ih ihEach =>
    rw [Printable, placed_eq]
    change first [(placed callee).asExpression, list .none,
      items asExpression (arguments.map placed)] = none
    simpa [Printable, items_placed ihEach] using ih
  | @construction _ _ _ _ callee arguments called each ih ihEach =>
    rw [Printable, placed_eq]
    change first [(placed callee).asExpression, list .none,
      items asExpression (arguments.map placed)] = none
    simpa [Printable, items_placed ihEach] using ih
  | @member _ _ _ _ value nameLoc name inner word ih =>
    rw [Printable, placed_eq]
    change first [(placed value).asExpression, _] = none
    simpa [Printable] using ih
  | @index _ _ _ _ value selector inner selected ih ihSelected =>
    rw [Printable, placed_eq]
    change first [(placed value).asExpression, (placed selector).asExpression] = none
    simpa using ⟨ih, ihSelected⟩
  | wrapped inner unwrapped ih =>
    rw [Printable, asExpression_wrap]
    exact ih
  | @updateBehind _ _ _ _ _ argument loose sign inner ih =>
    rw [Printable, placed_eq]
    change first [(placed argument).asExpression,
      appended (placed argument).lacksText Gap.none.text] = none
    simpa [Printable, appended] using ih
  | @updateBefore _ _ _ _ _ argument loose sign inner ih =>
    rw [Printable, placed_eq]
    change first [(placed argument).asExpression,
      appended Gap.none.text (placed argument).lacksText] = none
    simpa [Printable, appended] using ih
  | @unary _ _ _ _ operator argument loose sign inner ih =>
    rw [Printable, placed_eq]
    change first [(placed argument).asExpression, text .operator Gap.none.text,
      text .start (!Layout.isWord operator && (placed argument).lacksText)] = none
    simpa [Printable] using ih
  | @reservedUnary _ _ _ nameLoc name allowed loose word =>
    rw [Printable, placed_eq]
    change first [(placed (.identifier nameLoc false name .absent)).asExpression,
      text .operator Gap.none.text, text .start (!Layout.isWord Grammar.voidWord &&
        (placed (.identifier nameLoc false name .absent)).lacksText)] = none
    simp
  | @binary _ _ _ loc operator left right level loose sign first second ihFirst ihSecond =>
    have some : operator ≠ [] := by
      have all : ∀ sign ∈ Grammar.levelSigns level, sign ≠ [] := by cases level <;> decide
      exact all operator sign
    rw [Printable, placed_eq]
    cases level <;> exact operation_placed some ihFirst ihSecond
  | reservedRight allowed loose first word ih =>
    rw [Printable, placed_eq]
    exact operation_placed (by decide) ih (asExpression_identifier ..)
  | @conditional _ _ _ _ test consequent alternate loose condition first second ihCondition ihFirst
      ihSecond =>
    rw [Printable, placed_eq]
    change Placement.first [(placed test).asExpression, (placed consequent).asExpression,
      (placed alternate).asExpression] = none
    simpa using ⟨ihCondition, ihFirst, ihSecond⟩
  | assignment loose sign assigned inner ihAssigned ihInner =>
    have all : ∀ sign ∈ Grammar.assignSigns, sign ≠ [] := by decide
    rw [Printable, placed_eq]
    exact operation_placed (all _ sign) ihAssigned ihInner
  | arrow loose each inner ihEach ih =>
    refine printable_arrow ihEach ?_
    rw [if_neg (by simp [isBlock_of_fits inner rfl])]
    exact ih
  | arrowBlock loose each block ihEach ihBlock =>
    refine printable_arrow ihEach ?_
    rw [if_pos ihBlock.1]
    exact ihBlock.2.2
  | @sequence _ _ _ _ head others loose several leading each ih ihEach =>
    rw [Printable, placed_eq]
    change first [list .none, items asExpression ((head :: others).map placed)] = none
    simpa using items_placed (List.forall_mem_cons.mpr ⟨ih, ihEach⟩)
  | omitted => rfl
  | given inner ih =>
    have printable : (placed _).asExpression = none := ih
    simp [Printable, orEmpty, printable]
  | @calleeMember _ callee nameLoc name inner word ih =>
    rw [Printable, placed_eq]
    change first [(placed callee).asExpression, _] = none
    simpa [Printable] using ih
  | @shorthand _ _ valueLoc name isName =>
    rw [Printable, placed_eq]
    exact asExpression_identifier valueLoc false name .absent
  | @property _ key value isKey inner ih =>
    rw [Printable, placed_eq]
    change first [(placed key).inPlace .key, (placed value).asExpression] = none
    simpa using ⟨printable_key isKey, ih⟩
  | param bound => exact (printable_binder bound).2
  | @defaultParam _ binder value bound inner ih =>
    rw [Printable, placed_eq]
    change first [(placed binder).inPlace .binding, (placed value).orEmpty asExpression] = none
    have printable : (placed value).asExpression = none := ih
    simpa [orEmpty, printable] using (printable_binder bound).1
  | @declarator _ binder initializer bound inner ih =>
    rw [Printable, placed_eq]
    change first [(placed binder).inPlace .binding,
      (placed initializer).orEmpty asExpression] = none
    simpa using ⟨(printable_binder bound).1, ih⟩
  | @declaration _ _ declarators word some each ih =>
    refine ⟨rfl, ?_⟩
    rw [placed_eq]
    change first (list .none :: (declarators.map placed).map (inPlace .declarator)) = none
    rw [first_cons_eq_none]
    exact ⟨rfl, first_placed ih⟩
  | declaredVariables inner ih => exact ih.2
  | declaredFunction named each block typed ihEach ihBlock =>
    rw [Printable, placed_eq]
    exact function_placed (printable_name named) ihEach ihBlock.2.2 (printable_result typed)
  | noInitializer => rfl
  | initializerVariables inner ih =>
    rw [Printable, if_pos ih.1]
    exact ih.2
  | initializerExpression inner ih =>
    have printable : (placed _).asExpression = none := ih
    rw [Printable, if_neg (by simp [isDeclaration_of_fits inner rfl])]
    simp [orEmpty, printable]
  | block each ih =>
    refine ⟨rfl, ?_⟩
    rw [placed_eq]
    exact ⟨first_placed ih, first_placed ih⟩
  | declared inner ih => exact ih
  | interface allowed => exact printable_interface allowed
  | @exportNamed _ _ d inner ih =>
    rw [Printable, placed_eq]
    change first [(placed d).asStatement] = none
    simpa [Printable] using ih
  | @exportDefault _ _ d inner ih =>
    rw [Printable, placed_eq]
    change first [(placed d).asStatement] = none
    simpa [Printable] using ih
  | blockStatement inner ih => exact ih.2.1
  | @returned _ _ argument inner ih =>
    rw [Printable, placed_eq]
    change first [(placed argument).orEmpty asExpression] = none
    simpa [Printable] using ih
  | @thrown _ _ argument inner ih =>
    rw [Printable, placed_eq]
    change first [(placed argument).asExpression] = none
    simpa [Printable] using ih
  | breakStatement | continueStatement | emptyStatement =>
    rw [Printable, placed_eq]
    rfl
  | @expressionStatement _ _ value inner ih =>
    rw [Printable, placed_eq]
    change first [(placed value).asExpression, text .front (placed value).lacksText] = none
    simpa [Printable] using ih
  | @ifThen _ test consequent condition first ihCondition ihFirst =>
    rw [Printable, placed_eq]
    change Placement.first [(placed test).asExpression, (placed consequent).asStatement,
      (placed .absent).orEmpty asStatement] = none
    simpa [orEmpty, Node.isAbsent] using ⟨ihCondition, ihFirst⟩
  | @ifElse _ _ test consequent alternate condition first second ihCondition ihFirst ihSecond =>
    rw [Printable, placed_eq]
    change Placement.first [(placed test).asExpression, (placed consequent).asStatement,
      (placed alternate).orEmpty asStatement] = none
    have printable : (placed alternate).asStatement = none := ihSecond
    simpa [orEmpty, printable] using ⟨ihCondition, ihFirst⟩
  | @whileLoop _ _ test body condition inner ihCondition ihInner =>
    rw [Printable, placed_eq]
    change first [(placed test).asExpression, (placed body).asStatement] = none
    simpa using ⟨ihCondition, ihInner⟩
  | @forLoop _ _ initializer test step body initial condition increment inner ihInitial ihCondition
      ihIncrement ihInner =>
    rw [Printable, placed_eq]
    have whole {fault : Option Unprintable} (initial : fault = none) :
        first [fault, (placed test).orEmpty asExpression, (placed step).orEmpty asExpression,
          (placed body).asStatement] = none := by
      simpa using ⟨initial, ihCondition, ihIncrement, ihInner⟩
    -- The place of the initializer is that of a statement if it declares variables.
    rw [Printable] at ihInitial
    cases initializer <;> exact whole ihInitial
  | @program _ body each ih =>
    rw [Printable, placed_eq]
    change first [list .none, first ((body.map placed).map asStatement)] = none
    simpa using first_placed ih

end Print

end TypeGloss
