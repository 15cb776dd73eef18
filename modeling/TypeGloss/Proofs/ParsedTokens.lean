import TypeGloss.Proofs.Essence
import TypeGloss.Proofs.Soundness.Source
import TypeGloss.Proofs.Transitions

/-!
# The tokens behind a tree

The parser loses no token: what its frames and its focus spell behind a token is what they spelled
before it, and the token. Grouping signs are spelled nowhere, and the sign that ends a list swallows
a comma before it.
-/

namespace TypeGloss

open Spelling

namespace TokenKind

/-- Whether tokens of a kind group or separate without a meaning of their own. -/
def isGrouping : TokenKind → Bool
  | .leftParen | .rightParen | .arrowParen | .semicolon | .terminator => true
  | _ => false

/-- Whether tokens of a kind end a list. -/
def endsList : TokenKind → Bool
  | .rightBracket | .rightBrace => true
  | _ => false

/-- Whether tokens of a kind stand for themselves behind a list that may end in a comma. -/
def isPlain (kind : TokenKind) (endsInComma : Bool) : Bool :=
  !kind.isGrouping && kind != .comma && (!kind.endsList || !endsInComma)

/-- The text of the tokens of a kind, if all have the same. -/
def fixedText? : TokenKind → Option Text
  | .leftBracket => some "["
  | .rightBracket => some "]"
  | .leftBrace | .objectBrace => some "\x7b"
  | .rightBrace => some "\x7d"
  | .comma => some commaSign
  | .dot => some "."
  | .colon => some ":"
  | .question => some "?"
  | .assign => some "="
  | .arrow => some "=>"
  | .less => some "<"
  | .greater => some ">"
  | .functionExpr => some "function"
  | .keyword word => some word.spelling
  | _ => none

end TokenKind


namespace Token

/-- A token of a stream whose kind fixes its text. -/
theorem text_eq {t : Token} (formed : Formed t.kind t.text) {kind : TokenKind}
    (isKind : t.kind = kind) {text : Text} (fixed : kind.fixedText? = some text) :
    t.text = text := by
  have all : ∀ sign ∈ Lexeme.signs, ∀ text, sign.2.fixedText? = some text → sign.1 = text := by
    decide
  rw [isKind] at formed
  cases kind with
  | keyword word => exact formed.trans (Option.some.inj fixed)
  | name | number | string | template | terminator | arrowParen => cases fixed
  | objectBrace | functionExpr => exact formed.trans (Option.some.inj fixed)
  | _ => exact all _ formed text fixed

end Token

namespace Parse

def Header.spelling (header : Header) : Spelling := word "function" ++ header.name.spelling

/-- What stands before the parameters of a function. -/
def ParamOwner.spelling : ParamOwner → Spelling
  | .function header => header.spelling
  | .arrow _ => []

/-- The essence of the part of a construct that was read. -/
@[simp] def Frame.spelling : Frame → Spelling
  | .unary _ sign | .update _ sign => word sign
  | .rightOf _ left sign _ => left.spelling ++ operator sign
  | .conditionElse _ test consequent =>
    test.spelling ++ word "?" ++ consequent.spelling ++ word ":"
  | .assigned _ target sign => target.spelling ++ word sign
  | .arrowResult _ params | .arrowBlock _ params =>
    commas (params.map Node.spelling) ++ word "=>"
  | .conditionThen _ test => test.spelling ++ word "?"
  | .sequence _ done => trailed (done.reverse.map Node.spelling)
  | .group _ | .expression => []
  | .index _ value => value.spelling ++ word "["
  | .arguments _ callee isNew done =>
    (if isNew then word "new" else []) ++ callee.spelling ++
      trailed (done.reverse.map Node.spelling)
  | .elements _ done => word "[" ++ trailed (done.reverse.map Node.spelling)
  | .properties _ done => word "\x7b" ++ trailed (done.reverse.map Node.spelling)
  | .propertyValue _ key => key.spelling ++ word ":"
  | .union .. | .functionResult .. | .typeGroup .. | .typeArguments .. | .members ..
  | .memberType .. | .typeParamList .. | .typeParam .. | .declaratorType .. | .paramType ..
  | .resultType .. => [none]
  | .declarators _ keyword done => word keyword ++ trailed (done.reverse.map Node.spelling)
  | .declaratorValue name typing | .paramDefault name typing =>
    (identifier name typing).spelling ++ word "="
  | .paramList owner done => owner.spelling ++ trailed (done.reverse.map Node.spelling)
  | .functionBody header params result =>
    header.spelling ++ commas (params.map Node.spelling) ++ typeMark result
  | .program done => (done.reverse.map Node.spelling).flatten
  | .block _ done => word "\x7b" ++ (done.reverse.map Node.spelling).flatten
  | .returned _ => word "return"
  | .thrown _ => word "throw"
  | .ifTest _ => word "if"
  | .thenBranch _ test => word "if" ++ test.spelling
  | .elseBranch _ test consequent =>
    word "if" ++ test.spelling ++ consequent.spelling ++ word "else"
  | .whileTest _ => word "while"
  | .whileBody _ test => word "while" ++ test.spelling
  | .forInit _ => word "for"
  | .forTest _ initializer => word "for" ++ initializer.spelling
  | .forStep _ initializer test => word "for" ++ initializer.spelling ++ test.spelling
  | .forBody _ initializer test step =>
    word "for" ++ initializer.spelling ++ test.spelling ++ step.spelling
  | .exported _ isDefault => word "export" ++ if isDefault then word "default" else []

/-- The essence of what the frames hold. -/
@[simp] def stackSpelling : List Frame → Spelling
  | [] => []
  | frame :: frames => stackSpelling frames ++ frame.spelling

/-- The essence of what is between the frames and the next token. -/
@[simp] def Focus.spelling : Focus → Spelling
  | .statement | .operand | .property | .declaratorName | .paramName _ => []
  | .finished node _ | .terminator node => node.spelling
  | .operator x => x.node.spelling
  | .comparison left sign => left.node.spelling ++ word sign
  | .selector x => x.node.spelling ++ word "."
  | .newName _ => word "new"
  | .newCallee _ callee => word "new" ++ callee.spelling
  | .newSelector _ callee => word "new" ++ callee.spelling ++ word "."
  | .propertyName name | .declarator name | .param name => word name.text
  | .propertyColon key => key.spelling
  | .arrowSign _ params => commas (params.map Node.spelling)
  | .arrowBody _ params => commas (params.map Node.spelling) ++ word "=>"
  | .typeOperand | .typeOperator _ | .arrayEnd _ | .typeParamName _ | .typeParamColon _
  | .typeArrow .. | .member | .memberKey .. | .memberColon .. | .interfaceName _
  | .interfaceBody .. => [none]
  | .functionName .. => word "function"
  | .functionParams header => header.spelling
  | .functionTail header params => header.spelling ++ commas (params.map Node.spelling)
  | .headerOpen header _ =>
    match header with
    | .ifWord => word "if"
    | .whileWord => word "while"
    | .forWord => word "for"
  | .exported _ isDefault => word "export" ++ if isDefault then word "default" else []

/-- The essence of all that was read. -/
def State.spelling (s : State) : Spelling := stackSpelling s.frames ++ s.focus.spelling

@[simp] theorem State.spelling_mk (focus : Focus) (frames : List Frame) :
    State.spelling ⟨focus, frames⟩ = stackSpelling frames ++ focus.spelling := rfl

@[simp] theorem operandState_spelling (node : Node) (start : Location) (grip : Grip)
    (frames : List Frame) :
    (operandState node start grip frames).spelling = stackSpelling frames ++ node.spelling := rfl

@[simp] theorem typeMark_absent : typeMark .absent = [] := rfl

@[simp] theorem identifier_spelling (name : Token) (typing : Node) :
    (identifier name typing).spelling = word name.text ++ typeMark typing := by
  simp [identifier]

/-- Whether the last token was a comma. -/
def State.endsInComma (s : State) : Bool :=
  match s.focus, s.frames with
  | .operand, .elements _ done :: _ | .operand, .arguments _ _ _ done :: _
  | .property, .properties _ done :: _ | .declaratorName, .declarators _ _ done :: _ =>
    !done.isEmpty
  | .operand, .sequence .. :: _ => true
  | .paramName isFirst, _ => !isFirst
  | _, _ => false

/-- Only empty statements are silent, and before the first parameter there is none. -/
def State.Tidy (s : State) : Prop :=
  match s.focus, s.frames with
  | .finished node true, _ => node.spelling = []
  | .paramName true, .paramList _ done :: _ => done = []
  | _, _ => True

/-- A tidy state that holds type syntax. -/
def State.Typed (s : State) : Prop := none ∈ s.spelling ∧ s.Tidy

/-- A state that spells what was read with one token more, or holds type syntax. The end of a list
swallows a comma before it. -/
inductive Continues (before : Spelling) (endsInComma : Bool) (t : Token) (s : State) : Prop
  | typed (typed : s.Typed)
  | spelled (same : s.spelling = before ++ if t.kind.isGrouping then [] else word t.text)
      (plain : t.kind.endsList = false ∨ endsInComma = false)
      (comma : s.endsInComma = true ↔ t.kind = .comma) (tidy : s.Tidy)
  | listEnd {items : Spelling} (trailing : before = items ++ word commaSign)
      (same : s.spelling = items ++ word t.text) (ends : t.kind.endsList = true)
      (swallowed : endsInComma = true) (open' : s.endsInComma = false) (tidy : s.Tidy)

section Closing

@[simp] theorem spelling_level (level : Level) (loc : Location) (sign : Text) (left right : Node) :
    (level.node loc sign left right).spelling =
      left.spelling ++ operator sign ++ right.spelling := by
  cases level <;> simp [Level.node]

theorem closeTighter_spelling (level : Level) (frames : List Frame) (node : Node)
    (start : Location) :
    stackSpelling (Frame.closeTighter level node start frames).2.2 ++
      (Frame.closeTighter level node start frames).1.spelling =
    stackSpelling frames ++ node.spelling := by
  fun_induction Frame.closeTighter level node start frames with
  | case1 node start loc sign frames ih => simp [ih]
  | case2 node start loc sign frames ih => simp [ih]
  | case3 node start leftStart left sign inner frames tighter ih => simp [ih]
  | case4 | case5 => rfl

theorem close_spelling (frames : List Frame) (node : Node) (start : Location) :
    stackSpelling (Frame.close node start frames).2.2 ++
      (Frame.close node start frames).1.spelling =
    stackSpelling frames ++ node.spelling := by
  fun_induction Frame.close node start frames with
  | case3 node start leftStart left sign level frames ih => simp [ih]
  | case7 => rfl
  | _ => simp [*]

@[simp] theorem callNode_spelling (isNew : Bool) (start : Location) (callee : Node)
    (arguments : List Node) :
    (callNode isNew start callee arguments).spelling =
      (if isNew then word "new" else []) ++ callee.spelling ++
        commas (arguments.map Node.spelling) := by
  cases isNew <;> simp [callNode]

theorem endSequence_spelling (frames : List Frame) (node : Node) (start : Location) :
    stackSpelling (endSequence node start frames).2.2 ++
      (endSequence node start frames).1.spelling =
    stackSpelling frames ++ node.spelling := by
  unfold endSequence
  split
  · simp
  · rfl

theorem close_isAbsent (frames : List Frame) (node : Node) (start : Location)
    (present : node.isAbsent = false) : (Frame.close node start frames).1.isAbsent = false := by
  fun_induction Frame.close node start frames with
  | case3 node start leftStart left sign level frames ih => exact ih (by cases level <;> rfl)
  | case7 => exact present
  | _ => rename_i ih; exact ih rfl

theorem endSequence_isAbsent (frames : List Frame) (node : Node) (start : Location)
    (present : node.isAbsent = false) : (endSequence node start frames).1.isAbsent = false := by
  unfold endSequence
  split
  · rfl
  · exact present

theorem settle_spelling (frames : List Frame) {node : Node} {silent : Bool} {settled : List Frame}
    (present : node.isAbsent = false) (quiet : silent = true → node.spelling = [])
    (isSettled : Frame.settle node silent frames = some settled) :
    stackSpelling settled = stackSpelling frames ++ node.spelling := by
  fun_induction Frame.settle node silent frames with
  | case1 node silent done frames =>
    obtain rfl := Option.some.inj isSettled
    cases silent <;> simp [quiet]
  | case2 node silent loc done frames =>
    obtain rfl := Option.some.inj isSettled
    cases silent <;> simp [quiet]
  | case3 node silent loc test frames ih =>
    rw [ih rfl (by simp) isSettled]
    simp [Node.isAbsent]
  | case4 node silent loc test consequent frames ih =>
    rw [ih rfl (by simp) isSettled]
    simp [present]
  | case5 node silent loc test frames ih =>
    rw [ih rfl (by simp) isSettled]
    simp
  | case6 node silent loc initializer test step frames ih =>
    rw [ih rfl (by simp) isSettled]
    simp
  | case7 node silent loc isDefault frames ih =>
    rw [ih (by cases isDefault <;> rfl) (by simp) isSettled]
    cases isDefault <;> simp [Frame.exportNode]
  | case8 => cases isSettled

theorem attachElse_spelling (frames : List Frame) {node : Node} {attached : List Frame}
    (present : node.isAbsent = false)
    (isAttached : Frame.attachElse node frames = some attached) :
    stackSpelling attached = stackSpelling frames ++ node.spelling ++ word "else" := by
  fun_induction Frame.attachElse node frames with
  | case1 node loc test frames =>
    obtain rfl := Option.some.inj isAttached
    simp
  | case2 node loc test consequent frames ih =>
    rw [ih rfl isAttached]
    simp [present]
  | case3 node loc test frames ih =>
    rw [ih rfl isAttached]
    simp
  | case4 node loc initializer test step frames ih =>
    rw [ih rfl isAttached]
    simp
  | case5 node loc isDefault frames ih =>
    rw [ih (by cases isDefault <;> rfl) isAttached]
    cases isDefault <;> simp [Frame.exportNode]
  | case6 => cases isAttached

end Closing

section Accepted

variable {before : Spelling} {endsInComma : Bool} {t : Token} {s : State}

/-- A state behind a token that is neither a grouping sign nor a comma. -/
theorem Continues.plain {kind : TokenKind} (isKind : t.kind = kind)
    (same : s.spelling = before ++ word t.text) (isPlain : kind.isPlain endsInComma = true)
    (open' : s.endsInComma = false) (tidy : s.Tidy) : Continues before endsInComma t s := by
  subst isKind
  obtain ⟨⟨noGrouping, noComma⟩, ends⟩ : (t.kind.isGrouping = false ∧ t.kind ≠ .comma) ∧
      (t.kind.endsList = false ∨ endsInComma = false) := by
    simpa [TokenKind.isPlain] using isPlain
  exact .spelled (by simp [same, noGrouping]) ends (by simp [open', noComma]) tidy

/-- A state behind such a token whose kind fixes its text. -/
theorem Continues.fixed (formed : Token.Formed t.kind t.text) {kind : TokenKind}
    (isKind : t.kind = kind) {text : Text} (isText : kind.fixedText? = some text)
    (same : s.spelling = before ++ word text) (isPlain : kind.isPlain endsInComma = true)
    (open' : s.endsInComma = false) (tidy : s.Tidy) : Continues before endsInComma t s :=
  .plain isKind (Token.text_eq formed isKind isText ▸ same) isPlain open' tidy

/-- A state behind a grouping sign. -/
theorem Continues.grouping {kind : TokenKind} (isKind : t.kind = kind)
    (same : s.spelling = before) (grouping : kind.isGrouping = true)
    (open' : s.endsInComma = false) (tidy : s.Tidy) : Continues before endsInComma t s := by
  subst isKind
  have noComma : t.kind ≠ .comma := by
    intro isComma
    simp [isComma, TokenKind.isGrouping] at grouping
  have plain : t.kind.endsList = false := by
    cases kind : t.kind <;> simp_all [TokenKind.endsList, TokenKind.isGrouping]
  exact .spelled (by simp [same, grouping]) (.inl plain) (by simp [open', noComma]) tidy

/-- A state behind a comma. -/
theorem Continues.comma (formed : Token.Formed t.kind t.text) (isComma : t.kind = .comma)
    (same : s.spelling = before ++ word commaSign) (ends : s.endsInComma = true)
    (tidy : s.Tidy) : Continues before endsInComma t s := by
  have noGrouping : t.kind.isGrouping = false := by rw [isComma]; rfl
  have plain : t.kind.endsList = false := by rw [isComma]; rfl
  have text := Token.text_eq formed isComma rfl
  exact .spelled (by simp [same, noGrouping, text]) (.inl plain) (by simp [ends, isComma]) tidy

theorem Continues.of_eq {before' : Spelling} (continues : Continues before endsInComma t s)
    (same : before' = before) : Continues before' endsInComma t s :=
  same ▸ continues

theorem Continues.tidy (continues : Continues before endsInComma t s) : s.Tidy := by
  cases continues with
  | typed typed => exact typed.2
  | spelled same plain comma tidy => exact tidy
  | listEnd trailing same ends swallowed open' tidy => exact tidy

/-- Type syntax is not lost. -/
theorem Continues.keeps (continues : Continues before endsInComma t s) (mem : none ∈ before) :
    s.Typed := by
  refine ⟨?_, continues.tidy⟩
  cases continues with
  | typed typed => exact typed.1
  | spelled same => exact same ▸ List.mem_append_left _ mem
  | listEnd trailing same =>
    rw [trailing, List.mem_append] at mem
    rcases mem with mem | mem
    · exact same ▸ List.mem_append_left _ mem
    · simp [word] at mem

end Accepted

theorem typeMark_of_present {type : Node} (present : type.isAbsent = false) :
    typeMark type = [none] := by
  simp [typeMark, present]

theorem isPlain_of_level {kind : TokenKind} {level : Level} {endsInComma : Bool}
    (found : Level.ofKind? kind = some level) : kind.isPlain endsInComma = true := by
  cases kind <;> first | rfl | cases found

theorem isPlain_of_mem {kind : TokenKind} {endsInComma : Bool}
    (mem : kind ∈ unaryKinds ∨ kind ∈ declarationKinds) : kind.isPlain endsInComma = true := by
  have all : ∀ kind ∈ unaryKinds ++ declarationKinds, kind.isPlain endsInComma = true := by
    cases endsInComma <;> decide
  exact all kind (List.mem_append.mpr mem)

section Functions

variable {t : Token} (formed : Token.Formed t.kind t.text) {node : Node} {frames : List Frame}
  {s : State}

include formed

theorem endDeclarator_continues (ended : endDeclarator t node frames = some s) :
    Continues (stackSpelling frames ++ node.spelling) false t s := by
  cases endDeclarator_cases ended with
  | next kind => exact .comma formed kind (by simp) rfl trivial
  | header kind | statement kind => exact .grouping kind (by simp) rfl rfl trivial

theorem endParam_continues (ended : endParam t node frames = some s) :
    Continues (stackSpelling frames ++ node.spelling) false t s := by
  cases endParam_cases ended with
  | next kind => exact .comma formed kind (by simp) rfl trivial
  | @last owner _ _ kind =>
    cases owner <;>
      exact .grouping kind (by simp [endParams, ParamOwner.spelling]) rfl rfl trivial

theorem endProperty_continues (ended : endProperty t node frames = some s) :
    Continues (stackSpelling frames ++ node.spelling) false t s := by
  cases endProperty_cases ended with
  | next kind => exact .comma formed kind (by simp) rfl trivial
  | last kind =>
    exact .fixed formed kind rfl (by simp) rfl rfl trivial

theorem endValue_continues (present : node.isAbsent = false) (ended : EndValue t node frames s) :
    Continues (stackSpelling frames ++ node.spelling) false t s := by
  cases ended with
  | property ended => simpa using endProperty_continues formed ended
  | declarator ended =>
    simpa [declaratorNode, present] using endDeclarator_continues formed ended
  | param ended => simpa [paramNode, present] using endParam_continues formed ended

theorem deliverItem_continues {start : Location} (present : node.isAbsent = false)
    (kind : t.kind = .comma) (delivered : deliverItem t node start frames = some s) :
    Continues (stackSpelling frames ++ node.spelling) false t s := by
  cases deliverItem_cases delivered with
  | sequence | argument | element =>
    exact .comma formed kind (by simp) rfl trivial
  | value ended => exact endValue_continues formed present ended
  | first => exact .comma formed kind (by simp [trailed]) rfl trivial

theorem deliverLast_continues {start : Location} (present : node.isAbsent = false)
    (delivered : deliverLast t node start frames = some s) :
    Continues (stackSpelling frames ++ node.spelling) false t s := by
  cases deliverLast_cases delivered with
  | consequent kind | index kind | array kind =>
    exact .fixed formed kind rfl (by simp) rfl rfl trivial
  | value ended => exact endValue_continues formed present ended
  | _ =>
    rename_i kind
    exact .grouping kind (by simp) rfl rfl trivial

theorem expressionEnd_continues {x : Operand} (present : x.node.isAbsent = false)
    (ended : expressionEnd t x frames = some s) :
    Continues (stackSpelling frames ++ x.node.spelling) false t s := by
  unfold expressionEnd at ended
  rw [← close_spelling frames x.node x.start]
  have closed := close_isAbsent frames x.node x.start present
  simp only at ended
  split at ended
  case isTrue kind => exact deliverItem_continues formed closed kind ended
  case isFalse =>
    rw [← endSequence_spelling _ _ (Frame.close x.node x.start frames).2.1]
    exact deliverLast_continues formed (endSequence_isAbsent _ _ _ closed) ended

theorem atomToken_continues {grip : Grip} {endsInComma : Bool} (found : AtomToken t node grip) :
    Continues (stackSpelling frames) endsInComma t (operandState node t.loc grip frames) := by
  cases found with
  | name kind | number kind | string kind | template kind => exact .plain kind rfl rfl rfl trivial
  | true kind | false kind | null kind | this kind =>
    exact .fixed formed kind rfl (by simp [Keyword.spelling]) rfl rfl trivial

theorem openingToken_continues {focus : Focus} {opened : List Frame} {endsInComma : Bool}
    (found : OpeningToken t focus opened) :
    Continues (stackSpelling frames) endsInComma t ⟨focus, opened ++ frames⟩ := by
  cases found with
  | group kind => exact .grouping kind (by simp) rfl rfl trivial
  | array kind | object kind | function kind | construction kind =>
    exact .fixed formed kind rfl (by simp [trailed, Keyword.spelling]) rfl rfl trivial
  | unary kind =>
    exact .plain rfl (by simp) (isPlain_of_mem (.inl kind)) rfl trivial
  | update kind => exact .plain kind (by simp) rfl rfl trivial

theorem omission_continues (found : Omission t frames s) :
    Continues (stackSpelling frames) (State.endsInComma ⟨.operand, frames⟩) t s := by
  cases found with
  | arguments kind =>
    exact .grouping kind (by simp [trailed, commas]) rfl rfl trivial
  | hole kind => exact .comma formed kind (by simp) rfl trivial
  | @array loc done frames kind =>
    cases done with
    | nil => exact .fixed formed kind rfl (by simp [trailed, commas]) rfl rfl trivial
    | cons last done =>
      -- The comma behind the last element is left out.
      have trailing : stackSpelling (.elements loc (last :: done) :: frames) =
          stackSpelling frames ++ word "[" ++ trailed (done.reverse.map Node.spelling) ++
            last.spelling ++ word commaSign := by simp
      rw [trailing]
      refine .listEnd rfl ?_ (by rw [kind]; rfl) rfl rfl trivial
      simp [Token.text_eq formed kind rfl]
  | declaration kind =>
    exact .plain rfl (by simp [trailed]) (isPlain_of_mem (.inr kind)) rfl trivial
  | value kind | initializer kind | test kind | step kind =>
    exact .grouping kind (by simp) rfl rfl trivial

theorem operandStart_continues (started : operandStart t frames = some s) :
    Continues (stackSpelling frames) (State.endsInComma ⟨.operand, frames⟩) t s := by
  cases operandStart_cases started with
  | atom found => exact atomToken_continues formed found
  | opening found => exact openingToken_continues formed found
  | arrow kind =>
    exact .grouping kind (by simp [ParamOwner.spelling, trailed]) rfl rfl rfl
  | omission found => exact omission_continues formed found

theorem suffix_continues {x : Operand} (found : Suffix t x frames s) :
    Continues (stackSpelling frames ++ x.node.spelling) false t s := by
  cases found with
  | call kind => exact .grouping kind (by simp [trailed]) rfl rfl trivial
  | member kind | index kind =>
    exact .fixed formed kind rfl (by simp) rfl rfl trivial
  | update kind => exact .plain kind (by simp) rfl rfl trivial

theorem bindingSign_continues {x : Operand} (found : BindingSign t x frames s) :
    Continues (stackSpelling frames ++ x.node.spelling) false t s := by
  cases found with
  | assignment kind =>
    rcases kind with kind | kind <;> exact .plain kind (by simp) rfl rfl trivial
  | arrow kind =>
    exact .fixed formed kind rfl (by simp [commas]) rfl rfl trivial

/-- A binary operator of a single token. -/
theorem operator_text {level : Level} (found : Level.ofKind? t.kind = some level) :
    operator t.text = word t.text := by
  have signs : ∀ sign ∈ Lexeme.signs, operator sign.1 = word sign.1 := by decide
  have words : ∀ keyword : Keyword, operator keyword.spelling = word keyword.spelling := by
    intro keyword
    cases keyword <;> decide
  obtain ⟨kind, text, loc⟩ := t
  cases kind with
  | keyword keyword =>
    have text_eq : text = keyword.spelling := formed
    exact text_eq ▸ words keyword
  | name | number | string | template | terminator | objectBrace | arrowParen | functionExpr =>
    cases found
  | _ => exact signs _ formed

theorem infixNext_continues {x : Operand} (present : x.node.isAbsent = false)
    (next : InfixNext t x frames s) :
    Continues (stackSpelling frames ++ x.node.spelling) false t s := by
  cases next with
  | @comparison level _ found _ closed | @operator level _ found _ closed =>
    subst closed
    rw [← closeTighter_spelling level frames x.node x.start]
    have text := operator_text formed found
    exact .plain rfl (by simp [text]) (isPlain_of_level found) rfl trivial
  | question kind closed =>
    subst closed
    rw [← closeTighter_spelling .orElse frames x.node x.start]
    exact .fixed formed kind rfl (by simp) rfl rfl trivial
  | ends ended => exact expressionEnd_continues formed present ended

theorem operatorNext_continues {x : Operand} (present : x.node.isAbsent = false)
    (next : operatorNext t x frames = some s) :
    Continues (stackSpelling frames ++ x.node.spelling) false t s := by
  cases operatorNext_cases next with
  | ends _ ended => exact expressionEnd_continues formed present ended
  | operator _ next => exact infixNext_continues formed present next
  | suffix _ found => exact suffix_continues formed found
  | binding _ _ found => exact bindingSign_continues formed found

theorem comparisonNext_continues {left : Operand} {sign : Text} (isSign : sign = "<" ∨ sign = ">")
    (next : comparisonNext t left sign frames = some s) :
    Continues (stackSpelling frames ++ left.node.spelling ++ word sign) false t s := by
  obtain ⟨kind, rfl⟩ | ⟨-, started⟩ := of_ite_some_else next
  · have both : operator (sign ++ t.text) = word sign ++ word t.text := by
      rw [Token.text_eq formed kind rfl]
      rcases isSign with rfl | rfl <;> decide
    exact .plain kind (by simp [both]) rfl rfl trivial
  · have continues : Continues _ false t s := operandStart_continues formed started
    have one : operator sign = word sign := by rcases isSign with rfl | rfl <;> decide
    simpa [one] using continues

theorem propertyStart_continues (started : propertyStart t frames = some s) :
    Continues (stackSpelling frames) (State.endsInComma ⟨.property, frames⟩) t s := by
  cases propertyStart_cases started with
  | name kind | string kind | number kind => exact .plain kind rfl rfl rfl trivial
  | @none loc done frames kind =>
    cases done with
    | nil => exact .fixed formed kind rfl (by simp [trailed, commas]) rfl rfl trivial
    | cons last done =>
      have trailing : stackSpelling (.properties loc (last :: done) :: frames) =
          stackSpelling frames ++ word "\x7b" ++ trailed (done.reverse.map Node.spelling) ++
            last.spelling ++ word commaSign := by simp
      rw [trailing]
      refine .listEnd rfl ?_ (by rw [kind]; rfl) rfl rfl trivial
      simp [Token.text_eq formed kind rfl]

theorem propertyNext_continues {name : Token} (next : propertyNext t name frames = some s) :
    Continues (stackSpelling frames ++ word name.text) false t s := by
  obtain ⟨kind, rfl⟩ | ⟨-, ended⟩ := of_ite_some_else next
  · exact .fixed formed kind rfl (by simp) rfl rfl trivial
  · simpa using endProperty_continues formed ended

theorem newNext_continues {loc : Location} {callee : Node}
    (next : newNext t loc callee frames = some s) :
    Continues (stackSpelling frames ++ word "new" ++ callee.spelling) false t s := by
  cases newNext_cases next with
  | member kind =>
    exact .fixed formed kind rfl (by simp) rfl rfl trivial
  | arguments kind => exact .grouping kind (by simp [trailed]) rfl rfl trivial

theorem arrowBodyStart_continues {start : Location} {params : List Node}
    (started : arrowBodyStart t start params frames = some s) :
    Continues (stackSpelling frames ++ commas (params.map Node.spelling) ++ word "=>") false
      t s := by
  obtain ⟨kind, rfl⟩ | ⟨-, started⟩ := of_ite_some_else started
  · exact .fixed formed kind rfl (by simp) rfl rfl trivial
  · have continues : Continues _ false t s := operandStart_continues formed started
    simpa using continues

theorem endBlock_continues (kind : t.kind = .rightBrace) {loc : Location} {done : List Node}
    (ends : EndBlock (.block loc done.reverse) frames s) :
    Continues (stackSpelling frames ++ word "\x7b" ++ (done.reverse.map Node.spelling).flatten)
      false t s := by
  cases ends with
  | expression isExpression | declaration isExpression =>
    refine .fixed formed kind rfl ?_ rfl rfl trivial
    simp [Header.node, isExpression, Header.spelling]
  | arrow | statement => exact .fixed formed kind rfl (by simp) rfl rfl trivial

theorem statementStart_continues (started : statementStart t frames = some s) :
    Continues (stackSpelling frames) false t s := by
  cases statementStart_cases started with
  | declaration kind =>
    exact .plain rfl (by simp [trailed]) (isPlain_of_mem (.inr kind)) rfl trivial
  | interface => exact .typed ⟨by simp, trivial⟩
  | blockEnd kind ends => simpa using endBlock_continues formed kind ends
  | empty kind =>
    refine .grouping kind (by simp) rfl rfl ?_
    cases t.text.isEmpty
    · trivial
    · rfl
  | expression started =>
    have continues : Continues _ false t s := operandStart_continues formed started
    simpa using continues
  | _ =>
    rename_i kind
    exact .fixed formed kind rfl (by simp [Keyword.spelling]) rfl rfl trivial

theorem statementNext_continues {silent : Bool} (present : node.isAbsent = false)
    (quiet : silent = true → node.spelling = [])
    (next : statementNext t node silent frames = some s) :
    Continues (stackSpelling frames ++ node.spelling) false t s := by
  cases statementNext_cases next with
  | alternate kind isAttached =>
    have attached := attachElse_spelling frames present isAttached
    exact .fixed formed kind rfl (by simp [attached, Keyword.spelling]) rfl rfl trivial
  | next isSettled started =>
    have continues := statementStart_continues formed started
    rwa [settle_spelling frames present quiet isSettled] at continues

theorem declaratorNext_continues {name : Token} (next : declaratorNext t name frames = some s) :
    Continues (stackSpelling frames ++ word name.text) false t s := by
  cases declaratorNext_cases next with
  | typed => exact .typed ⟨by simp, trivial⟩
  | value kind =>
    exact .fixed formed kind rfl (by simp) rfl rfl trivial
  | ends _ ended =>
    simpa [declaratorNode, Node.isAbsent] using endDeclarator_continues formed ended

theorem paramNext_continues {name : Token} (next : paramNext t name frames = some s) :
    Continues (stackSpelling frames ++ word name.text) false t s := by
  cases paramNext_cases next with
  | typed => exact .typed ⟨by simp, trivial⟩
  | value kind =>
    exact .fixed formed kind rfl (by simp) rfl rfl trivial
  | ends _ ended =>
    simpa [paramNode, Node.isAbsent] using endParam_continues formed ended

omit formed in
theorem paramsStart_continues {header : Header} (started : paramsStart t header frames = some s) :
    Continues (stackSpelling frames ++ header.spelling) false t s := by
  obtain ⟨kind, rfl⟩ := of_ite_some started
  exact .grouping kind (by simp [ParamOwner.spelling, trailed]) rfl rfl rfl

omit formed in
theorem functionNameStart_continues {loc : Location} {isExpression : Bool}
    (started : functionNameStart t loc isExpression frames = some s) :
    Continues (stackSpelling frames ++ word "function") false t s := by
  obtain ⟨kind, rfl⟩ | ⟨-, started⟩ := of_ite_some_else started
  · refine .plain kind ?_ rfl rfl trivial
    simp [Header.spelling]
  · simpa [Header.spelling] using paramsStart_continues started

omit formed in
theorem paramStart_continues {isFirst : Bool} (tidy : State.Tidy ⟨.paramName isFirst, frames⟩)
    (started : paramStart t isFirst frames = some s) :
    Continues (stackSpelling frames) (!isFirst) t s := by
  cases paramStart_cases started with
  | name kind => exact .plain kind rfl rfl rfl trivial
  | @none owner done frames kind =>
    obtain rfl : done = [] := tidy
    cases owner <;>
      exact .grouping kind (by simp [endParams, ParamOwner.spelling, trailed, commas])
        rfl rfl trivial

theorem openBody_continues {header : Header} {params : List Node} {result : Node}
    (opened : openBody t header params result frames = some s) :
    Continues (stackSpelling frames ++ header.spelling ++ commas (params.map Node.spelling) ++
      typeMark result) false t s := by
  obtain ⟨kind, rfl⟩ := of_ite_some opened
  exact .fixed formed kind rfl (by simp) rfl rfl trivial

theorem functionTail_continues {header : Header} {params : List Node}
    (next : functionTail t header params frames = some s) :
    Continues (stackSpelling frames ++ header.spelling ++ commas (params.map Node.spelling)) false
      t s := by
  obtain ⟨-, rfl⟩ | ⟨-, opened⟩ := of_ite_some_else next
  · exact .typed ⟨by simp, trivial⟩
  · simpa using openBody_continues formed opened

theorem exportStart_continues {loc : Location} {isDefault : Bool}
    (started : exportStart t loc isDefault frames = some s) :
    Continues (stackSpelling frames ++ Focus.spelling (.exported loc isDefault)) false t s := by
  cases exportStart_cases started with
  | default kind | function kind =>
    exact .fixed formed kind rfl (by simp [Keyword.spelling]) rfl rfl trivial
  | declaration kind =>
    exact .plain rfl (by simp [trailed]) (isPlain_of_mem (.inr kind)) rfl trivial

omit formed in
theorem endMembers_typed (ended : endMembers frames = some s) : s.Typed := by
  cases endMembers_cases ended <;> exact ⟨by simp, trivial⟩

omit formed in
theorem endMember_typed (ended : endMember t node frames = some s) : s.Typed := by
  cases endMember_cases ended with
  | next => exact ⟨by simp, trivial⟩
  | last _ ended => exact endMembers_typed ended

theorem deliverType_typed {type : Node} (present : type.isAbsent = false)
    (delivered : deliverType t type frames = some s) : s.Typed := by
  have mark := typeMark_of_present present
  cases deliverType_cases delivered with
  | group | argument | arguments | typeParam | typeParams =>
    exact ⟨by simp, trivial⟩
  | member ended => exact endMember_typed ended
  | declaratorValue | paramDefault =>
    exact ⟨by simp [mark], trivial⟩
  | declarator ended =>
    refine (endDeclarator_continues formed ended).keeps ?_
    simp [declaratorNode, mark]
  | param ended =>
    refine (endParam_continues formed ended).keeps ?_
    simp [paramNode, mark, Node.isAbsent]
  | result opened => exact (openBody_continues formed opened).keeps (by simp [mark])

omit formed in
theorem typeStart_typed (started : typeStart t frames = some s) : s.Typed := by
  cases typeStart_cases started <;> exact ⟨by simp, trivial⟩

omit formed in
theorem closeType_isAbsent (present : node.isAbsent = false) :
    (Frame.closeType node frames).1.isAbsent = false := by
  fun_induction Frame.closeType node frames with
  | case1 node start done frames ih => exact ih rfl
  | case2 node loc params frames ih => exact ih rfl
  | case3 => exact present

theorem typeNext_typed {x : TypeOperand} (present : x.node.isAbsent = false)
    (next : typeNext t x frames = some s) : s.Typed := by
  cases typeNext_cases next with
  | ends delivered => exact deliverType_typed formed (closeType_isAbsent present) delivered
  | _ => exact ⟨by simp, trivial⟩

omit formed in
theorem typeParamStart_typed {isFirst : Bool} (started : typeParamStart t isFirst frames = some s) :
    s.Typed := by
  cases typeParamStart_cases started <;> exact ⟨by simp, trivial⟩

omit formed in
theorem memberStart_typed (started : memberStart t frames = some s) : s.Typed := by
  cases memberStart_cases started with
  | none _ ended => exact endMembers_typed ended
  | _ => exact ⟨by simp, trivial⟩

omit formed in
theorem memberNext_typed {loc : Location} {key : MemberKey}
    (next : memberNext t loc key frames = some s) : s.Typed := by
  cases memberNext_cases next <;> exact ⟨by simp, trivial⟩

end Functions

end Parse

end TypeGloss
