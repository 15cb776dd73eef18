import TypeGloss.Parse.Frame
import TypeGloss.Proofs.Syntax

/-!
# What a text says besides its punctuation

Parentheses, semicolons and the comma behind the last item of a list may be written or left out, or
are put in by the printer. What remains of the tokens of a text is its essence. A tree without type
syntax determines the essence of all texts that are read as this tree.
-/

namespace TypeGloss

/-- The signs that group or separate without a meaning of their own. -/
def groupingSigns : List Text := ["(", ")", ";"]

/-- The signs that end a list, so that a comma before them may be left out. -/
def closingSigns : List Text := ["]", "\x7d"]

/-- The sign between the items of a list. -/
def commaSign : Text := ","

/-- Whether a token is left out before other ones: a grouping sign, or a comma directly before a
sign that ends a list. -/
def isLeftOut (t : Text) (rest : List Text) : Bool :=
  t ∈ groupingSigns || (t = commaSign && rest.head?.any (· ∈ closingSigns))

/-- The texts of tokens without those that are left out. -/
def essence : List Text → List Text
  | [] => []
  | t :: rest => if isLeftOut t rest then essence rest else t :: essence rest

theorem essence_cons_grouping {t : Text} (grouping : t ∈ groupingSigns) (rest : List Text) :
    essence (t :: rest) = essence rest := by
  simp [essence, isLeftOut, grouping]

theorem essence_cons {t : Text} (noGrouping : t ∉ groupingSigns) {rest : List Text}
    (plain : t ≠ commaSign ∨ rest.head?.any (· ∈ closingSigns) = false) :
    essence (t :: rest) = t :: essence rest := by
  have kept : isLeftOut t rest = false := by
    rcases plain with noComma | noClosing
    · simp [isLeftOut, noGrouping, noComma]
    · simp only [isLeftOut, noGrouping, noClosing, Bool.and_false, Bool.or_false,
        decide_false]
  rw [essence, kept]
  rfl

/-- The essence of two parts, if no comma at the end of the first is left out. -/
theorem essence_append {ts us : List Text}
    (apart : ts.getLast? ≠ some commaSign ∨ us.head?.any (· ∈ closingSigns) = false) :
    essence (ts ++ us) = essence ts ++ essence us := by
  induction ts with
  | nil => rfl
  | cons first rest ih =>
    cases rest with
    | nil =>
      by_cases grouping : first ∈ groupingSigns
      · rw [List.singleton_append, essence_cons_grouping grouping, essence_cons_grouping grouping]
        rfl
      · have plain : first ≠ commaSign ∨ us.head?.any (· ∈ closingSigns) = false := by
          simpa using apart
        rw [List.singleton_append, essence_cons grouping plain, essence_cons grouping (.inr rfl)]
        rfl
    | cons second rest =>
      have same : isLeftOut first (second :: rest ++ us) = isLeftOut first (second :: rest) := rfl
      rw [List.cons_append, essence, essence, same, ih apart]
      cases isLeftOut first (second :: rest) <;> rfl

/-- The essence with one token more. -/
theorem essence_concat (ts : List Text) (t : Text) :
    essence (ts ++ [t]) =
      if t ∈ groupingSigns then essence ts
      else if t ∈ closingSigns ∧ ts.getLast? = some commaSign then (essence ts).dropLast ++ [t]
      else essence ts ++ [t] := by
  by_cases left : t ∈ closingSigns ∧ ts.getLast? = some commaSign
  · obtain ⟨closing, last⟩ := left
    obtain ⟨before, rfl⟩ := List.getLast?_eq_some_iff.mp last
    have noGrouping : t ∉ groupingSigns := by
      have all : ∀ t ∈ closingSigns, t ∉ groupingSigns := by decide
      exact all t closing
    have comma : essence (before ++ [commaSign]) = essence before ++ [commaSign] :=
      essence_append (.inr (by decide))
    have both : essence (before ++ [commaSign, t]) = essence before ++ [t] := by
      have noClosing : ([commaSign, t].head?).any (· ∈ closingSigns) = false := by
        rw [List.head?_cons]
        decide
      have leftOut : isLeftOut commaSign [t] = true := by
        simp [isLeftOut, closing]
      rw [essence_append (.inr noClosing), essence, if_pos leftOut,
        essence_cons noGrouping (.inr rfl)]
      rfl
    rw [List.append_assoc, List.singleton_append, both, if_neg noGrouping, if_pos ⟨closing, last⟩,
      comma, List.dropLast_concat]
  · have apart : ts.getLast? ≠ some commaSign ∨
        ([t] : List Text).head?.any (· ∈ closingSigns) = false := by
      by_cases closing : t ∈ closingSigns
      · exact .inl fun last => left ⟨closing, last⟩
      · exact .inr (by simpa using closing)
    rw [essence_append apart, if_neg left]
    by_cases grouping : t ∈ groupingSigns
    · rw [if_pos grouping, essence_cons_grouping grouping, essence, List.append_nil]
    · rw [if_neg grouping, essence_cons grouping (.inr rfl), essence]

/-- A text, or the mark of type syntax. -/
abbrev Spelling := List (Option Text)

namespace Spelling

/-- The spelling of a single text. -/
def word (t : Text) : Spelling := [some t]

/-- Spellings with commas between them. -/
def commas : List Spelling → Spelling
  | [] => []
  | [item] => item
  | item :: next :: rest => item ++ word commaSign ++ commas (next :: rest)

/-- Spellings with a comma behind each. -/
def trailed (items : List Spelling) : Spelling := items.flatMap (· ++ word commaSign)

@[simp] theorem commas_concat (items : List Spelling) (last : Spelling) :
    commas (items ++ [last]) = trailed items ++ last := by
  induction items with
  | nil => rfl
  | cons first rest ih =>
    cases rest with
    | nil => simp [commas, trailed]
    | cons second rest =>
      change first ++ word commaSign ++ commas (second :: rest ++ [last]) = _
      rw [ih]
      simp [trailed]

@[simp] theorem trailed_concat (items : List Spelling) (last : Spelling) :
    trailed (items ++ [last]) = trailed items ++ last ++ word commaSign := by
  simp [trailed]

/-- The mark of a type, if there is one. -/
def typeMark (type : Node) : Spelling := if type.isAbsent then [] else [none]

/-- The texts of an operator. A comparison with equality is two tokens. -/
def operator (sign : Text) : Spelling :=
  if sign = "<=" then word "<" ++ word "="
  else if sign = ">=" then word ">" ++ word "="
  else word sign

end Spelling

open Spelling

namespace Node

mutual

/-- The essence of the texts of a node, with a mark for type syntax. -/
@[simp] def spelling : Node → Spelling
  | .absent => []
  | .keywordType .. | .typeReference .. | .unionType .. | .arrayType .. | .propertySignature ..
  | .typeLiteral .. | .functionType .. | .interfaceDeclaration .. => [none]
  | .identifier _ _ name typing => word name ++ typeMark typing
  | .number _ _ raw | .string _ _ raw | .template _ _ raw => word raw
  | .boolean _ _ value => if value then word "true" else word "false"
  | .null .. => word "null"
  | .this .. => word "this"
  | .array _ _ elements => word "[" ++ commas (spellings elements) ++ word "]"
  | .property _ key value shorthand =>
    if shorthand then spelling value else spelling key ++ word ":" ++ spelling value
  | .object _ _ properties => word "\x7b" ++ commas (spellings properties) ++ word "\x7d"
  | .defaultParam _ target value => spelling target ++ word "=" ++ spelling value
  | .functionExpression _ _ name params body result
  | .functionDeclaration _ name params body result =>
    word "function" ++ spelling name ++ commas (spellings params) ++ typeMark result ++
      spelling body
  | .arrowFunction _ _ params body => commas (spellings params) ++ word "=>" ++ spelling body
  | .unary _ _ sign argument => word sign ++ spelling argument
  | .update _ _ sign leading argument =>
    if leading then word sign ++ spelling argument else spelling argument ++ word sign
  | .binary _ _ sign left right | .logical _ _ sign left right =>
    spelling left ++ operator sign ++ spelling right
  | .assignment _ _ sign left right => spelling left ++ word sign ++ spelling right
  | .conditional _ _ test consequent alternate =>
    spelling test ++ word "?" ++ spelling consequent ++ word ":" ++ spelling alternate
  | .call _ _ callee arguments => spelling callee ++ commas (spellings arguments)
  | .construction _ _ callee arguments =>
    word "new" ++ spelling callee ++ commas (spellings arguments)
  | .member _ _ value selector computed =>
    spelling value ++ if computed then word "[" ++ spelling selector ++ word "]"
      else word "." ++ spelling selector
  | .sequence _ _ expressions => commas (spellings expressions)
  | .declarator _ name initializer =>
    spelling name ++ if initializer.isAbsent then [] else word "=" ++ spelling initializer
  | .variableDeclaration _ keyword declarators => word keyword ++ commas (spellings declarators)
  | .block _ statements => word "\x7b" ++ (spellings statements).flatten ++ word "\x7d"
  | .returnStatement _ argument => word "return" ++ spelling argument
  | .throwStatement _ argument => word "throw" ++ spelling argument
  | .breakStatement _ => word "break"
  | .continueStatement _ => word "continue"
  | .emptyStatement _ => []
  | .expressionStatement _ expression => spelling expression
  | .ifStatement _ test consequent alternate =>
    word "if" ++ spelling test ++ spelling consequent ++
      if alternate.isAbsent then [] else word "else" ++ spelling alternate
  | .whileStatement _ test body => word "while" ++ spelling test ++ spelling body
  | .forStatement _ initializer test step body =>
    word "for" ++ spelling initializer ++ spelling test ++ spelling step ++ spelling body
  | .exportNamed _ declaration => word "export" ++ spelling declaration
  | .exportDefault _ declaration => word "export" ++ word "default" ++ spelling declaration
  | .program _ statements => (spellings statements).flatten

/-- The essences of nodes. -/
def spellings : List Node → List Spelling
  | [] => []
  | first :: rest => spelling first :: spellings rest

end

@[simp] theorem spellings_eq_map (nodes : List Node) : spellings nodes = nodes.map spelling := by
  induction nodes with
  | nil => rfl
  | cons node rest ih => rw [spellings, ih, List.map_cons]

@[simp] theorem spelling_wrap (node : Node) : node.wrap.spelling = node.spelling := by
  cases node <;> rfl

end Node

end TypeGloss
