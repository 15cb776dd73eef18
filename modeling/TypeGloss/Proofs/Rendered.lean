import TypeGloss.Proofs.TypeTree
import TypeGloss.Parse.Type
import TypeGloss.Shape.Key

/-!
# The grammar of printed trees

The types that are written into programs are words, names with arguments, type literals and unions
of these. Behind a bar no type literal stands, except in the result type of a function: elsewhere
its brace would be taken for the brace of a block.
-/

namespace TypeGloss

open Lexeme (isWordText IsName IsString)

namespace Key

/-- No line feed is a part of a word. -/
theorem oneLine_of_isWordText {t : Text} (word : isWordText t = true) : .scalar '\n' ∉ t := by
  intro mem
  cases t with
  | nil => cases word
  | cons c rest =>
    simp only [isWordText, Bool.and_eq_true, List.all_eq_true] at word
    rcases List.mem_cons.mp mem with same | mem
    · rw [← same] at word
      exact absurd word.1 (by decide)
    · exact absurd (word.2 _ mem) (by decide)

/-- A key stands without quotes if it is a word, a line feed at its end not counted. -/
theorem isPlain_eq (t : Text) :
    isPlain t = isWordText (if t.getLast? = some (.scalar '\n') then t.dropLast else t) := rfl

theorem isPlain_of_isWordText {t : Text} (word : isWordText t = true) :
    isPlain t = true ∧ t.getLast? ≠ some (.scalar '\n') := by
  have noFeed : t.getLast? ≠ some (.scalar '\n') :=
    fun last => oneLine_of_isWordText word (List.mem_of_getLast? last)
  refine ⟨?_, noFeed⟩
  rwa [isPlain_eq, if_neg noFeed]

/-- A key that stands without quotes is a word, with a line feed behind it or without. -/
theorem word_of_isPlain {name : Text} (unquoted : isPlain name = true) :
    ∃ word, isWordText word = true ∧ (name = word ∨ name = word ++ [.scalar '\n']) := by
  rw [isPlain_eq] at unquoted
  split at unquoted
  case isTrue last =>
    exact ⟨name.dropLast, unquoted, .inr (List.dropLast_append_getLast? _ last).symm⟩
  case isFalse => exact ⟨name, unquoted, .inl rfl⟩

private theorem quotedEnd?_escaped (t : Text) (oneLine : .scalar '\n' ∉ t) (count : Nat) :
    Lexeme.quotedEnd? '\'' false count (t.flatMap escape ++ [.scalar '\'']) =
      some (count + (t.flatMap escape).length + 1) := by
  induction t generalizing count with
  | nil => rfl
  | cons c rest ih =>
    obtain ⟨noFeed, noFeeds⟩ : CodePoint.scalar '\n' ≠ c ∧ .scalar '\n' ∉ rest := by
      simpa using oneLine
    have tail := ih noFeeds
    obtain ⟨d, ds, shape⟩ : ∃ d ds, rest.flatMap escape ++ [CodePoint.scalar '\''] = d :: ds :=
      List.exists_cons_of_ne_nil (by simp)
    by_cases special : c = .scalar '\\' ∨ c = .scalar '\''
    · rw [List.flatMap_cons, escape, if_pos special, List.append_assoc]
      simp only [List.cons_append, List.nil_append, Lexeme.quotedEnd?, if_true, tail,
        List.length_cons]
      simp
      omega
    · rw [not_or] at special
      rw [List.flatMap_cons, escape, if_neg (by simp [special]), List.append_assoc, shape]
      simp only [List.cons_append, List.nil_append]
      rw [Lexeme.quotedEnd?, if_neg special.2, if_neg special.1, if_neg (by simp [noFeed.symm]),
        ← shape, tail]
      simp
      omega

/-- A key on one line that is no word is written as a string. -/
theorem isString_render {t : Text} (noWord : isPlain t = false)
    (oneLine : .scalar '\n' ∉ t) : IsString (render t) := by
  have quoted : render t = .scalar '\'' :: (t.flatMap escape ++ [.scalar '\'']) := by
    rw [render, if_neg (by simp [noWord])]
    rfl
  rw [IsString, quoted, Lexeme.quoted?, quotedEnd?_escaped t oneLine]
  simp
  omega

private theorem quotedEnd?_torn (t : Text) (feed : .scalar '\n' ∈ t) (count : Nat) (rest : Text) :
    Lexeme.quotedEnd? '\'' false count (t.flatMap escape ++ rest) = none := by
  induction t generalizing count with
  | nil => cases feed
  | cons c t ih =>
    by_cases special : c = .scalar '\\' ∨ c = .scalar '\''
    · have later : .scalar '\n' ∈ t := by
        rcases special with rfl | rfl <;> simpa using feed
      rw [List.flatMap_cons, escape, if_pos special, List.append_assoc]
      simp only [List.cons_append, List.nil_append, Lexeme.quotedEnd?, if_true]
      exact ih later (count + 2)
    rw [List.flatMap_cons, escape, if_neg special, List.append_assoc]
    obtain ⟨noSlash, noQuote⟩ := not_or.mp special
    cases shape : t.flatMap escape ++ rest with
    | nil => simp only [List.cons_append, List.nil_append, Lexeme.quotedEnd?, if_neg noQuote]
    | cons d ds =>
      simp only [List.cons_append, List.nil_append]
      rw [Lexeme.quotedEnd?, if_neg noQuote, if_neg noSlash]
      split
      · rfl
      · rename_i noFeed
        have other : CodePoint.scalar '\n' ≠ c := by
          rintro rfl
          simp at noFeed
        rw [← shape]
        exact ih ((List.mem_cons.mp feed).resolve_left other) (count + 1)

/-- No lexeme starts with a quoted key that holds a line feed. -/
theorem ofText?_torn {t : Text} (noWord : isPlain t = false) (feed : .scalar '\n' ∈ t)
    (rest : Text) : Lexeme.ofText? (render t ++ rest) = none := by
  have quoted : render t ++ rest =
      .scalar '\'' :: (t.flatMap escape ++ .scalar '\'' :: rest) := by
    rw [render, if_neg (by simp [noWord]), List.append_assoc]
    rfl
  have noSign (later : Text) : Lexeme.sign? (.scalar '\'' :: later) = none := by
    have all : ∀ sign ∈ Lexeme.signs, sign.1 ≠ [] ∧ sign.1.head? ≠ some (.scalar '\'') := by decide
    rw [Lexeme.sign?, Option.map_eq_none_iff, List.find?_eq_none]
    intro sign mem isPrefix
    obtain ⟨more, eq⟩ := List.isPrefixOf_iff_prefix.mp isPrefix
    obtain ⟨some, other⟩ := all sign mem
    obtain ⟨c, sign, shape⟩ := List.exists_cons_of_ne_nil some
    rw [shape, List.cons_append, List.cons.injEq] at eq
    exact other (by rw [shape, ← eq.1]; rfl)
  have noNumber (later : Text) : Lexeme.number? (.scalar '\'' :: later) = none :=
    Lexeme.number?_eq_none (by decide) rfl
  rw [quoted, Lexeme.ofText?, noNumber]
  simp only [Lexeme.quoted?, quotedEnd?_torn t feed, noSign]
  rfl

private theorem unescapeFrom_escaped (t : Text) :
    Literal.unescapeFrom 0 (t.flatMap escape) = .ok t := by
  induction t with
  | nil => rfl
  | cons c rest ih =>
    by_cases special : c = .scalar '\\' ∨ c = .scalar '\''
    · have found (later : Text) : Literal.escape? (c :: later) = some ⟨1, .ok [c]⟩ := by
        rcases special with rfl | rfl <;> rfl
      rw [List.flatMap_cons, escape, if_pos special]
      simp only [List.cons_append, List.nil_append, Literal.unescapeFrom, if_true, found, ih]
      rfl
    · rw [List.flatMap_cons, escape, if_neg special]
      rw [not_or] at special
      simp only [List.cons_append, List.nil_append, Literal.unescapeFrom, if_neg special.1, ih]
      rfl

theorem stringValue_render {t : Text} (noWord : isPlain t = false) :
    Literal.stringValue (render t) = .ok t := by
  have quoted : render t = .scalar '\'' :: (t.flatMap escape ++ [.scalar '\'']) := by
    rw [render, if_neg (by simp [noWord])]
    rfl
  rw [Literal.stringValue, quoted, List.tail_cons, List.dropLast_concat]
  exact unescapeFrom_escaped t

end Key

/-- A key that is read back as it is. -/
inductive SettledKey : MemberKey → Prop
  | name {t : Text} (word : isWordText t = true) : SettledKey (.name t)
  | string {t : Text} (noWord : Key.isPlain t = false) (oneLine : .scalar '\n' ∉ t) :
      SettledKey (.string (Key.render t))

theorem MemberKey.text_string_render {t : Text} (noWord : Key.isPlain t = false) :
    MemberKey.text (.string (Key.render t)) = t := by
  rw [MemberKey.text, Literal.stringText, Key.stringValue_render noWord]

theorem SettledKey.oneLine {key : MemberKey} (settled : SettledKey key) :
    .scalar '\n' ∉ key.text := by
  cases settled with
  | name word => exact Key.oneLine_of_isWordText word
  | string noWord oneLine => rwa [MemberKey.text_string_render noWord]

namespace Grammar

/-- The words that are types of their own. -/
def typeWords : List Text := ["any", "number", "string", "boolean", "null", "void"]

/-- The kinds of slots in types. -/
inductive TypeForm where
  | type
  /-- A type that is no union. -/
  | single
  /-- A member of a type body. -/
  | signature
  deriving DecidableEq, Repr

/-- Whether a node is a type literal. -/
def isLiteral : Node → Bool
  | .typeLiteral .. => true
  | _ => false

/-- The types that are written, in the result of a function or elsewhere. -/
inductive FitsType (inResult : Bool) : TypeForm → Node → Prop
  | word {loc word} (mem : word ∈ typeWords) : FitsType inResult .single (.keywordType loc word)
  | named {loc name} (isName : IsName name) (noWord : name ∉ Parse.keywordTypes) :
      FitsType inResult .single (.typeReference loc name [])
  | applied {loc name arguments} (isName : IsName name) (some : arguments ≠ [])
      (each : ∀ a ∈ arguments, FitsType inResult .type a) :
      FitsType inResult .single (.typeReference loc name arguments)
  | literal {loc members} (each : ∀ m ∈ members, FitsType inResult .signature m) :
      FitsType inResult .single (.typeLiteral loc members)
  | single {type} (inner : FitsType inResult .single type) : FitsType inResult .type type
  | union {loc first others} (leading : FitsType inResult .single first) (several : others ≠ [])
      (each : ∀ m ∈ others, FitsType inResult .single m)
      (noLiteral : inResult = false → ∀ m ∈ others, isLiteral m = false) :
      FitsType inResult .type (.unionType loc (first :: others))
  | signature {loc key type} (settled : SettledKey key) (inner : FitsType inResult .type type) :
      FitsType inResult .signature (.propertySignature loc key type false)

/-- The kind of slot that type syntax of a form fills. -/
def TypeForm.slot : TypeForm → TypeSlot
  | .type | .single => .type
  | .signature => .signature

/-- Types that are written are type syntax. -/
theorem FitsType.typeTree {inResult : Bool} {form : TypeForm} {node : Node}
    (fits : FitsType inResult form node) :
    TypeTree (isWordText · = true) SettledKey form.slot node := by
  induction fits with
  | @word loc word mem =>
    have all : ∀ word ∈ typeWords, isWordText word = true := by decide
    exact .word (all word mem)
  | named isName noWord => exact .reference isName.1 (List.forall_mem_nil _)
  | applied isName some each ih => exact .reference isName.1 ih
  | literal each ih => exact .literal ih
  | single inner ih => exact ih
  | union leading several each noLiteral ihFirst ih =>
    exact .union (List.cons_ne_nil _ _) (List.forall_mem_cons.mpr ⟨ihFirst, ih⟩)
  | signature settled inner ih => exact .signature settled ih

/-- The interfaces that are written. -/
inductive FitsInterface : Node → Prop
  | mk {loc nameLoc name members} (isName : IsName name)
      (each : ∀ m ∈ members, FitsType false .signature m) :
      FitsInterface
        (.interfaceDeclaration loc (.identifier nameLoc false name .absent) members)

end Grammar

/-- The grammar of the trees that are printed and read back. -/
def Grammar.rendered (reserved : Prop) : Grammar where
  annotated name type := IsName name ∧ Grammar.FitsType false .type type
  result := Grammar.FitsType true .type
  interface := Grammar.FitsInterface
  reserved := reserved

/-- The grammar of trees without type syntax. -/
def Grammar.untyped (reserved : Prop) : Grammar where
  annotated _ _ := False
  result _ := False
  interface _ := False
  reserved := reserved

end TypeGloss
