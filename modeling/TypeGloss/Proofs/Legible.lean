import TypeGloss.Proofs.Facts
import TypeGloss.Proofs.Settled
import TypeGloss.Proofs.TypeSyntax

/-!
# Shapes whose types are read back

The type of an inferred shape is read back if its keys stand on one line and if, outside the results
of functions, no object type stands behind a bar. Names of interfaces are names in any case.
-/

namespace TypeGloss

open Grammar (FitsType isLiteral)
open Lexeme (isWordStart isWordPart isWordText IsName)

namespace Shape

mutual

/-- Whether the type of an inferred shape is read back, in the result of a function or elsewhere:
its keys have no line feeds, and only in a result does an object type stand behind a bar. -/
def isLegible (inResult : Bool) : Shape → Bool
  | .object fields => legibleFields inResult fields
  | .array (first :: rest) =>
    isLegible inResult first && legibleAll inResult rest && (inResult || rest.all (!·.isObject))
  | _ => true

/-- Whether the types of shapes are all read back. -/
def legibleAll (inResult : Bool) : List Shape → Bool
  | [] => true
  | shape :: rest => isLegible inResult shape && legibleAll inResult rest

/-- Whether the types of fields and their keys are all read back. -/
def legibleFields (inResult : Bool) : List (Text × Shape) → Bool
  | [] => true
  | (key, shape) :: rest =>
    !key.contains (.scalar '\n') && isLegible inResult shape && legibleFields inResult rest

end

variable {inResult : Bool} {known : List Text}

theorem legibleAll_eq (shapes : List Shape) :
    legibleAll inResult shapes = shapes.all (isLegible inResult) := by
  induction shapes with
  | nil => rfl
  | cons shape rest ih => rw [legibleAll, ih, List.all_cons]

theorem legibleFields_eq (fields : List (Text × Shape)) :
    legibleFields inResult fields = fields.all fun field =>
      !field.1.contains (.scalar '\n') && isLegible inResult field.2 := by
  induction fields with
  | nil => rfl
  | cons field rest ih => rw [legibleFields, ih, List.all_cons]

/-- The type syntax of shapes is that of each. -/
theorem toSyntaxAll_ok {p : Shape → Node → Prop} {shapes : List Shape}
    (each : ∀ shape ∈ shapes, ∃ type, shape.toSyntax known = .ok type ∧ p shape type) :
    ∃ types, toSyntaxAll known shapes = .ok types ∧ List.Forall₂ p shapes types := by
  induction shapes with
  | nil => exact ⟨[], rfl, .nil⟩
  | cons shape rest ih =>
    obtain ⟨⟨type, written, holds⟩, others⟩ := List.forall_mem_cons.mp each
    obtain ⟨types, writtenRest, holdsRest⟩ := ih others
    refine ⟨type :: types, ?_, .cons holds holdsRest⟩
    simp only [toSyntaxAll, written, writtenRest]
    rfl

theorem memberSyntax_ok (known : List Text) {p : Text × Shape → Node → Prop}
    {fields : List (Text × Shape)}
    (each : ∀ field ∈ fields, ∃ type, field.2.toSyntax known = .ok type ∧
      p field (.propertySignature .synthetic (.name field.1) type false)) :
    ∃ members, memberSyntax known fields = .ok members ∧ List.Forall₂ p fields members := by
  induction fields with
  | nil => exact ⟨[], rfl, .nil⟩
  | cons field rest ih =>
    obtain ⟨⟨type, written, holds⟩, others⟩ := List.forall_mem_cons.mp each
    obtain ⟨members, writtenRest, holdsRest⟩ := ih others
    refine ⟨.propertySignature .synthetic (.name field.1) type false :: members, ?_,
      .cons holds holdsRest⟩
    simp only [memberSyntax, written, writtenRest]
    rfl

end Shape

/-- A key without line feeds is read back as its settled form. -/
theorem settledKey_name {t : Text} (oneLine : .scalar '\n' ∉ t) :
    SettledKey (MemberKey.settled (.name t)) := by
  by_cases plain : Key.isPlain t = true
  case neg =>
    rw [MemberKey.settled, MemberKey.text, if_neg plain]
    exact .string (by simpa using plain) oneLine
  case pos =>
    rw [MemberKey.settled, MemberKey.text, if_pos plain]
    have noFeed : t.getLast? ≠ some (.scalar '\n') := fun last =>
      oneLine (List.mem_of_getLast? last)
    rw [Key.isPlain_eq, if_neg noFeed] at plain
    exact .name plain

namespace Shape

variable {inResult : Bool} {known : List Text}

/-- The type syntax of a shape is read back in its settled form. -/
structure Settles (inResult : Bool) (shape : Shape) (type : Node) : Prop where
  fits : FitsType inResult .single type.settled
  object : isLiteral type.settled = true → shape.isObject = true

theorem settled_members {members : List Node} :
    (Node.typeLiteral .synthetic members).settled =
      .typeLiteral .synthetic (members.map Node.settled) := by
  rw [Node.settled_eq]
  rfl

theorem settled_reference {name : Text} {arguments : List Node} :
    (Node.typeReference .synthetic name arguments).settled =
      .typeReference .synthetic name (arguments.map Node.settled) := by
  rw [Node.settled_eq]
  rfl

theorem settled_union {members : List Node} :
    (unionSyntax members).settled = unionSyntax (members.map Node.settled) := by
  match members with
  | [] | [member] => rfl
  | first :: second :: rest =>
    change (Node.unionType .synthetic (first :: second :: rest)).settled = _
    rw [Node.settled_eq]
    rfl

/-- Types with no object type but the first are read back as a union. -/
theorem fits_union {first : Node} {others : List Node}
    (leading : FitsType inResult .single first)
    (each : ∀ m ∈ others, FitsType inResult .single m)
    (noLiteral : inResult = false → ∀ m ∈ others, isLiteral m = false) :
    FitsType inResult .type (unionSyntax (first :: others)) := by
  cases others with
  | nil => exact .single leading
  | cons second rest => exact .union leading (by simp) each noLiteral

theorem Settles.signature {field : Text × Shape} {type : Node}
    (settles : Settles inResult field.2 type) (oneLine : .scalar '\n' ∉ field.1) :
    FitsType inResult .signature
      (Node.propertySignature .synthetic (.name field.1) type false).settled := by
  rw [Node.settled_eq]
  exact .signature (settledKey_name oneLine) (.single settles.fits)

/-- The members for legible fields are read back. -/
theorem memberSyntax_settles (known : List Text) {fields : List (Text × Shape)}
    (each : ∀ field ∈ fields, .scalar '\n' ∉ field.1 ∧
      ∃ type, field.2.toSyntax known = .ok type ∧ Settles inResult field.2 type) :
    ∃ members, memberSyntax known fields = .ok members ∧
      ∀ member ∈ members, FitsType inResult .signature member.settled := by
  obtain ⟨members, written, fit⟩ := memberSyntax_ok known
    (p := fun _ member => FitsType inResult .signature member.settled)
    fun field mem =>
      let ⟨oneLine, type, written, settles⟩ := each field mem
      ⟨type, written, settles.signature oneLine⟩
  refine ⟨members, written, fun member mem => ?_⟩
  obtain ⟨field, -, fits⟩ := exists_of_forall₂ fit.flip mem
  exact fits

/-- The type of a legible shape is read back. -/
theorem Concrete.settles {shape : Shape} (concrete : shape.Concrete)
    (legible : shape.isLegible inResult = true) :
    ∃ type, shape.toSyntax known = .ok type ∧ Settles inResult shape type := by
  induction concrete with
  | any => exact ⟨_, rfl, .word (by decide), by rintro ⟨⟩⟩
  | primitive kind => exact ⟨_, rfl, .word (by cases kind <;> decide), by rintro ⟨⟩⟩
  | object each ih =>
    rw [isLegible, legibleFields_eq, List.all_eq_true] at legible
    obtain ⟨members, written, fits⟩ := memberSyntax_settles known fun field mem => by
      have both := legible field mem
      rw [Bool.and_eq_true] at both
      exact ⟨by simpa using both.1, ih field mem both.2⟩
    refine ⟨.typeLiteral .synthetic members, ?_, ?_, fun _ => rfl⟩
    · simp only [toSyntax, written]
      rfl
    · rw [settled_members]
      exact .literal (List.forall_mem_map.mpr fits)
  | @array elements some each ih =>
    cases elements with
    | nil => exact absurd rfl some
    | cons first rest =>
      simp only [isLegible, legibleAll_eq, Bool.and_eq_true, List.all_eq_true] at legible
      obtain ⟨⟨here, others⟩, noObject⟩ := legible
      obtain ⟨⟨head, written, settles⟩, later⟩ := List.forall_mem_cons.mp
        (show ∀ element ∈ first :: rest, _ from fun element mem => ih element mem (by
          rcases List.mem_cons.mp mem with rfl | mem
          · exact here
          · exact others element mem))
      obtain ⟨tail, writtenRest, settlesRest⟩ := toSyntaxAll_ok later
      refine ⟨.typeReference .synthetic "Array" [unionSyntax (head :: tail)], ?_, ?_, by rintro ⟨⟩⟩
      · simp only [toSyntax, written, writtenRest]
        rfl
      · rw [settled_reference, List.map_singleton, settled_union, List.map_cons]
        refine .applied ⟨rfl, rfl⟩ (by simp) (List.forall_mem_singleton.mpr ?_)
        refine fits_union settles.fits (List.forall_mem_map.mpr fun m mem => ?_) fun elsewhere =>
          List.forall_mem_map.mpr fun m mem => ?_
        · obtain ⟨shape, -, settles⟩ := exists_of_forall₂ settlesRest.flip mem
          exact settles.fits
        · obtain ⟨shape, inside, settles⟩ := exists_of_forall₂ settlesRest.flip mem
          rw [Bool.eq_false_iff]
          intro literal
          simp only [elsewhere, Bool.false_or, List.all_eq_true, Bool.not_eq_true'] at noObject
          exact absurd (settles.object literal) (by simp [noObject shape inside])

end Shape

namespace InterfaceName

theorem toUpper_alpha {c : Char} (alpha : c.isAlpha = true) :
    c.toUpper.isAlpha = true ∧ c.toUpper.isLower = false := by
  by_cases lower : 'a'.val ≤ c.val ∧ c.val ≤ 'z'.val
  · have letters : ∀ n < 26, (Char.ofNat (97 + n)).toUpper.isAlpha = true ∧
        (Char.ofNat (97 + n)).toUpper.isLower = false := by decide
    rw [UInt32.le_iff_toNat_le, UInt32.le_iff_toNat_le] at lower
    change 97 ≤ c.toNat ∧ c.toNat ≤ 122 at lower
    have letter := letters (c.toNat - 97) (by omega)
    rwa [show 97 + (c.toNat - 97) = c.toNat by omega, Char.ofNat_toNat] at letter
  · have same : c.toUpper = c := dif_neg lower
    rw [same]
    refine ⟨alpha, ?_⟩
    delta Char.isLower
    simpa using lower

/-- A text that does not start with a small letter. -/
def StartsLarge (t : Text) : Prop := ∀ c ∈ t.head?, c.satisfies Char.isLower = false

theorem startsLarge_capitalized {name : Text} (word : isWordText name = true) :
    isWordText (capitalized name) = true ∧ StartsLarge (capitalized name) := by
  match name with
  | .scalar c :: rest =>
    simp only [isWordText, isWordStart, CodePoint.satisfies, Bool.and_eq_true, Bool.or_eq_true,
      decide_eq_true_eq] at word
    obtain ⟨start, parts⟩ := word
    rcases start with (alpha | rfl) | rfl
    · obtain ⟨stays, large⟩ := toUpper_alpha alpha
      refine ⟨?_, fun first isFirst => ?_⟩
      · simp [capitalized, upper, isWordText, isWordStart, CodePoint.satisfies, stays, parts]
      · obtain rfl := Option.mem_some.mp isFirst
        exact large
    all_goals
      refine ⟨Bool.and_eq_true_iff.mpr ⟨rfl, parts⟩, fun first isFirst => ?_⟩
      obtain rfl := Option.mem_some.mp isFirst
      rfl

/-- Every word that starts with a small letter differs from a text that does not. -/
theorem StartsLarge.ne {t word : Text} (large : StartsLarge t)
    (small : word.head?.any (·.satisfies Char.isLower) = true) : word ≠ t := by
  rintro rfl
  cases word with
  | nil => cases small
  | cons c rest => exact absurd small (by simp [large c rfl])

/-- A word that does not start with a small letter names a type of its own. -/
theorem StartsLarge.isName {t : Text} (word : isWordText t = true) (large : StartsLarge t) :
    IsName t ∧ t ∉ Parse.keywordTypes := by
  refine ⟨⟨word, ?_⟩, fun mem => ?_⟩
  · refine List.find?_eq_none.mpr fun k _ => ?_
    have small : k.spelling.head?.any (·.satisfies Char.isLower) = true := by cases k <;> decide
    simpa using large.ne small
  · have small : ∀ w ∈ Parse.keywordTypes, w.head?.any (·.satisfies Char.isLower) = true := by
      decide
    exact large.ne (small t mem) rfl

/-- Every candidate for a variable names a type of its own. -/
theorem isName_candidate {name : Text} (word : isWordText name = true) (turn : Nat) :
    IsName (candidate (capitalized name) turn) ∧
      candidate (capitalized name) turn ∉ Parse.keywordTypes := by
  obtain ⟨isWord, large⟩ := startsLarge_capitalized word
  cases turn with
  | zero => exact large.isName isWord
  | succ turn =>
    rw [candidate]
    cases base : capitalized name with
    | nil => rw [base] at isWord; cases isWord
    | cons c rest =>
      rw [base] at isWord large
      refine StartsLarge.isName ?_ large
      rw [isWordText, Bool.and_eq_true, List.all_eq_true] at isWord
      rw [List.cons_append, isWordText, Bool.and_eq_true, List.all_append, Bool.and_eq_true]
      refine ⟨isWord.1, List.all_eq_true.mpr isWord.2, List.all_eq_true.mpr fun d mem => ?_⟩
      obtain ⟨digit, isDigit, rfl⟩ := List.mem_map.mp mem
      have := Nat.isDigit_of_mem_toDigits (by decide) (by decide) isDigit
      simp [isWordPart, CodePoint.satisfies, Char.isAlphanum, this]

end InterfaceName

namespace Facts

open InterfaceName (candidate capitalized)

variable {reserved : List Text} {state : State} {p : Text → Prop}

theorem keys_declarator (holds : ∀ key ∈ state.record.interfaces.keys, p key) (name : Node)
    (candidates : ∀ turn, p (candidate (capitalized name.name) turn)) (initializer : Node) :
    ∀ key ∈ (declarator reserved state name initializer).2.record.interfaces.keys, p key := by
  simp only [declarator]
  split
  case h_1 fields isObject =>
    simp only [interfaceFor, Table.keys_insert]
    obtain ⟨turn, chosen, -⟩ := InterfaceName.search_eq
      (InterfaceName.isTaken reserved state.record.interfaces (.object fields))
      (capitalized name.name) (reserved.length + state.record.interfaces.length) 0
    split
    · exact holds
    · refine List.forall_mem_append.mpr ⟨holds, List.forall_mem_singleton.mpr ?_⟩
      rw [InterfaceName.choose, chosen]
      exact candidates turn
  case h_2 => exact holds

theorem keys_declarators (declared : List Node)
    (holds : ∀ key ∈ state.record.interfaces.keys, p key)
    (candidates : ∀ loc name initializer, Node.declarator loc name initializer ∈ declared →
      ∀ turn, p (candidate (capitalized name.name) turn)) :
    ∀ key ∈ (declarators reserved declared state).2.record.interfaces.keys, p key := by
  induction declared generalizing state with
  | nil => exact holds
  | cons node rest ih =>
    have later (loc name initializer) (mem : Node.declarator loc name initializer ∈ rest) :=
      candidates loc name initializer (List.mem_cons_of_mem _ mem)
    cases node with
    | declarator loc name initializer =>
      exact ih (keys_declarator holds name
        (candidates loc name initializer List.mem_cons_self) initializer) later
    | _ => exact ih holds later

/-- The names of the interfaces of a record are candidates for declared variables. -/
theorem keys_collect (program : Node) (cache : Cache)
    (candidates : ∀ loc keyword declared, .variableDeclaration loc keyword declared ∈ program.walk →
      ∀ loc name initializer, Node.declarator loc name initializer ∈ declared →
        ∀ turn, p (candidate (capitalized name.name) turn)) :
    ∀ key ∈ (collect program cache).1.interfaces.keys, p key := by
  have holds : ∀ key ∈ ({ cache } : State).record.interfaces.keys, p key := nofun
  unfold collect
  generalize Facts.reserved program = reserved
  generalize ({ cache } : State) = start at holds ⊢
  generalize program.walk = nodes at candidates ⊢
  induction nodes generalizing start with
  | nil => exact holds
  | cons node rest ih =>
    refine ih _ ?_ fun loc keyword declared mem =>
      candidates loc keyword declared (List.mem_cons_of_mem _ mem)
    cases node with
    | variableDeclaration loc keyword declared =>
      exact keys_declarators declared holds (candidates loc keyword declared List.mem_cons_self)
    | returnStatement loc argument =>
      simp only [visit]
      split <;> exact holds
    | _ => exact holds

end Facts

end TypeGloss
