import TypeGloss.Token.Scan
import Mathlib.Data.List.TakeWhile
import Mathlib.Tactic.ByContra

/-!
# Lexemes

Each kind of token has its spellings. A text that starts with a spelling starts with a token of that
kind, if what follows does not become part of it; and every token that is found is spelled as its
kind is. The two statements together say that printed tokens are found again.
-/

namespace TypeGloss

namespace Lexeme

/-- Whether a text is a word, reserved or not. -/
def isWordText : Text → Bool
  | [] => false
  | c :: rest => isWordStart c && rest.all isWordPart

/-- A text that names something. -/
def IsName (t : Text) : Prop := isWordText t = true ∧ Keyword.ofSpelling? t = none

/-- The spelling of a number. -/
def IsNumber (t : Text) : Prop := number? t = some t.length

/-- The spelling of a quoted string. -/
def IsString (t : Text) : Prop := quoted? t = some ⟨some .string, t.length⟩

/-- The spelling of a template. -/
def IsTemplate (t : Text) : Prop := quoted? t = some ⟨some .template, t.length⟩

theorem runLength_take (p : CodePoint → Bool) (t : Text) :
    ∀ n : Nat, runLength p (t.take n) = min n (runLength p t) := by
  induction t with
  | nil => intro n; simp [runLength]
  | cons c rest ih =>
    intro n
    cases n with
    | zero => simp [runLength]
    | succ n =>
      have rest_eq := ih n
      unfold runLength at rest_eq ⊢
      rw [List.take_succ_cons, List.takeWhile_cons, List.takeWhile_cons]
      split
      · rw [List.length_cons, List.length_cons, rest_eq]
        omega
      · simp

/-- A run that ends with the text, or before its end, is not prolonged by a text that starts with
something else. -/
theorem runLength_append (p : CodePoint → Bool) (t : Text) {rest : Text}
    (stop : ∀ c ∈ rest.head?, p c = false) : runLength p (t ++ rest) = runLength p t := by
  unfold runLength
  induction t with
  | nil =>
    cases rest with
    | nil => rfl
    | cons c rest => simp [stop c rfl]
  | cons c t ih =>
    rw [List.cons_append, List.takeWhile_cons, List.takeWhile_cons]
    split
    · rw [List.length_cons, List.length_cons, ih]
    · rfl

theorem runLength_le (p : CodePoint → Bool) (t : Text) : runLength p t ≤ t.length :=
  List.Sublist.length_le (List.takeWhile_sublist p)

/-- The part of a text up to a closing quote ends there whatever follows it. -/
theorem quotedEnd?_split (quote : Char) (multiline : Bool) (t : Text) :
    ∀ {count n : Nat}, quotedEnd? quote multiline count t = some n →
      ∃ body rest, t = body ++ rest ∧ body ≠ [] ∧ n = count + body.length ∧
        ∀ other, quotedEnd? quote multiline count (body ++ other) = some n := by
  intro count
  fun_induction quotedEnd? quote multiline count t with
  | case1 => intro n h; cases h
  | case2 count =>
    intro n h
    obtain rfl := Option.some.inj h
    refine ⟨[.scalar quote], [], rfl, List.cons_ne_nil _ _, rfl, fun other => ?_⟩
    cases other <;> simp [quotedEnd?]
  | case3 => intro n h; cases h
  | case4 count d rest =>
    intro n h
    obtain rfl := Option.some.inj h
    refine ⟨[.scalar quote], d :: rest, rfl, List.cons_ne_nil _ _, rfl, fun other => ?_⟩
    cases other <;> simp [quotedEnd?]
  | case5 count d rest notClosing ih =>
    intro n h
    obtain ⟨body, tail, rfl, nonempty, rfl, ends⟩ := ih h
    refine ⟨.scalar '\\' :: d :: body, tail, rfl, List.cons_ne_nil _ _, by simp; omega,
      fun other => ?_⟩
    rw [List.cons_append, List.cons_append, quotedEnd?, if_neg notClosing, if_pos rfl, ends]
  | case6 => intro n h; cases h
  | case7 count c d rest notClosing notEscape allowed ih =>
    intro n h
    obtain ⟨body, tail, split, nonempty, rfl, ends⟩ := ih h
    refine ⟨c :: body, tail, by rw [split, List.cons_append], List.cons_ne_nil _ _,
      by simp; omega, fun other => ?_⟩
    obtain ⟨e, body, rfl⟩ := List.exists_cons_of_ne_nil nonempty
    rw [List.cons_append, List.cons_append, quotedEnd?, if_neg notClosing, if_neg notEscape,
      if_neg allowed]
    exact ends other

/-- A quoted string or a template has its spelling, whatever follows it. -/
theorem quoted?_split {t : Text} {lexeme : Lexeme} (found : quoted? t = some lexeme) :
    ∃ body rest, t = body ++ rest ∧ lexeme.length = body.length ∧
      ∀ other, quoted? (body ++ other) = some lexeme := by
  unfold quoted? at found
  split at found
  all_goals try cases found
  all_goals
    obtain ⟨n, ends, rfl⟩ := Option.map_eq_some_iff.mp found
    obtain ⟨body, rest, rfl, -, rfl, same⟩ := quotedEnd?_split _ _ _ ends
    refine ⟨_ :: body, rest, rfl, by simp; omega, fun other => ?_⟩
    simp [quoted?, same]

private theorem isWordPart_of_between {c : Char}
    (between : (48 ≤ c.toNat ∧ c.toNat ≤ 57) ∨ (65 ≤ c.toNat ∧ c.toNat ≤ 90) ∨
      (97 ≤ c.toNat ∧ c.toNat ≤ 122)) : isWordPart (.scalar c) = true := by
  delta isWordPart CodePoint.satisfies Char.isAlphanum Char.isAlpha Char.isUpper Char.isLower
    Char.isDigit
  simp only [ge_iff_le, UInt32.le_iff_toNat_le, Bool.or_eq_true, Bool.and_eq_true,
    decide_eq_true_eq]
  simp
  omega

private theorem isWordPart_of_isHexDigit {c : CodePoint} (digit : isHexDigit c = true) :
    isWordPart c = true := by
  cases c with
  | surrogate offset => cases digit
  | scalar c =>
    apply isWordPart_of_between
    simp only [isHexDigit, Text.hexDigit?, Char.le_def, UInt32.le_iff_toNat_le] at digit
    simp only [Char.toNat]
    split at digit
    · simp at *; omega
    · split at digit
      · simp at *; omega
      · split at digit
        · simp at *; omega
        · cases digit

/-- The digits behind a radix mark may stand inside a word. -/
theorem isWordPart_of_radixDigits {mark c : CodePoint} {isDigit : CodePoint → Bool}
    (found : radixDigits? mark = some isDigit) (digit : isDigit c = true) :
    isWordPart c = true := by
  unfold radixDigits? at found
  split at found
  · obtain rfl := Option.some.inj found
    exact isWordPart_of_isHexDigit digit
  split at found
  · obtain rfl := Option.some.inj found
    simp only [isBinaryDigit, Bool.or_eq_true, decide_eq_true_eq] at digit
    rcases digit with rfl | rfl <;> decide
  split at found
  · obtain rfl := Option.some.inj found
    cases c with
    | surrogate offset => cases digit
    | scalar c =>
      apply isWordPart_of_between
      simp only [isOctalDigit, CodePoint.satisfies, Bool.and_eq_true, decide_eq_true_eq,
        Char.le_def, UInt32.le_iff_toNat_le] at digit
      simp only [Char.toNat]
      simp at *
      omega
  · cases found

private theorem radixNumber?_shape {t : Text} {n : Nat} (found : radixNumber? t = some n) :
    ∃ mark rest isDigit, t = .scalar '0' :: mark :: rest ∧ radixDigits? mark = some isDigit ∧
      runLength isDigit rest ≠ 0 ∧ n = runLength isDigit rest + 2 := by
  unfold radixNumber? at found
  split at found
  case h_2 => cases found
  case h_1 mark rest =>
  split at found
  case h_2 => cases found
  case h_1 isDigit digits =>
  simp only at found
  split at found
  case isTrue => cases found
  case isFalse nonzero =>
  exact ⟨mark, rest, isDigit, rfl, digits, nonzero, (Option.some.inj found).symm⟩

private theorem radixNumber?_of_shape {mark : CodePoint} {rest : Text} {isDigit : CodePoint → Bool}
    (digits : radixDigits? mark = some isDigit) (nonzero : runLength isDigit rest ≠ 0) :
    radixNumber? (.scalar '0' :: mark :: rest) = some (runLength isDigit rest + 2) := by
  simp only [radixNumber?, digits, if_neg nonzero]

private theorem radixNumber?_take {t : Text} {n : Nat} (found : radixNumber? t = some n) :
    radixNumber? (t.take n) = some n := by
  obtain ⟨mark, rest, isDigit, rfl, digits, nonzero, rfl⟩ := radixNumber?_shape found
  rw [List.take_succ_cons, List.take_succ_cons]
  have same : runLength isDigit (rest.take (runLength isDigit rest)) = runLength isDigit rest := by
    rw [runLength_take, Nat.min_self]
  rw [radixNumber?_of_shape digits (by rwa [same]), same]

private theorem radixNumber?_take_none {t : Text} (none : radixNumber? t = none) (n : Nat) :
    radixNumber? (t.take n) = .none := by
  by_contra some
  obtain ⟨m, found⟩ := Option.ne_none_iff_exists'.mp some
  obtain ⟨mark, rest, isDigit, shape, digits, nonzero, -⟩ := radixNumber?_shape found
  obtain ⟨rest', rfl⟩ : ∃ rest', t = .scalar '0' :: mark :: rest' := by
    match t, n with
    | [], _ => simp at shape
    | _, 0 => simp at shape
    | [_], _ + 1 => simp at shape
    | _ :: _ :: _, 1 => simp at shape
    | _ :: _ :: _, _ + 2 =>
      simp only [List.take_succ_cons, List.cons.injEq] at shape
      exact ⟨_, by rw [shape.1, shape.2.1]⟩
  have cut : rest = rest'.take (n - 2) := by
    match n, shape with
    | n + 2, shape => simpa using shape.symm
  have nonzero' : runLength isDigit rest' ≠ 0 := by
    rw [cut, runLength_take] at nonzero
    omega
  rw [radixNumber?_of_shape digits nonzero'] at none
  cases none

private theorem fractionLength_cons {c : CodePoint} {rest : Text} (other : c ≠ .scalar '.') :
    fractionLength (c :: rest) = 0 := by
  unfold fractionLength
  split
  · simp_all
  · rfl

private theorem fractionLength_take {t : Text} {n : Nat} (within : fractionLength t ≤ n) :
    fractionLength (t.take n) = fractionLength t := by
  match t, n with
  | [], n => simp
  | c :: rest, 0 => simpa [fractionLength] using (Nat.le_zero.mp within).symm
  | c :: rest, n + 1 =>
    rw [List.take_succ_cons]
    by_cases point : c = .scalar '.'
    · subst point
      simp only [fractionLength, runLength_take] at within ⊢
      split at within
      · simp_all
      · rw [Nat.min_eq_right (by omega)]
    · rw [fractionLength_cons point, fractionLength_cons point]

/-- The number of code points of a sign before the digits of an exponent. -/
private def signLength (t : Text) : Nat :=
  if t.head? = some (.scalar '+') ∨ t.head? = some (.scalar '-') then 1 else 0

private theorem exponentLength_cons (c : CodePoint) (rest : Text) :
    exponentLength (c :: rest) =
      if c = .scalar 'e' ∨ c = .scalar 'E' then
        if runLength CodePoint.isDecimalDigit (rest.drop (signLength rest)) = 0 then 0
        else 1 + signLength rest +
          runLength CodePoint.isDecimalDigit (rest.drop (signLength rest))
      else 0 := by
  cases c with
  | surrogate => simp [exponentLength]
  | scalar e =>
    match rest with
    | [] => simp [exponentLength, signLength]
    | d :: rest =>
      by_cases plus : d = .scalar '+'
      · simp [plus, exponentLength, signLength]
      by_cases minus : d = .scalar '-'
      · simp [minus, exponentLength, signLength]
      have sign : signLength (d :: rest) = 0 := by simp [signLength, plus, minus]
      simp only [exponentLength, CodePoint.scalar.injEq, sign]
      split <;> simp_all

private theorem exponentLength_take {t : Text} {n : Nat} (within : exponentLength t ≤ n) :
    exponentLength (t.take n) = exponentLength t := by
  match t, n with
  | [], n => simp
  | c :: rest, 0 => simpa [exponentLength] using (Nat.le_zero.mp within).symm
  | c :: rest, n + 1 =>
    rw [List.take_succ_cons]
    simp only [exponentLength_cons] at within ⊢
    split at within
    case isFalse isE => simp [isE]
    case isTrue isE =>
    simp only [isE, if_true]
    by_cases whole : n = 0
    · subst whole
      split at within
      case isTrue zero => simp [zero, show runLength CodePoint.isDecimalDigit [] = 0 from rfl]
      case isFalse => omega
    · have sameSign : signLength (rest.take n) = signLength rest := by
        simp [signLength, List.head?_take, whole]
      rw [sameSign, List.drop_take, runLength_take]
      split at within
      case isTrue zero => simp [zero]
      case isFalse some =>
        rw [Nat.min_eq_right (by omega)]

private theorem decimalNumber?_take {t : Text} {n : Nat} (found : decimalNumber? t = some n) :
    decimalNumber? (t.take n) = some n := by
  simp only [decimalNumber?] at found ⊢
  split at found
  case isTrue => cases found
  case isFalse some =>
  have total := Option.some.inj found
  have whole : runLength CodePoint.isDecimalDigit (t.take n) =
      runLength CodePoint.isDecimalDigit t := by
    rw [runLength_take]
    omega
  rw [whole, List.drop_take, fractionLength_take (by omega), if_neg some, List.drop_take,
    exponentLength_take (by omega), total]

/-- A number stays one when the text behind it is cut off. -/
theorem number?_take {t : Text} {n : Nat} (found : number? t = some n) :
    number? (t.take n) = some n := by
  simp only [number?, Option.or_eq_some_iff] at found ⊢
  rcases found with found | ⟨none, found⟩
  · exact .inl (radixNumber?_take found)
  · exact .inr ⟨radixNumber?_take_none none n, decimalNumber?_take found⟩

private theorem fractionLength_le (t : Text) : fractionLength t ≤ t.length := by
  match t with
  | [] => simp [fractionLength]
  | c :: rest =>
    by_cases point : c = .scalar '.'
    · subst point
      have bound := runLength_le CodePoint.isDecimalDigit rest
      simp only [fractionLength, List.length_cons]
      split <;> omega
    · simp [fractionLength_cons point]

private theorem exponentLength_le (t : Text) : exponentLength t ≤ t.length := by
  match t with
  | [] => simp [exponentLength]
  | c :: rest =>
    rw [exponentLength_cons]
    have bound := runLength_le CodePoint.isDecimalDigit (rest.drop (signLength rest))
    rw [List.length_drop] at bound
    rw [List.length_cons]
    split
    · split <;> omega
    · omega

/-- A number is no longer than the text that starts with it. -/
theorem number?_le {t : Text} {n : Nat} (found : number? t = some n) : n ≤ t.length := by
  simp only [number?, Option.or_eq_some_iff] at found
  rcases found with found | ⟨-, found⟩
  · obtain ⟨mark, rest, isDigit, rfl, -, -, rfl⟩ := radixNumber?_shape found
    simpa using runLength_le isDigit rest
  · simp only [decimalNumber?] at found
    split at found
    case isTrue => cases found
    case isFalse =>
    obtain rfl := Option.some.inj found
    have whole := runLength_le CodePoint.isDecimalDigit t
    have fraction := fractionLength_le (t.drop (runLength CodePoint.isDecimalDigit t))
    have exponent := exponentLength_le (t.drop (runLength CodePoint.isDecimalDigit t +
      fractionLength (t.drop (runLength CodePoint.isDecimalDigit t))))
    simp only [List.length_drop] at fraction exponent
    omega

private theorem isWordPart_of_radixMark {mark : CodePoint} {isDigit : CodePoint → Bool}
    (found : radixDigits? mark = some isDigit) : isWordPart mark = true := by
  unfold radixDigits? at found
  split at found
  case isTrue marks => rcases marks with rfl | rfl <;> decide
  split at found
  case isTrue marks => rcases marks with rfl | rfl <;> decide
  split at found
  case isTrue marks => rcases marks with rfl | rfl <;> decide
  cases found

/-- What may follow a number directly. -/
structure StopsNumber (rest : Text) : Prop where
  noWord : ∀ c ∈ rest.head?, isWordPart c = false
  noDigit : ∀ c ∈ rest.head?, c.isDecimalDigit = false
  noFraction : fractionLength rest = 0

private theorem radixNumber?_append {t rest : Text} (stops : StopsNumber rest) (some : t ≠ [])
    (none : radixNumber? t = none) : radixNumber? (t ++ rest) = .none := by
  by_contra found
  obtain ⟨n, found⟩ := Option.ne_none_iff_exists'.mp found
  obtain ⟨mark, digitsText, isDigit, shape, digits, nonzero, -⟩ := radixNumber?_shape found
  match t, some with
  | [_], _ =>
    -- The mark would be the first code point behind the text.
    have isMark : isWordPart mark = false := stops.noWord mark (by simp_all)
    rw [isWordPart_of_radixMark digits] at isMark
    cases isMark
  | zero :: mark' :: t, _ =>
    simp only [List.cons_append, List.cons.injEq] at shape
    obtain ⟨rfl, rfl, rfl⟩ := shape
    rw [runLength_append] at nonzero
    · rw [radixNumber?_of_shape digits nonzero] at none
      cases none
    · intro c first
      by_contra digit
      have word := isWordPart_of_radixDigits digits (Bool.not_eq_false _ ▸ digit)
      rw [stops.noWord c first] at word
      cases word

private theorem fractionLength_append {rest : Text} (stops : StopsNumber rest) (t : Text) :
    fractionLength (t ++ rest) = fractionLength t := by
  match t with
  | [] => exact stops.noFraction
  | c :: t =>
    rw [List.cons_append]
    by_cases point : c = .scalar '.'
    · subst point
      simp only [fractionLength, runLength_append _ _ stops.noDigit]
    · rw [fractionLength_cons point, fractionLength_cons point]

private theorem exponentLength_append {t rest : Text} (stops : StopsNumber rest)
    (whole : exponentLength t = t.length) : exponentLength (t ++ rest) = t.length := by
  match t with
  | [] =>
    match rest with
    | [] => rfl
    | c :: rest =>
      have noWord : isWordPart c = false := stops.noWord c rfl
      rw [List.nil_append, exponentLength_cons, if_neg, List.length_nil]
      rintro (rfl | rfl) <;> simp [isWordPart, CodePoint.satisfies] at noWord
  | c :: t =>
    rw [exponentLength_cons] at whole
    split at whole
    case isFalse => simp at whole
    case isTrue isE =>
    split at whole
    case isTrue => simp at whole
    case isFalse some =>
    have nonempty : t ≠ [] := by
      rintro rfl
      simp [runLength] at some
    have sign : signLength (t ++ rest) = signLength t := by
      obtain ⟨d, t, rfl⟩ := List.exists_cons_of_ne_nil nonempty
      simp [signLength]
    have within : signLength t ≤ t.length := by
      unfold signLength
      have := List.length_pos_iff.mpr nonempty
      split <;> omega
    rw [List.cons_append, exponentLength_cons, if_pos isE, sign,
      List.drop_append_of_le_length within, runLength_append _ _ stops.noDigit, if_neg some, whole]

/-- A number ends where something else starts. -/
theorem number?_append {t rest : Text} (number : IsNumber t) (stops : StopsNumber rest) :
    number? (t ++ rest) = some t.length := by
  unfold IsNumber at number
  simp only [number?, Option.or_eq_some_iff] at number ⊢
  rcases number with number | ⟨none, number⟩
  · left
    obtain ⟨mark, digitsText, isDigit, rfl, digits, nonzero, total⟩ := radixNumber?_shape number
    have same : runLength isDigit (digitsText ++ rest) = runLength isDigit digitsText := by
      apply runLength_append
      intro c first
      by_contra digit
      have word := isWordPart_of_radixDigits digits (Bool.not_eq_false _ ▸ digit)
      rw [stops.noWord c first] at word
      cases word
    rw [List.cons_append, List.cons_append, radixNumber?_of_shape digits (by rwa [same]), same,
      total]
  · right
    have nonempty : t ≠ [] := by
      rintro rfl
      simp [decimalNumber?, runLength, fractionLength] at number
    refine ⟨radixNumber?_append stops nonempty none, ?_⟩
    simp only [decimalNumber?] at number ⊢
    split at number
    case isTrue => cases number
    case isFalse some =>
    have total := Option.some.inj number
    have whole := runLength_le CodePoint.isDecimalDigit t
    have mantissa := fractionLength_le (t.drop (runLength CodePoint.isDecimalDigit t))
    rw [List.length_drop] at mantissa
    rw [runLength_append _ _ stops.noDigit, List.drop_append_of_le_length whole,
      fractionLength_append stops, if_neg some, List.drop_append_of_le_length (by omega),
      exponentLength_append stops (by rw [List.length_drop]; omega), List.length_drop]
    congr 1
    omega

private theorem toNat_of_isDecimalDigit {c : CodePoint} (digit : c.isDecimalDigit = true) :
    ∃ d, c = .scalar d ∧ 48 ≤ d.toNat ∧ (d.toNat ≤ 57 ∨ 0x660 ≤ d.toNat) := by
  cases c with
  | surrogate => cases digit
  | scalar d =>
    refine ⟨d, rfl, ?_⟩
    simp only [CodePoint.isDecimalDigit, CodePoint.decimalDigit?, Option.isSome_map] at digit
    obtain ⟨base, found⟩ := Option.isSome_iff_exists.mp digit
    have zero : base = 0x30 ∨ 0x660 ≤ base := by
      have all : ∀ base ∈ CodePoint.digitZeros, base = 0x30 ∨ 0x660 ≤ base := by decide
      exact all base (List.mem_of_find?_eq_some found)
    have range := List.find?_some found
    simp only [Bool.and_eq_true, decide_eq_true_eq] at range
    omega

/-- A letter that starts a word is no digit. -/
theorem isDecimalDigit_of_isWordStart {c : CodePoint} (start : isWordStart c = true) :
    c.isDecimalDigit = false := by
  by_contra digit
  obtain ⟨d, rfl, low, high⟩ := toNat_of_isDecimalDigit (Bool.not_eq_false _ ▸ digit)
  delta isWordStart CodePoint.satisfies Char.isAlpha Char.isUpper Char.isLower at start
  simp only [Bool.or_eq_true, Bool.and_eq_true, decide_eq_true_eq, ge_iff_le,
    UInt32.le_iff_toNat_le] at start
  rcases start with (start | rfl) | rfl
  · simp at start
    omega
  · simp at low high
  · simp at low

theorem isWordPart_of_isWordStart {c : CodePoint} (start : isWordStart c = true) :
    isWordPart c = true := by
  cases c with
  | surrogate => cases start
  | scalar c =>
    simp only [isWordStart, isWordPart, CodePoint.satisfies, Char.isAlphanum, Bool.or_eq_true,
      decide_eq_true_eq] at start ⊢
    rcases start with (start | start) | start <;> simp [start]

/-- A text that starts with neither a digit nor a point before a digit starts with no number. -/
theorem number?_eq_none {c : CodePoint} {rest : Text} (noDigit : c.isDecimalDigit = false)
    (noFraction : fractionLength (c :: rest) = 0) : number? (c :: rest) = none := by
  have notZero : c ≠ .scalar '0' := by
    rintro rfl
    revert noDigit
    decide
  simp only [number?, Option.or_eq_none_iff]
  constructor
  · by_contra found
    obtain ⟨n, found⟩ := Option.ne_none_iff_exists'.mp found
    obtain ⟨mark, digits, isDigit, shape, -⟩ := radixNumber?_shape found
    exact notZero (List.cons.inj shape).1
  · have whole : runLength CodePoint.isDecimalDigit (c :: rest) = 0 := by
      simp [runLength, noDigit]
    simp [decimalNumber?, whole, noFraction]

/-- The word that a text starts with, if its letters end where something else starts. -/
theorem ofText?_word {t rest : Text} (word : isWordText t = true)
    (stops : ∀ c ∈ rest.head?, isWordPart c = false) :
    ofText? (t ++ rest) =
      some ⟨some ((Keyword.ofSpelling? t).elim .name .keyword), t.length⟩ := by
  match t with
  | c :: t =>
    simp only [isWordText, Bool.and_eq_true, List.all_eq_true] at word
    have notPoint : c ≠ .scalar '.' := by
      rintro rfl
      exact absurd word.1 (by decide)
    have letters : (c :: (t ++ rest)).takeWhile isWordPart = c :: t := by
      rw [← List.cons_append, List.takeWhile_append_of_pos]
      · cases rest with
        | nil => simp
        | cons d rest => simp [stops d rfl]
      · intro d mem
        rcases List.mem_cons.mp mem with rfl | mem
        · exact isWordPart_of_isWordStart word.1
        · exact word.2 d mem
    rw [List.cons_append, ofText?, number?_eq_none (isDecimalDigit_of_isWordStart word.1)
      (fractionLength_cons notPoint)]
    simp only [word.1, if_true, Lexeme.word, letters]

theorem isWordStart_of_isWordText {t : Text} (word : isWordText t = true) :
    ∃ c rest, t = c :: rest ∧ isWordStart c = true := by
  match t with
  | c :: rest =>
    simp only [isWordText, Bool.and_eq_true] at word
    exact ⟨c, rest, rfl, word.1⟩

/-- A number starts with a digit, or with a point. -/
theorem head_of_isNumber {t : Text} (number : IsNumber t) :
    ∃ c rest, t = c :: rest ∧ (c.isDecimalDigit = true ∨ c = .scalar '.') := by
  match t with
  | [] =>
    simp [IsNumber, number?, radixNumber?, decimalNumber?, runLength, fractionLength] at number
  | c :: rest =>
    refine ⟨c, rest, rfl, ?_⟩
    by_contra neither
    simp only [not_or, Bool.not_eq_true] at neither
    rw [IsNumber, number?_eq_none neither.1 (fractionLength_cons neither.2)] at number
    cases number

/-- A number and where it ends. -/
theorem ofText?_number {t rest : Text} (number : IsNumber t) (stops : StopsNumber rest) :
    ofText? (t ++ rest) = some ⟨some .number, t.length⟩ := by
  simp only [ofText?, number?_append number stops]

theorem quoted?_head {t : Text} {lexeme : Lexeme} (found : quoted? t = some lexeme) :
    ∃ c rest, t = c :: rest ∧ (c = .scalar '"' ∨ c = .scalar '\'' ∨ c = .scalar '`') := by
  unfold quoted? at found
  split at found
  · exact ⟨_, _, rfl, .inl rfl⟩
  · exact ⟨_, _, rfl, .inr (.inl rfl)⟩
  · exact ⟨_, _, rfl, .inr (.inr rfl)⟩
  · cases found

private theorem quoted?_kind {t : Text} {kind : TokenKind} {n : Nat}
    (found : quoted? t = some ⟨some kind, n⟩) : kind = .string ∨ kind = .template := by
  unfold quoted? at found
  split at found
  all_goals simp at found
  · exact .inl found.2.symm
  · exact .inl found.2.symm
  · exact .inr found.2.symm

/-- What is quoted is found whatever follows it. -/
theorem ofText?_quoted {t rest : Text} {kind : TokenKind}
    (quoted : quoted? t = some ⟨some kind, t.length⟩) :
    ofText? (t ++ rest) = some ⟨some kind, t.length⟩ := by
  obtain ⟨body, tail, rfl, length, same⟩ := quoted?_split quoted
  obtain rfl : tail = [] := by
    rw [← List.length_eq_zero_iff]
    simp only [List.length_append] at length
    omega
  rw [List.append_nil] at quoted length ⊢
  obtain ⟨c, body, rfl, quote⟩ := quoted?_head quoted
  have shape := same rest
  rw [List.cons_append] at shape ⊢
  have noNumber : number? (c :: (body ++ rest)) = none := by
    apply number?_eq_none
    · rcases quote with rfl | rfl | rfl <;> decide
    · apply fractionLength_cons
      rcases quote with rfl | rfl | rfl <;> decide
  have noWord : isWordStart c = false := by rcases quote with rfl | rfl | rfl <;> decide
  have noBlank : isBlank c = false := by rcases quote with rfl | rfl | rfl <;> decide
  simp [ofText?, noNumber, noWord, noBlank, shape]

/-- Whether a code point directly behind a sign would be read together with it. -/
def glues (sign : Text) (c : CodePoint) : Bool :=
  (signs.any fun other => (sign ++ [c]).isPrefixOf other.1) ||
    (sign = "." && c.isDecimalDigit) || (sign = "/" && (c = .scalar '/' || c = .scalar '*'))

/-- How a sign may start, so that it is read as nothing else. -/
private def startsAsSign : Text → Bool
  | [] => false
  | c :: rest =>
    !c.isDecimalDigit && !isWordStart c && !isBlank c &&
      c ∉ [CodePoint.scalar '"', .scalar '\'', .scalar '`'] &&
      (c ≠ .scalar '.' || rest = []) && (c ≠ .scalar '/' || rest = [] || rest = "=")

private theorem startsAsSign_of_mem {sign : Text × TokenKind} (mem : sign ∈ signs) :
    startsAsSign sign.1 = true := by
  have all : ∀ sign ∈ signs, startsAsSign sign.1 = true := by decide +kernel
  exact all sign mem

private theorem sign?_append {t rest : Text} {kind : TokenKind} (mem : (t, kind) ∈ signs)
    (apart : ∀ c ∈ rest.head?, glues t c = false) :
    sign? (t ++ rest) = some ⟨some kind, t.length⟩ := by
  have first : ∀ sign ∈ signs,
      signs.find? (fun other => other.1.isPrefixOf sign.1) = some sign := by decide +kernel
  have same : ∀ other ∈ signs, other.1.isPrefixOf (t ++ rest) = other.1.isPrefixOf t := by
    intro other otherMem
    rw [Bool.eq_iff_iff, List.isPrefixOf_iff_prefix, List.isPrefixOf_iff_prefix]
    constructor
    · intro starts
      rcases Nat.lt_or_ge t.length other.1.length with long | short
      · -- A longer sign would contain the first code point behind this one.
        exfalso
        match rest with
        | [] =>
          have := starts.length_le
          simp at this
          omega
        | c :: rest =>
          have glued : (t ++ [c]) <+: other.1 := by
            apply List.prefix_of_prefix_length_le _ starts
            · simp; omega
            · exact ⟨rest, by simp⟩
          have noGlue := apart c rfl
          simp only [glues, Bool.or_eq_false_iff, List.any_eq_false, List.isPrefixOf_iff_prefix]
            at noGlue
          exact noGlue.1.1 other otherMem glued
      · exact List.prefix_of_prefix_length_le starts (List.prefix_append t rest) short
    · exact fun starts => starts.trans (List.prefix_append t rest)
  have found : signs.find? (fun other => other.1.isPrefixOf (t ++ rest)) = some (t, kind) := by
    rw [← first _ mem]
    rw [← List.head?_filter, ← List.head?_filter, List.filter_congr same]
  rw [sign?, found]
  rfl

private theorem comment?_cons {c : CodePoint} {rest : Text} (other : c ≠ .scalar '/') :
    comment? (c :: rest) = none := by
  unfold comment?
  split <;> simp_all

/-- A sign that is not prolonged by what follows it. -/
theorem ofText?_sign {t rest : Text} {kind : TokenKind} (mem : (t, kind) ∈ signs)
    (apart : ∀ c ∈ rest.head?, glues t c = false) :
    ofText? (t ++ rest) = some ⟨some kind, t.length⟩ := by
  have sign := sign?_append mem apart
  have start := startsAsSign_of_mem mem
  match t with
  | c :: t =>
    simp only [startsAsSign, Bool.and_eq_true, Bool.not_eq_true', decide_eq_true_eq,
      List.mem_cons, List.not_mem_nil, or_false, not_or, Bool.or_eq_true] at start
    obtain ⟨⟨⟨⟨⟨noDigit, noWord⟩, noBlank⟩, noQuote⟩, point⟩, slash⟩ := start
    have noFraction : fractionLength (c :: (t ++ rest)) = 0 := by
      rcases point with point | rfl
      · exact fractionLength_cons point
      · by_cases point : c = .scalar '.'
        · subst point
          rw [List.nil_append, fractionLength]
          have none : runLength CodePoint.isDecimalDigit rest = 0 := by
            match rest with
            | [] => rfl
            | d :: rest =>
              have noGlue := apart d rfl
              simp only [glues, Bool.or_eq_false_iff, Bool.and_eq_false_iff] at noGlue
              rcases noGlue.1.2 with other | noDigit
              · exact absurd other (by decide)
              · simp [runLength, noDigit]
          simp [none]
        · exact fractionLength_cons point
    have noQuoted : quoted? (c :: (t ++ rest)) = none := by
      by_contra found
      obtain ⟨lexeme, found⟩ := Option.ne_none_iff_exists'.mp found
      obtain ⟨d, _, shape, quote⟩ := quoted?_head found
      obtain rfl := (List.cons.inj shape).1
      rcases quote with rfl | rfl | rfl <;> simp at noQuote
    have noComment : comment? (c :: (t ++ rest)) = none := by
      rcases slash with (noSlash | rfl) | rfl
      · exact comment?_cons noSlash
      · by_cases slash : c = .scalar '/'
        · subst slash
          match rest with
          | [] => rfl
          | d :: rest =>
            have noGlue := apart d rfl
            simp only [glues, Bool.or_eq_false_iff, Bool.and_eq_false_iff, decide_eq_false_iff_not]
              at noGlue
            rcases noGlue.2 with other | ⟨noSlash, noStar⟩
            · exact absurd rfl other
            · unfold comment?
              split <;> simp_all
        · exact comment?_cons slash
      · unfold comment?
        split <;> simp_all [Text.ofString]
    rw [List.cons_append] at sign ⊢
    simp only [ofText?, number?_eq_none noDigit noFraction, noWord, noBlank, noQuoted, noComment,
      Bool.false_eq_true, if_false, Option.none_or, sign]

/-- The texts that are tokens of a kind by themselves. -/
def Spells : TokenKind → Text → Prop
  | .name, t => IsName t
  | .keyword word, t => t = word.spelling
  | .number, t => IsNumber t
  | .string, t => IsString t
  | .template, t => IsTemplate t
  | kind, t => (t, kind) ∈ signs

/-- What may stand directly behind a token without becoming part of it. -/
def Stops : TokenKind → Text → Text → Prop
  | .name, _, rest | .keyword _, _, rest => ∀ c ∈ rest.head?, isWordPart c = false
  | .number, _, rest => StopsNumber rest
  | .string, _, _ | .template, _, _ => True
  | _, t, rest => ∀ c ∈ rest.head?, glues t c = false

theorem isWordText_spelling (word : Keyword) : isWordText word.spelling = true := by
  cases word <;> decide

/-- The token that a text starts with, if what follows leaves it alone. -/
theorem ofText?_append {kind : TokenKind} {t rest : Text} (spells : Spells kind t)
    (stops : Stops kind t rest) : ofText? (t ++ rest) = some ⟨some kind, t.length⟩ := by
  cases kind with
  | name =>
    have unreserved : Keyword.ofSpelling? t = none := spells.2
    rw [ofText?_word spells.1 stops, unreserved]
    rfl
  | keyword word =>
    obtain rfl : t = word.spelling := spells
    rw [ofText?_word (isWordText_spelling word) stops, Keyword.ofSpelling?_spelling]
    rfl
  | number => exact ofText?_number spells stops
  | string | template => exact ofText?_quoted spells
  | _ => exact ofText?_sign spells stops

theorem spells_of_mem_signs {kind : TokenKind} {t : Text} (mem : (t, kind) ∈ signs) :
    Spells kind t := by
  have noWord : ∀ sign ∈ signs, sign.2.isKeyword = false ∧
      sign.2 ∉ [TokenKind.name, .number, .string, .template] := by decide
  obtain ⟨noKeyword, noText⟩ := noWord _ mem
  cases kind with
  | name | number | string | template => simp at noText
  | keyword word => cases noKeyword
  | _ => exact mem

private theorem spells_word {c : CodePoint} {rest : Text} (start : isWordStart c = true) :
    isWordText ((c :: rest).takeWhile isWordPart) = true := by
  rw [List.takeWhile_cons, if_pos (isWordPart_of_isWordStart start)]
  simp only [isWordText, start, Bool.true_and, List.all_eq_true]
  intro d mem
  exact List.mem_takeWhile_imp mem

/-- Every token of a text is spelled as its kind is. -/
theorem spells_of_ofText? {t : Text} {kind : TokenKind} {n : Nat}
    (found : ofText? t = some ⟨some kind, n⟩) : Spells kind (t.take n) ∧ (t.take n).length = n := by
  unfold ofText? at found
  split at found
  case h_1 m number =>
    obtain ⟨rfl, rfl⟩ : TokenKind.number = kind ∧ m = n := by simpa using found
    have length : (t.take m).length = m := by
      rw [List.length_take, Nat.min_eq_left (number?_le number)]
    exact ⟨(number?_take number).trans (by rw [length]), length⟩
  case h_2 =>
  split at found
  case h_1 => cases found
  case h_2 c rest _ =>
  split at found
  case isTrue start =>
    have word : isWordText ((c :: rest).takeWhile isWordPart) = true := spells_word start
    simp only [Lexeme.word, Option.some.injEq, Lexeme.mk.injEq] at found
    obtain ⟨rfl, rfl⟩ := found
    have letters : (c :: rest).take ((c :: rest).takeWhile isWordPart).length =
        (c :: rest).takeWhile isWordPart :=
      (List.prefix_iff_eq_take.mp (List.takeWhile_prefix isWordPart)).symm
    rw [letters]
    refine ⟨?_, rfl⟩
    cases reserved : Keyword.ofSpelling? ((c :: rest).takeWhile isWordPart) with
    | none => exact ⟨word, reserved⟩
    | some keyword =>
      have spelling := List.find?_some reserved
      exact (of_decide_eq_true spelling).symm
  split at found
  case isTrue => simp at found
  case isFalse =>
  rw [Option.or_eq_some_iff, Option.or_eq_some_iff] at found
  rcases found with (quoted | ⟨-, comment⟩) | ⟨-, sign⟩
  · have quotedKind := quoted?_kind quoted
    obtain ⟨body, tail, shape, length, same⟩ := quoted?_split quoted
    obtain rfl : n = body.length := length
    have whole := same []
    rw [List.append_nil] at whole
    rw [shape, List.take_left]
    refine ⟨?_, rfl⟩
    rcases quotedKind with rfl | rfl <;> exact whole
  · unfold comment? at comment
    split at comment
    · simp at comment
    · simp at comment
    · cases comment
  · obtain ⟨⟨text, signKind⟩, foundSign, same⟩ := Option.map_eq_some_iff.mp sign
    obtain ⟨rfl, rfl⟩ : signKind = kind ∧ text.length = n := by simpa using same
    have starts := List.find?_some foundSign
    obtain ⟨tail, shape⟩ := List.isPrefixOf_iff_prefix.mp starts
    rw [← shape, List.take_left]
    exact ⟨spells_of_mem_signs (List.mem_of_find?_eq_some foundSign), rfl⟩

/-- The blanks that a text starts with. -/
theorem ofText?_blank {c : CodePoint} {rest : Text} (blank : isBlank c = true) :
    ofText? (c :: rest) = some ⟨none, runLength isBlank (c :: rest)⟩ := by
  have noNumber : number? (c :: rest) = none := by
    cases c with
    | surrogate => cases blank
    | scalar c =>
      simp only [isBlank, CodePoint.satisfies, Bool.or_eq_true, decide_eq_true_eq] at blank
      apply number?_eq_none
      · rcases blank with ((rfl | rfl) | rfl) | rfl <;> decide
      · apply fractionLength_cons
        rcases blank with ((rfl | rfl) | rfl) | rfl <;> decide
  have noWord : isWordStart c = false := by
    cases c with
    | surrogate => rfl
    | scalar c =>
      simp only [isBlank, CodePoint.satisfies, Bool.or_eq_true, decide_eq_true_eq] at blank
      rcases blank with ((rfl | rfl) | rfl) | rfl <;> decide
  simp [ofText?, noNumber, noWord, blank]

end Lexeme

end TypeGloss
