import TypeGloss.Text.DecimalDigit
import TypeGloss.Text.Numeral
import TypeGloss.Token

/-!
# Scanning

A text is cut from the left into lexemes. At each place the forms are tried in a fixed order and the
first that fits is taken at its full length: a number, a quoted string, a template, a comment, a
word, blanks, and then operators with longer ones before shorter ones. Comments and blanks are
dropped; line feeds stay as tokens. A code point that starts no lexeme ends the scan with a fault.
-/

namespace TypeGloss

/-- A code point that starts no lexeme, and its place. -/
structure ScanFault where
  /-- The code point. -/
  point : CodePoint
  /-- Its place. -/
  loc : Location
  deriving DecidableEq, Repr

/-- What the beginning of a text is, and how many code points it takes. -/
structure Lexeme where
  /-- The kind of the token; absent for blanks and comments. -/
  kind? : Option TokenKind
  /-- The number of code points. -/
  length : Nat
  deriving DecidableEq, Repr

namespace Lexeme

/-- The length of the longest beginning whose code points all satisfy a test. -/
def runLength (p : CodePoint → Bool) (t : Text) : Nat := (t.takeWhile p).length

/-- A hexadecimal digit. -/
def isHexDigit (c : CodePoint) : Bool := (Text.hexDigit? c).isSome

/-- A digit of the binary system. -/
def isBinaryDigit (c : CodePoint) : Bool := c = .scalar '0' || c = .scalar '1'

/-- A digit of the octal system. -/
def isOctalDigit (c : CodePoint) : Bool := c.satisfies fun c => '0' ≤ c && c ≤ '7'

/-- The digits that a letter behind a leading zero announces. -/
def radixDigits? (mark : CodePoint) : Option (CodePoint → Bool) :=
  if mark = .scalar 'x' ∨ mark = .scalar 'X' then some isHexDigit
  else if mark = .scalar 'b' ∨ mark = .scalar 'B' then some isBinaryDigit
  else if mark = .scalar 'o' ∨ mark = .scalar 'O' then some isOctalDigit
  else none

/-- The length of a number with a radix mark: a zero, the mark, and at least one digit. -/
def radixNumber? : Text → Option Nat
  | .scalar '0' :: mark :: rest =>
    match radixDigits? mark with
    | some isDigit =>
      let n := runLength isDigit rest
      if n = 0 then none else some (n + 2)
    | none => none
  | _ => none

/-- The length of an exponent: the letter, an optional sign and at least one digit. -/
def exponentLength : Text → Nat
  | .scalar e :: rest =>
    if e = 'e' ∨ e = 'E' then
      let sign := match rest with
        | .scalar '+' :: _ => 1
        | .scalar '-' :: _ => 1
        | _ => 0
      let n := runLength CodePoint.isDecimalDigit (rest.drop sign)
      if n = 0 then 0 else 1 + sign + n
    else 0
  | _ => 0

/-- The length of a fraction: a point and at least one digit. -/
def fractionLength : Text → Nat
  | .scalar '.' :: rest =>
    let n := runLength CodePoint.isDecimalDigit rest
    if n = 0 then 0 else n + 1
  | _ => 0

/-- The length of a decimal number: digits, a fraction, or both, and then an optional exponent. -/
def decimalNumber? (t : Text) : Option Nat :=
  let whole := runLength CodePoint.isDecimalDigit t
  let fraction := fractionLength (t.drop whole)
  let mantissa := whole + fraction
  if mantissa = 0 then none else some (mantissa + exponentLength (t.drop mantissa))

/-- The length of a number. -/
def number? (t : Text) : Option Nat := (radixNumber? t).or (decimalNumber? t)

/-- The length up to and with the closing quote, when `count` code points came before. A backslash
takes the next code point with it, and only some quotes let a line feed in. -/
def quotedEnd? (quote : Char) (multiline : Bool) (count : Nat) : Text → Option Nat
  | [] => none
  | [c] => if c = .scalar quote then some (count + 1) else none
  | c :: d :: rest =>
    if c = .scalar quote then some (count + 1)
    else if c = .scalar '\\' then quotedEnd? quote multiline (count + 2) rest
    else if c = .scalar '\n' ∧ !multiline then none
    else quotedEnd? quote multiline (count + 1) (d :: rest)

/-- The length up to and with the end mark of a block comment. -/
def commentEnd? (count : Nat) : Text → Option Nat
  | .scalar '*' :: .scalar '/' :: _ => some (count + 2)
  | _ :: rest => commentEnd? (count + 1) rest
  | [] => none

/-- A code point that a word may start with. -/
def isWordStart (c : CodePoint) : Bool :=
  c.satisfies fun c => c.isAlpha || c = '_' || c = '$'

/-- A code point that may stand inside a word. -/
def isWordPart (c : CodePoint) : Bool :=
  c.satisfies fun c => c.isAlphanum || c = '_' || c = '$'

/-- A blank inside a line. -/
def isBlank (c : CodePoint) : Bool :=
  c.satisfies fun c => c = ' ' || c = '\t' || c = '\x0c' || c = '\r'

/-- Signs of three code points. -/
def longSigns : List (Text × TokenKind) :=
  [("??=", .compoundAssign), ("||=", .compoundAssign), ("&&=", .compoundAssign),
    ("===", .equality), ("!==", .equality)]

/-- Signs of two code points. -/
def doubleSigns : List (Text × TokenKind) :=
  [("+=", .compoundAssign), ("-=", .compoundAssign), ("*=", .compoundAssign),
    ("/=", .compoundAssign), ("%=", .compoundAssign), ("==", .equality), ("!=", .equality),
    ("=>", .arrow), ("&&", .andOp), ("||", .orOp), ("??", .nullish), ("++", .incDec),
    ("--", .incDec)]

/-- Operators of one code point. -/
def singleOperators : List (Text × TokenKind) :=
  [("=", .assign), ("?", .question), ("+", .additive), ("-", .additive), ("*", .multiplicative),
    ("/", .multiplicative), ("%", .multiplicative), ("!", .bang), ("~", .tilde), ("<", .less),
    (">", .greater), ("|", .bar)]

/-- Brackets, separators and the line feed. -/
def punctuation : List (Text × TokenKind) :=
  [("(", .leftParen), (")", .rightParen), ("\x7b", .leftBrace), ("\x7d", .rightBrace),
    ("[", .leftBracket), ("]", .rightBracket), (",", .comma), (".", .dot), (":", .colon),
    (";", .semicolon), ("\n", .newline)]

/-- The operators and signs; where one begins another, the longer one comes first. -/
def signs : List (Text × TokenKind) := longSigns ++ doubleSigns ++ singleOperators ++ punctuation

/-- The operator or sign that a text starts with. -/
def sign? (t : Text) : Option Lexeme :=
  (signs.find? fun sign => sign.1.isPrefixOf t).map fun sign => ⟨some sign.2, sign.1.length⟩

/-- The word that a text starts with: a reserved word, or a name. -/
def word (t : Text) : Lexeme :=
  let letters := t.takeWhile isWordPart
  ⟨some ((Keyword.ofSpelling? letters).elim .name .keyword), letters.length⟩

/-- The quoted string or template that a text starts with. -/
def quoted? : Text → Option Lexeme
  | .scalar '"' :: rest => (quotedEnd? '"' false 1 rest).map fun n => ⟨some .string, n⟩
  | .scalar '\'' :: rest => (quotedEnd? '\'' false 1 rest).map fun n => ⟨some .string, n⟩
  | .scalar '`' :: rest => (quotedEnd? '`' true 1 rest).map fun n => ⟨some .template, n⟩
  | _ => none

/-- The comment that a text starts with; one that is not closed is none. -/
def comment? : Text → Option Lexeme
  | .scalar '/' :: .scalar '*' :: rest => (commentEnd? 2 rest).map fun n => ⟨none, n⟩
  | .scalar '/' :: .scalar '/' :: rest => some ⟨none, 2 + runLength (· ≠ .scalar '\n') rest⟩
  | _ => none

/-- The lexeme that a text starts with. -/
def ofText? (t : Text) : Option Lexeme :=
  match number? t with
  | some n => some ⟨some .number, n⟩
  | none =>
    match t with
    | [] => none
    | c :: _ =>
      if isWordStart c then some (word t)
      else if isBlank c then some ⟨none, runLength isBlank t⟩
      else ((quoted? t).or (comment? t)).or (sign? t)

end Lexeme

namespace Token

/-- Scans a text from a location on. The first `skip` code points belong to the lexeme read last;
`done` holds the tokens found so far, the latest first. -/
def scanFrom (here : Location) (skip : Nat) (done : List Token) :
    Text → Except ScanFault (List Token)
  | [] => .ok done.reverse
  | c :: rest =>
    match skip with
    | skip + 1 => scanFrom (here.after c) skip done rest
    | 0 =>
      match Lexeme.ofText? (c :: rest) with
      | none => .error ⟨c, here⟩
      | some lexeme =>
        let found := match lexeme.kind? with
          | some kind => ⟨kind, (c :: rest).take lexeme.length, here⟩ :: done
          | none => done
        scanFrom (here.after c) (lexeme.length - 1) found rest

/-- The tokens of a text, line feeds included, blanks and comments left out. -/
def scan (t : Text) : Except ScanFault (List Token) := scanFrom .first 0 [] t

end Token

end TypeGloss
