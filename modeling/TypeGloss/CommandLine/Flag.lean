import TypeGloss.Source.Dialect
import TypeGloss.Text.DecimalDigit
import TypeGloss.Text.Quoted

/-!
# Flags

The flags of the command line. A flag is written with one dash and a letter or with two dashes and a
word; a beginning of such a word will do if no other flag begins with it. A value may follow as the
next argument, behind an equals sign, or directly behind a letter.
-/

namespace TypeGloss

/-- The flags of the command line. -/
inductive Flag where
  | help
  | input
  | output
  | plugin
  | pretty
  | noVerify
  | emitAnalysis
  | jobs
  | json
  deriving DecidableEq, Repr

namespace Flag

/-- All flags in the order in which they are listed. -/
def all : List Flag :=
  [.help, .input, .output, .plugin, .pretty, .noVerify, .emitAnalysis, .jobs, .json]

/-- How a flag is written. -/
def spellings : Flag → List Text
  | .help => ["-h", "--help"]
  | .input => ["-i", "--input"]
  | .output => ["-o", "--output"]
  | .plugin => ["--plugin"]
  | .pretty => ["--pretty"]
  | .noVerify => ["--no-verify"]
  | .emitAnalysis => ["--emit-analysis"]
  | .jobs => ["-j", "--jobs"]
  | .json => ["--json"]

/-- Whether a flag has a value. -/
def takesValue : Flag → Bool
  | .input | .output | .plugin | .jobs => true
  | _ => false

/-- Whether a flag must be given. -/
def isRequired : Flag → Bool
  | .input | .output => true
  | _ => false

/-- All ways to write a flag, for a message about it. -/
def label (flag : Flag) : Text := Text.join "/" flag.spellings

/-- All spellings with their flags. -/
def table : List (Text × Flag) := all.flatMap fun flag => flag.spellings.map (·, flag)

/-- The flag with a spelling. -/
def ofSpelling? (t : Text) : Option Flag := (table.find? (·.1 = t)).map Prod.snd

end Flag

/-- What an argument is taken for. -/
inductive ArgumentKind where
  /-- A value, or an argument of no use. -/
  | plain
  /-- Something like a flag that is none. -/
  | unknown
  /-- A flag, with the value that is written together with it. -/
  | flag (flag : Flag) (spelling : Text) (value : Option Text)
  deriving DecidableEq, Repr

/-- An argument that could be several flags. -/
structure Ambiguity where
  /-- The argument. -/
  written : Text
  /-- The spellings that it begins. -/
  candidates : List Text
  deriving DecidableEq, Repr

namespace ArgumentKind

/-- A text cut at its first equals sign. -/
def cutAtEquals (t : Text) : Text × Option Text :=
  let name := t.takeWhile (· ≠ .scalar '=')
  match t.drop name.length with
  | _ :: value => (name, some value)
  | [] => (name, none)

/-- Whether a text is digits, with the line feed that may end it. -/
def areDigits (t : Text) : Bool :=
  let digits := if t.getLast? = some (.scalar '\n') then t.dropLast else t
  !digits.isEmpty && digits.all (·.isDecimalDigit)

/-- Whether an argument looks like a negative number: digits, or a point with digits behind it. -/
def isNegativeNumber : Text → Bool
  | .scalar '-' :: rest =>
    areDigits rest ||
      match rest.dropWhile (·.isDecimalDigit) with
      | .scalar '.' :: behind => areDigits behind
      | _ => false
  | _ => false

/-- The flags that an argument with two dashes begins. -/
def begun (t : Text) : List ArgumentKind :=
  let (name, value) := cutAtEquals t
  (Flag.table.filter fun (spelling, _) => spelling.startsWith name).map fun (spelling, found) =>
    .flag found spelling value

/-- The flags that an argument with one dash can be: the letter behind the dash, with a value. -/
def lettered (t : Text) : List ArgumentKind :=
  (Flag.table.filter fun (spelling, _) => spelling = t.take 2 || spelling.startsWith t).map
    fun (spelling, found) =>
      .flag found spelling (if spelling = t.take 2 then some (t.drop 2) else none)

/-- The spelling of a flag. -/
def spelling? : ArgumentKind → Option Text
  | .flag _ spelling _ => some spelling
  | _ => none

/-- What an argument that is no spelling of a flag is taken for. -/
def guess (t : Text) : Except Ambiguity ArgumentKind :=
  match if t.startsWith "--" then begun t else lettered t with
  | [kind] => .ok kind
  | [] =>
    if isNegativeNumber t || t.contains (.scalar ' ') then .ok .plain else .ok .unknown
  | kinds => .error ⟨t, kinds.filterMap spelling?⟩

/-- What an argument is taken for. -/
def of (t : Text) : Except Ambiguity ArgumentKind :=
  if t.head? ≠ some (.scalar '-') then .ok .plain
  else
    match Flag.ofSpelling? t with
    | some found => .ok (.flag found t none)
    | none =>
      if t.length = 1 then .ok .plain
      else
        match cutAtEquals t with
        | (name, some value) =>
          match Flag.ofSpelling? name with
          | some found => .ok (.flag found name (some value))
          | none => guess t
        | (_, none) => guess t

end ArgumentKind

end TypeGloss
