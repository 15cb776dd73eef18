import TypeGloss.Parse.Program
import TypeGloss.Source.Dialect
import TypeGloss.Syntax.Fault
import TypeGloss.Syntax.Nesting
import TypeGloss.Syntax.Walk
import TypeGloss.Text.Quoted
import TypeGloss.Token.Stream

/-!
# Reading source text

A source text becomes a program in the order scan, syntax, literals, dialect; the first stage that
finds something wrong decides the error. The whole text is scanned before its syntax is looked at,
and literals are looked at only in a program whose syntax is right. When nesting is bounded, its
depth is looked at together with the literals, before the dialect.
-/

namespace TypeGloss

/-- Why a source text is no program. -/
inductive ReadError where
  /-- A code point starts no token. -/
  | character (point : CodePoint) (loc : Location)
  /-- A token cannot stand where it stands. -/
  | token (text : Text) (loc : Location)
  /-- A statement ends where it cannot end. -/
  | statementEnd (loc : Location)
  /-- The text ends too early. -/
  | inputEnd (loc : Location)
  /-- A literal has no value. -/
  | literal (fault : LiteralFault)
  /-- Type syntax stands in a dialect without it. -/
  | typeSyntax (loc : Location)
  deriving DecidableEq, Repr

namespace LiteralFault

/-- The message for a literal without a value. -/
def message : LiteralFault → Text
  | .noCodePoint escape => "Invalid unicode escape: \\" ++ escape
  | .tooManyDigits count =>
    "Exceeds the limit (" ++ Text.decimal Literal.maxDigits ++
      " digits) for integer string conversion: value has " ++ Text.decimal count ++
      " digits; use sys.set_int_max_str_digits() to increase the limit"

end LiteralFault

namespace ReadError

/-- The message for a reader of the program. -/
def message : ReadError → Text
  | .character point _ => "Unexpected character " ++ Text.quoted [point]
  | .token text _ => "Unexpected token " ++ Text.quoted text
  | .statementEnd _ => "Unexpected end of statement"
  | .inputEnd _ => "Unexpected end of input"
  | .literal fault => fault.message
  | .typeSyntax _ => "Type annotations require the 'flow' or 'typescript' plugin"

/-- The place of the error; a literal without a value has none. -/
def loc? : ReadError → Option Location
  | .character _ loc | .token _ loc | .statementEnd loc | .inputEnd loc | .typeSyntax loc => some loc
  | .literal _ => none

/-- The error for tokens that are no program. -/
def ofStuck : Parse.Stuck → ReadError
  | .ending loc => .inputEnd loc
  | .token t =>
    if t.kind = .terminator ∧ t.text.isEmpty then .statementEnd t.loc else .token t.text t.loc

end ReadError

namespace Source

/-- The first type syntax or interface of a program. -/
def firstTypeSyntax? (program : Node) : Option Node :=
  program.walk.find? fun node =>
    match node with
    | .interfaceDeclaration .. => true
    | node => node.isType

/-- The tokens of a source text. -/
def tokens (source : Text) : Except ReadError (List Token) :=
  match Token.stream source with
  | .ok ts => .ok ts
  | .error fault => .error (.character fault.point fault.loc)

/-- The tree that tokens make up. -/
def tree (ts : List Token) : Except ReadError Node :=
  match Parse.program ts with
  | .ok program => .ok program
  | .error stuck => .error (.ofStuck stuck)

/-- The same program, if its type syntax is allowed. -/
def checkDialect (dialect : Dialect) (program : Node) : Except ReadError Node :=
  match if dialect.allowsTypes then none else firstTypeSyntax? program with
  | some node => .error (.typeSyntax node.loc)
  | none => .ok program

/-- The same program, if its literals have values and its type syntax is allowed. -/
def check (dialect : Dialect) (program : Node) : Except ReadError Node :=
  match program.literalFault? with
  | some fault => .error (.literal fault)
  | none => checkDialect dialect program

/-- The program of a source text. -/
def read (dialect : Dialect) (source : Text) : Except ReadError Node := do
  check dialect (← tree (← tokens source))

/-- Why a source text is not read within the budget for nesting. -/
inductive Refusal where
  /-- The text is no program. -/
  | error (e : ReadError)
  /-- The program is nested too deeply. -/
  | tooDeep
  deriving DecidableEq, Repr

/-- The program of a source text, unless it is nested too deeply to be read. -/
def readBounded (dialect : Dialect) (source : Text) : Except Refusal Node :=
  match tokens source with
  | .error e => .error (.error e)
  | .ok ts =>
    match tree ts with
    | .error e => .error (.error e)
    | .ok program =>
      match Nesting.firstObstacle? ts program with
      | some (.literal fault) => .error (.error (.literal fault))
      | some .tooDeep => .error .tooDeep
      | none => (checkDialect dialect program).mapError .error

end Source

end TypeGloss
