import TypeGloss.Token

/-!
# Reserved words as property names

A reserved word behind a point names a property, and so does one that starts a member of an object
or of a type body and is followed by a colon, with a question mark before the colon or without.
-/

namespace TypeGloss

namespace Token

/-- The tokens other than line feeds. -/
def significant (ts : List Token) : List Token := ts.filter (·.kind ≠ .newline)

/-- Signs behind which a member of an object or a type body may start. -/
def opensMember : TokenKind → Bool
  | .leftBrace | .comma | .semicolon => true
  | _ => false

/-- Kinds that may end a member of a type body; the next line may then start another one. -/
def endsMember : TokenKind → Bool
  | .name | .keyword .voidKw | .keyword .nullKw | .rightParen | .rightBracket | .rightBrace
  | .greater => true
  | _ => false

/-- Whether the coming tokens make a key of the word before them. -/
def followsKey (rest : List Token) : Bool :=
  match (significant rest).take 2 with
  | [] => false
  | a :: more =>
    a.kind = .colon || (a.kind = .question && more.any fun b => b.kind = .colon)

/-- Whether a reserved word names a property, given the significant kind before it, whether it
stands on a later line than that one, and the tokens behind it. -/
def namesProperty (before : Option TokenKind) (onNewLine : Bool) (rest : List Token) : Bool :=
  match before with
  | none => false
  | some kind =>
    kind = .dot || ((opensMember kind || (onNewLine && endsMember kind)) && followsKey rest)

/-- Marks property names from left to right, knowing what came before. -/
def markPropertyNamesFrom (before : Option TokenKind) (onNewLine : Bool) :
    List Token → List Token
  | [] => []
  | t :: rest =>
    if t.kind = .newline then t :: markPropertyNamesFrom before true rest
    else
      let t' := if t.kind.isKeyword && namesProperty before onNewLine rest then t.retype .name else t
      t' :: markPropertyNamesFrom (some t'.kind) false rest

/-- Every reserved word that names a property becomes a name. -/
def markPropertyNames (ts : List Token) : List Token := markPropertyNamesFrom none false ts

end Token

end TypeGloss
