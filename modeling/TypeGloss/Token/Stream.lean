import TypeGloss.Token.ArrowParameters
import TypeGloss.Token.PropertyName
import TypeGloss.Token.Scan
import TypeGloss.Token.Terminator

/-!
# The token stream of a text

Tokens as the syntax reads them: scanned, with property names and arrow parameters marked, and with
statement terminators in place.
-/

namespace TypeGloss

namespace Token

/-- Marks and terminators, added to scanned tokens. -/
def refine (ts : List Token) : List Token :=
  insertTerminators (markArrowParameters (markPropertyNames ts))

/-- The tokens of a text as the syntax reads them. -/
def stream (t : Text) : Except ScanFault (List Token) := (scan t).map refine

end Token

end TypeGloss
