import TypeGloss.Text.Numeral

/-!
# Why a tree cannot be printed

A tree cannot be printed when a node stands where its kind cannot stand, or when a part is missing
that printing needs.
-/

namespace TypeGloss

/-- The kinds of syntax that most slots ask for. -/
inductive Role where
  | statement
  | expression
  | type
  deriving DecidableEq, Repr

/-- The name of a role in messages. -/
def Role.name : Role → Text
  | .statement => "statement"
  | .expression => "expression"
  | .type => "type"

/-- The parts of nodes that other slots ask for. -/
inductive NodePart where
  /-- The name that a node is or refers to. -/
  | name
  /-- The type of a name. -/
  | typing
  /-- The name that a node declares. -/
  | declared
  /-- The value of a variable. -/
  | initializer
  /-- The text of a literal. -/
  | spelling
  /-- Whether a property is written without its key. -/
  | shorthand
  /-- Whether a member may be missing. -/
  | optional
  /-- The statements of a body. -/
  | body
  deriving DecidableEq, Repr

/-- The name of a part in messages. -/
def NodePart.label : NodePart → Text
  | .name => "name"
  | .typing => "type_annotation"
  | .declared => "id"
  | .initializer => "init"
  | .spelling => "raw"
  | .shorthand => "shorthand"
  | .optional => "optional"
  | .body => "body"

/-- What a text is needed for. Where it is only written between other texts it may be missing. -/
inductive TextUse where
  /-- It is prolonged by another text. -/
  | front
  /-- It prolongs another text. -/
  | back
  /-- It prolongs a text that is missing as well. -/
  | both
  /-- It is the item with this index in a list with separators. -/
  | item (index : Nat)
  /-- It is the key of a member. -/
  | key
  /-- It is an operator, which may be a word. -/
  | operator
  /-- Its start decides whether a blank stands before it. -/
  | start
  /-- Its end decides whether a blank stands behind it. -/
  | ending
  deriving DecidableEq, Repr

/-- The message for a text that is missing. -/
def TextUse.message : TextUse → Text
  | .front => "unsupported operand type(s) for +: 'NoneType' and 'str'"
  | .back => "can only concatenate str (not \"NoneType\") to str"
  | .both => "unsupported operand type(s) for +: 'NoneType' and 'NoneType'"
  | .item index =>
    "sequence item " ++ Text.decimal index ++ ": expected str instance, NoneType found"
  | .key => "expected string or bytes-like object, got 'NoneType'"
  | .operator => "'NoneType' object has no attribute 'isalpha'"
  | .start => "'NoneType' object has no attribute 'startswith'"
  | .ending => "'NoneType' object has no attribute 'endswith'"

/-- Why a tree cannot be printed. -/
inductive Unprintable where
  /-- A node of this kind cannot stand where syntax of this role is due. -/
  | misplaced (role : Role) (kind : String)
  /-- A node of this kind lacks a part that its slot asks for. -/
  | incomplete (kind : String) (part : NodePart)
  /-- Nothing stands between two operands. -/
  | noOperator
  /-- Something of this kind stands where a list is due. -/
  | noList (kind : String)
  /-- A text is missing. -/
  | noText (use : TextUse)
  deriving DecidableEq, Repr

/-- The message for a tree that cannot be printed. -/
def Unprintable.message : Unprintable → Text
  | .misplaced role kind => "Cannot emit " ++ role.name ++ " node: " ++ kind
  | .incomplete kind part => "'" ++ kind ++ "' object has no attribute '" ++ part.label ++ "'"
  | .noOperator => "string index out of range"
  | .noList kind => "'" ++ kind ++ "' object is not iterable"
  | .noText use => use.message

end TypeGloss
