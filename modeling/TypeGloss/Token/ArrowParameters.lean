import TypeGloss.Token

/-!
# Parameter lists of arrow functions

An opening parenthesis starts the parameters of an arrow function when `=>` is the next sign behind
its matching closing one. Parentheses are matched by themselves: other brackets do not count, and a
closing parenthesis that matches none is passed over.
-/

namespace TypeGloss

namespace Token

/-- Whether `=>` comes next, line feeds aside. -/
def arrowFollows (rest : List Token) : Bool :=
  match rest.find? (·.kind ≠ .newline) with
  | some t => t.kind = .arrow
  | none => false

/-- The indices of the parentheses that open arrow parameters. The list starts at index `i`, and
`opens` holds the indices of the parentheses that are still open, the innermost first. -/
def arrowParensFrom (i : Nat) (opens : List Nat) : List Token → List Nat
  | [] => []
  | t :: rest =>
    if t.kind = .leftParen then arrowParensFrom (i + 1) (i :: opens) rest
    else if t.kind = .rightParen then
      match opens with
      | [] => arrowParensFrom (i + 1) [] rest
      | start :: outer =>
        if arrowFollows rest then start :: arrowParensFrom (i + 1) outer rest
        else arrowParensFrom (i + 1) outer rest
    else arrowParensFrom (i + 1) opens rest

/-- Marks the tokens whose index is listed as parentheses of arrow parameters. -/
def markAt (marks : List Nat) (ts : List Token) : List Token :=
  ts.mapIdx fun i t => if marks.contains i then t.retype .arrowParen else t

/-- Every opening parenthesis of arrow parameters is marked. -/
def markArrowParameters (ts : List Token) : List Token := markAt (arrowParensFrom 0 [] ts) ts

end Token

end TypeGloss
