import TypeGloss.Text.CodePoint

/-!
# Paths

A path is a root and the names that lead from it. Empty names and single dots mean nothing and are
left out; a double dot stays, since what it leads to depends on the files.
-/

namespace TypeGloss

/-- Where a path starts. -/
inductive PathRoot where
  /-- The working directory. -/
  | here
  /-- The root of all files. -/
  | root
  /-- The root of all files, written with exactly two slashes. -/
  | doubleRoot
  deriving DecidableEq, Repr

/-- A path to a file or directory. -/
structure Path where
  /-- Where the path starts. -/
  start : PathRoot
  /-- The names that lead from there. -/
  names : List Text
  deriving DecidableEq, Repr

namespace Path

/-- The names of a written path, those that mean nothing included. -/
def segments (t : Text) : List Text := t.splitOn (.scalar '/')

/-- Whether a name in a path leads nowhere else. -/
def isIdle (name : Text) : Bool := name.isEmpty || name = "."

/-- The start of a written path, from the slashes in front of it. -/
def startOf (t : Text) : PathRoot :=
  match (t.takeWhile (· = .scalar '/')).length with
  | 0 => .here
  | 2 => .doubleRoot
  | _ => .root

/-- The path that a text writes. -/
def ofText (t : Text) : Path := ⟨startOf t, (segments t).filter (!isIdle ·)⟩

/-- The text of a start. -/
def startText : PathRoot → Text
  | .here => []
  | .root => "/"
  | .doubleRoot => "//"

/-- The path as text; the working directory itself is a dot. -/
def text (p : Path) : Text :=
  match p.start, p.names with
  | .here, [] => "."
  | start, names => startText start ++ Text.join "/" names

/-- The last name of a path. -/
def name (p : Path) : Text := p.names.getLast?.getD []

/-- A name without its last ending. A dot in front or at the end starts no ending. -/
def withoutEnding (name : Text) : Text :=
  match (name.reverse.span (· ≠ .scalar '.')) with
  | (_ :: _, _ :: before@(_ :: _)) => before.reverse
  | _ => name

/-- The last name of a path without its ending. -/
def stem (p : Path) : Text := withoutEnding p.name

/-- The path that leads to where the last name is; the start leads to itself. -/
def parent (p : Path) : Path := { p with names := p.names.dropLast }

/-- The path with one more name. -/
def child (p : Path) (name : Text) : Path := { p with names := p.names ++ [name] }

/-- The path with another last name. -/
def withName (p : Path) (name : Text) : Path := p.parent.child name

/-- Where the output for an input goes: its last name with another ending, in the directory for
outputs. -/
def outputFor (input directory : Path) : Path := directory.child (input.stem ++ ".ts")

/-- The names from the root of all files, with double dots taken as steps back. -/
def fromRoot (home : List Text) (p : Path) : List Text :=
  let start := match p.start with
    | .here => home
    | _ => []
  p.names.foldl follow start
where
  /-- One name further, or one name back. -/
  follow (before : List Text) (name : Text) : List Text :=
    if name = ".." then before.dropLast else before ++ [name]

end Path

end TypeGloss
