import Pinpoint.Text.Basic

/-!
# Paths

A path is a chain of names, from the root or from wherever one happens to be. Empty names and single
dots do not count; two dots lead one step back. A place is a path from the root with all of that
settled.
-/

namespace Pinpoint

/-- A place in a directory tree: the names on the way from the root. -/
abbrev Place := List Text

def parentName : Text := ['.', '.']

/-- A path as it is written, without the parts that do not count. -/
structure Path where
  /-- How many slashes it starts with: none, one, or two, which are told apart from one. -/
  slashes : Nat
  names : List Text
deriving DecidableEq, Repr

namespace Path

/-- Reads a path. Three or more slashes at the start are one. -/
def ofText (t : Text) : Path :=
  let leading := (t.takeWhile (· == '/')).length
  { slashes := if 2 < leading then 1 else leading
    names := (t.splitOn '/').filter fun n => n != [] && n != ['.'] }

/-- Writes a path. The empty one is a single dot. -/
def toText (p : Path) : Text :=
  let body := Text.join ['/'] p.names
  if p.slashes == 0 && body.isEmpty then ['.'] else List.replicate p.slashes '/' ++ body

def isAbsolute (p : Path) : Bool := p.slashes != 0

def ofPlace (p : Place) : Path := ⟨1, p⟩

def child (p : Path) (name : Text) : Path := { p with names := p.names ++ [name] }

/-- A path seen from another one; an absolute path stays what it is. -/
def under (base p : Path) : Path :=
  if p.isAbsolute then p else ⟨base.slashes, base.names ++ p.names⟩

end Path

namespace Place

/-- Follows names from a place. A step back from the root stays there. -/
def follow : Place → List Text → Place
  | p, [] => p
  | p, n :: rest => if n == parentName then follow p.dropLast rest else follow (p ++ [n]) rest

/-- The directories that following names leaves behind. -/
def passed : Place → List Text → List Place
  | _, [] => []
  | p, n :: rest => p :: passed (if n == parentName then p.dropLast else p ++ [n]) rest

/-- A place and those around it, the nearest first. -/
def withAncestors (p : Place) : List Place :=
  (List.range (p.length + 1)).map fun n => p.take (p.length - n)

end Place

end Pinpoint
