import Pinpoint.Files.Tree

/-!
# Finding the settings file

The nearest settings file counts: that of the directory where the search starts or of the nearest
one around it, and failing that the one in the home directory. Only a regular file will do. The
search breaks off at a place that the system does not let it look at, or does not look up. -/

namespace Pinpoint

def settingsName : Text := ".issuehandlerrc".toList

inductive SearchError where
  /-- The system does not take the starting point. -/
  | badStart (f : PathFlaw)
  /-- The working directory was removed. -/
  | noWorkingDirectory
  /-- A place cannot be looked at. -/
  | lookup (e : LookupError)
deriving DecidableEq, Repr

namespace Tree

/-- What stops a walk from a place down to the directory that names lead to, and into it. -/
def barrier? (t : Tree) : Place → List Text → Option LookupError
  | p, [] => if t.isClosed p then some .notPermitted else none
  | p, n :: rest =>
    if t.isClosed p then some .notPermitted
    else if t.isDirectory p && nameLimit < n.byteSize then some .tooLong
    else barrier? t (p ++ [n]) rest

/-- What keeps from looking for a settings file in a directory. -/
def obstacle? (t : Tree) (d : Place) : Option LookupError :=
  if pathLimit < (Path.ofPlace (d ++ [settingsName])).toText.byteSize then some .tooLong
  else t.barrier? [] d

/-- The first of some directories that holds a settings file. -/
def firstWithSettings (t : Tree) : List Place → Except LookupError (Option Place)
  | [] => .ok none
  | d :: rest =>
    match t.obstacle? d with
    | some e => .error e
    | none => if t.isFile (d ++ [settingsName]) then .ok (some d) else firstWithSettings t rest

end Tree

def World.homeSettings (w : World) (home : Option Path) : Except LookupError (Option Path) :=
  match home with
  | none => .ok none
  | some h =>
    (w.isFile (h.child settingsName)).map fun there =>
      if there then some (h.child settingsName) else none

/-- The settings file for a starting point and a home directory; either may be left to the
surroundings. -/
def World.findSettings (w : World) (start home : Option Path) : Except SearchError (Option Path) :=
  let start := start.getD ⟨0, []⟩
  match start.names.findSome? w.flaw?, w.place? start with
  | some f, _ => .error (.badStart f)
  | none, none => .error .noWorkingDirectory
  | none, some place =>
    match w.tree.firstWithSettings place.withAncestors with
    | .error e => .error (.lookup e)
    | .ok (some d) => .ok (some (Path.ofPlace (d ++ [settingsName])))
    | .ok none => (w.homeSettings (home.or w.home?)).mapError .lookup

end Pinpoint
