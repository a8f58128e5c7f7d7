import Pinpoint.Files.Path

/-!
# Directory trees

A directory tree without links, with the working directory and the home directory that a program
sees. The working directory may have been removed; what lies around it can still be reached from it.
The system may refuse to read a file or to search a directory, and it takes only such names as it
can encode. Names and paths that are too long it does not look up. -/

namespace Pinpoint

/-- What lies at a place. -/
inductive Entry where
  | file (content : ByteArray) (readable : Bool := true)
  | directory (searchable : Bool := true)

/-- A directory tree: the entries by place. The root is always a directory. -/
structure Tree where
  entries : List (Place × Entry)

inductive TreeError where
  | missing
  | exists
  | notADirectory
  | isADirectory
deriving DecidableEq, Repr

namespace Tree

def empty : Tree := ⟨[]⟩

def entry? (t : Tree) (p : Place) : Option Entry :=
  if p.isEmpty then some (.directory true) else (t.entries.find? fun e => e.1 == p).map (·.2)

def isDirectory (t : Tree) (p : Place) : Bool := t.entry? p matches some (.directory _)

def isFile (t : Tree) (p : Place) : Bool := t.entry? p matches some (.file ..)

def isClosed (t : Tree) (p : Place) : Bool := t.entry? p matches some (.directory false)

/-- The content of the file at a place, if it may be read. -/
def content? (t : Tree) (p : Place) : Option ByteArray :=
  match t.entry? p with
  | some (.file content true) => some content
  | _ => none

def put (t : Tree) (p : Place) (e : Entry) : Tree :=
  ⟨(p, e) :: t.entries.filter fun x => x.1 != p⟩

def makeDirectories (t : Tree) (p : Place) : Except TreeError Tree :=
  p.withAncestors.reverse.foldlM (fun t (q : Place) =>
    match t.entry? q with
    | none => .ok (t.put q (.directory true))
    | some (.directory _) => .ok t
    | some (.file ..) => .error (if q == p then .exists else .notADirectory)) t

/-- Writes a file, and makes the directories around it that are missing. -/
def write (t : Tree) (p : Place) (content : ByteArray) : Except TreeError Tree := do
  let t ← t.makeDirectories p.dropLast
  if t.isDirectory p then throw .isADirectory
  return t.put p (.file content true)

def remove (t : Tree) (p : Place) : Except TreeError Tree :=
  if (t.entry? p).isNone then .error .missing
  else .ok ⟨t.entries.filter fun e => !p.isPrefixOf e.1⟩

end Tree

/-- Why it cannot be said whether something lies at the end of a path. -/
inductive LookupError where
  /-- A directory on the way may not be searched. -/
  | notPermitted
  /-- The path or a name that is to be looked up in a directory is too long. -/
  | tooLong
deriving DecidableEq, Repr

/-- How many bytes a name may have. -/
def nameLimit : Nat := 255

/-- How many bytes a path may have. -/
def pathLimit : Nat := 4095

/-- The place that names lead to, every one of which but the last must be a directory. -/
def Tree.locate (t : Tree) : Place → List Text → Except LookupError (Option Place)
  | p, [] => .ok (some p)
  | p, n :: rest =>
    if !t.isDirectory p then .ok none
    else if t.isClosed p then .error .notPermitted
    else if n == parentName then locate t p.dropLast rest
    else if nameLimit < n.byteSize then .error .tooLong
    else if (t.entry? (p ++ [n])).isSome then locate t (p ++ [n]) rest
    else .ok none

inductive PathFlaw where
  | notEncodable
  | nul
deriving DecidableEq, Repr

def PathFlaw.message : PathFlaw → Text
  | .notEncodable => "the path cannot be encoded".toList
  | .nul => "embedded null byte".toList

/-- What a program sees of its files. -/
structure World where
  tree : Tree
  /-- The working directory. -/
  cwd : Place
  /-- Whether the working directory is still there. -/
  cwdExists : Bool
  /-- What the environment says about the home directory. -/
  home : Text
  /-- Whether a name may hold a character. -/
  encodes : Char → Bool := fun _ => true

namespace World

/-- What is wrong with a text as a name: some character has no encoding, or is the null character.
-/
def flaw? (w : World) (t : Text) : Option PathFlaw :=
  if !t.all w.encodes then some .notEncodable
  else if t.contains '\x00' then some .nul
  else none

/-- What is wrong with a path as a whole. -/
def pathFlaw? (w : World) (p : Path) : Option PathFlaw := w.flaw? p.names.flatten

/-- Where a path sets out from. -/
def base (w : World) (p : Path) : Place := if p.isAbsolute then [] else w.cwd

def through (w : World) (p : Path) : List Place := (w.base p).passed p.names

def target (w : World) (p : Path) : Place := (w.base p).follow p.names

/-- Where a path leads to, if anything lies there. -/
def locate (w : World) (p : Path) : Except LookupError (Option Place) :=
  if (w.pathFlaw? p).isSome then .ok none
  else if pathLimit < p.toText.byteSize then .error .tooLong
  else if p.isAbsolute then w.tree.locate [] p.names
  else if w.cwdExists then w.tree.locate w.cwd p.names
  else
    match p.names with
    | n :: rest => if n == parentName then w.tree.locate w.cwd.dropLast rest else .ok none
    | [] => .ok none

def isFile (w : World) (p : Path) : Except LookupError Bool :=
  (w.locate p).map fun place => place.any w.tree.isFile

/-- The content of the file that a path leads to, if it can be read. -/
def content? (w : World) (p : Path) : Option ByteArray :=
  match w.locate p with
  | .ok (some place) => w.tree.content? place
  | _ => none

/-- The place that a path names, whether or not something lies there. There is none for a path from
a working directory that was removed. -/
def place? (w : World) (p : Path) : Option Place :=
  if p.isAbsolute then some (Place.follow [] p.names)
  else if w.cwdExists then some (Place.follow w.cwd p.names)
  else none

/-- The home directory; a value that starts with a tilde says that it is not known. -/
def home? (w : World) : Option Path :=
  match (w.home.reverse.dropWhile (· == '/')).reverse with
  | [] => some ⟨1, []⟩
  | '~' :: _ => none
  | t => some (Path.ofText t)

def enter (w : World) (p : Place) : Except TreeError World :=
  match w.tree.entry? p with
  | none => .error .missing
  | some (.file ..) => .error .notADirectory
  | some (.directory _) => .ok { w with cwd := p, cwdExists := true }

/-- Removes what lies at a place; the working directory may go with it. -/
def remove (w : World) (p : Place) : Except TreeError World := do
  let tree ← w.tree.remove p
  return { w with tree := tree, cwdExists := w.cwdExists && !p.isPrefixOf w.cwd }

end World

end Pinpoint
