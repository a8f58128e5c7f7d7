import Pinpoint.Style.Escape
import Pinpoint.Value.Basic
import Pinpoint.Text.Quoted

/-!
# Styles

A style is either a path of registry names such as `bold.red`, whose sequences are put around a text
with the first name outermost, or a function that was handed over. Empty text stays empty under a
path.
-/

namespace Pinpoint

/-- A named entry of the style registry: the codes that switch the style on and off. -/
structure StyleCode where
  name : Text
  opening : Nat
  closing : Nat
deriving DecidableEq, Repr

namespace StyleCode

/-- The four entries of a color: as text color and as background, plain and bright. -/
def ofColor (index : Nat) (name capitalized : String) : List StyleCode :=
  [⟨name.toList, 30 + index, 39⟩,
    ⟨name.toList ++ "Bright".toList, 90 + index, 39⟩,
    ⟨'b' :: 'g' :: capitalized.toList, 40 + index, 49⟩,
    ⟨'b' :: 'g' :: capitalized.toList ++ "Bright".toList, 100 + index, 49⟩]

def registry : List StyleCode :=
  [⟨"reset".toList, 0, 0⟩, ⟨"bold".toList, 1, 22⟩, ⟨"dim".toList, 2, 22⟩,
    ⟨"italic".toList, 3, 23⟩, ⟨"underline".toList, 4, 24⟩, ⟨"inverse".toList, 7, 27⟩,
    ⟨"hidden".toList, 8, 28⟩, ⟨"strikethrough".toList, 9, 29⟩] ++
  ofColor 0 "black" "Black" ++ ofColor 1 "red" "Red" ++ ofColor 2 "green" "Green" ++
  ofColor 3 "yellow" "Yellow" ++ ofColor 4 "blue" "Blue" ++ ofColor 5 "magenta" "Magenta" ++
  ofColor 6 "cyan" "Cyan" ++ ofColor 7 "white" "White" ++
  [⟨"gray".toList, 90, 39⟩, ⟨"grey".toList, 90, 39⟩, ⟨"bgGray".toList, 100, 49⟩,
    ⟨"bgGrey".toList, 100, 49⟩]

def find? (name : Text) : Option StyleCode := registry.find? fun c => c.name == name

end StyleCode

/-- A style that changes text. -/
inductive Style where
  /-- Registry entries, the outermost first. -/
  | path (codes : List StyleCode)
  | function (f : StyleFunction)

inductive StyleError where
  | unknownName (name path : Text)
  | notAStyle (v : Value)

namespace StyleError

/-- The wording of a cause. A cause that cannot be worded is reported as what keeps it from that. -/
def message (write : Writer) : StyleError → Except Fault Text
  | .unknownName name path => .ok
    ("unknown style ".toList ++ Quoted.text name ++ " in ".toList ++ Quoted.text path)
  | .notAStyle v => do return "invalid style value: ".toList ++ (← write v)

/-- What is said about a cause where nothing but a wrong value is expected: its wording, or that of
the wrong value that keeps it from being worded. -/
def reason (write : Writer) (e : StyleError) : Except Fault Text :=
  match e.message write with
  | .ok message => .ok message
  | .error f => if f.kind = .wrongValue then .ok f.message else .error f

end StyleError

namespace Style

/-- Reads the names of a path one by one; the first unknown name refuses the path. -/
def readNames (path : Text) : List Text → Except StyleError (List StyleCode)
  | [] => .ok []
  | name :: rest =>
    match StyleCode.find? name with
    | some c => (readNames path rest).map (c :: ·)
    | none => .error (.unknownName name path)

def readPath (path : Text) : Except StyleError (List StyleCode) :=
  readNames path (path.splitOn '.')

/-- Reads a style: null is no style. -/
def read : Value → Except StyleError (Option Style)
  | .scalar .null => .ok none
  | .scalar (.text t) => (readPath t).map fun codes => some (.path codes)
  | .function f => .ok (some (.function f))
  | v => .error (.notAStyle v)

/-- Puts the sequences of a path around a text. -/
def wrap (codes : List StyleCode) (t : Text) : Text :=
  if t.isEmpty then t
  else codes.flatMap (fun c => styleSequence c.opening) ++ t ++
    codes.reverse.flatMap (fun c => styleSequence c.closing)

/-- Applies a style. Only a function can fail. -/
def apply : Style → Text → Except Text Text
  | .path codes, t => .ok (wrap codes t)
  | .function f, t => f.apply t

end Style

end Pinpoint
