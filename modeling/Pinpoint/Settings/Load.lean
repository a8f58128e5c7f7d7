import Pinpoint.Settings.Basic
import Pinpoint.Settings.Search

/-!
# Loading settings

Settings are a YAML mapping in a UTF-8 file. What is missing, unreadable or malformed yields empty
settings and a remark. How YAML is read is left to a reader; an error of the reader that does not
say that the text is malformed makes loading fail. -/

namespace Pinpoint

/-- Why a reader of YAML gives no value. -/
inductive ReadError where
  /-- The text is no YAML. -/
  | malformed
  /-- The reader lets an error of another kind through. -/
  | fault (f : Fault)
deriving DecidableEq, Repr

/-- A reader of YAML 1.1. It gives a value once it has read a text to its end. -/
structure YamlReader where
  read : Text → Except ReadError Value
  /-- How reading bytes ends that encode no text, if it ends before it gets to where they fail to. -/
  early? : ByteArray → Option ReadError

inductive LoadError where
  | badPath (f : PathFlaw)
  | yaml (f : Fault)
deriving DecidableEq, Repr

def LoadError.message : LoadError → Text
  | .badPath f => f.message
  | .yaml f => f.message

/-- A text in which every carriage return, with or without a line feed behind it, is a line feed. -/
def unifyLineEnds : Text → Text
  | [] => []
  | '\r' :: '\n' :: rest => '\n' :: unifyLineEnds rest
  | '\r' :: rest => '\n' :: unifyLineEnds rest
  | c :: rest => c :: unifyLineEnds rest

/-- The text that bytes encode in UTF-8. -/
def decodeText? (bytes : ByteArray) : Option Text := (String.fromUTF8? bytes).map String.toList

theorem decodeText?_eq_some_iff {bytes : ByteArray} {t : Text} :
    decodeText? bytes = some t ↔ bytes = t.utf8Encode := by
  constructor
  · intro h
    obtain ⟨s, hs, rfl⟩ := Option.map_eq_some_iff.1 h
    unfold String.fromUTF8? at hs
    split at hs
    · cases hs
      rw [← String.toByteArray_ofList, String.ofList_toList]
      rfl
    · cases hs
  · rintro rfl
    rw [← String.toByteArray_ofList, decodeText?, String.fromUTF8?,
      dif_pos (String.ofList t).isValidUTF8]
    exact congrArg some String.toList_ofList

def colorizeOf (p : Path) (v : Value) : Option Bool × List Notice :=
  match v with
  | .scalar (.bool b) => (some b, [])
  | .scalar .null => (none, [])
  | _ => (none, [.colorizeNotBoolean p])

/-- What a settings file says about colors. What counts as nothing is no colors. -/
def colorsOf (p : Path) (v : Value) : Overrides × List Notice :=
  if !v.isTruthy then ([], [])
  else match v with
    | .mapping entries => (entries, [])
    | _ => ([], [.colorsNotAMapping p])

def Settings.ofValue (p : Path) (v : Value) : Settings × List Notice :=
  match v with
  | .scalar .null => (⟨none, [], some p⟩, [])
  | .mapping _ =>
    let (colorize, first) := colorizeOf p (v.field "colorize".toList)
    let (colors, second) := colorsOf p (v.field "colors".toList)
    (⟨colorize, colors, some p⟩, first ++ second)
  | _ => (Settings.empty, [.notAMapping p])

/-- What a reader makes of the bytes of a file; nothing, if it comes upon some that encode no text.
-/
def YamlReader.readBytes (yaml : YamlReader) (bytes : ByteArray) : Option (Except ReadError Value) :=
  match decodeText? bytes with
  | some t => some (yaml.read (unifyLineEnds t))
  | none => (yaml.early? bytes).map .error

def Settings.ofReading (p : Path) : Except ReadError Value → Except LoadError (Settings × List Notice)
  | .ok v => .ok (ofValue p v)
  | .error .malformed => .ok (empty, [.unparsable p])
  | .error (.fault f) => .error (.yaml f)

/-- The settings in a file with the given content, which is missing if the file cannot be read. -/
def Settings.ofContent (yaml : YamlReader) (p : Path) (content : Option ByteArray) :
    Except LoadError (Settings × List Notice) :=
  match content.bind yaml.readBytes with
  | none => .ok (empty, [.unreadable p])
  | some result => ofReading p result

/-- Loads the settings at a path, or from the settings file that is found. -/
def World.loadSettings (w : World) (yaml : YamlReader) (path : Option Path) :
    Except LoadError (Settings × List Notice) :=
  let found : Except SearchError (Option Path) := match path with
    | some p => .ok (some p)
    | none => w.findSettings none none
  match found with
  | .error (.badStart f) => .error (.badPath f)
  | .error .noWorkingDirectory => .ok (Settings.empty, [.searchFailed])
  | .error (.lookup _) => .ok (Settings.empty, [.searchFailed])
  | .ok none => .ok (Settings.empty, [])
  | .ok (some p) =>
    match w.pathFlaw? p with
    | some f => .error (.badPath f)
    | none => Settings.ofContent yaml p (w.content? p)

end Pinpoint
