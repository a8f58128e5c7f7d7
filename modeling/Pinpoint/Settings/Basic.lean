import Pinpoint.Files.Path
import Pinpoint.Style.Policy

/-!
# Settings

What a user may settle: whether output is colored, and the styles of roles. A word on the command
line overrules the settings, and these overrule what the terminal can do.
-/

namespace Pinpoint

/-- The settings of a user. -/
structure Settings where
  /-- Forces colors on or off. -/
  colorize : Option Bool
  /-- Styles for roles. -/
  colors : Overrides
  /-- The file that the settings come from. -/
  path : Option Path

def Settings.empty : Settings := ⟨none, [], none⟩

/-- What is known about the place that output goes to. -/
structure Console where
  terminal : Bool
  colorSystem : Option Text
deriving DecidableEq, Repr

/-- A console that is no terminal. -/
def Console.plain : Console := ⟨false, none⟩

/-- Whether to color: as asked for, else as settled, else if the terminal has colors. -/
def resolveColorize (setting explicit : Option Bool) (console : Console) : Bool :=
  match explicit, setting with
  | some b, _ => b
  | none, some b => b
  | none, none => console.terminal && console.colorSystem.isSome

/-- What is worth a remark while settings are read and applied. -/
inductive Notice where
  | searchFailed
  | unreadable (p : Path)
  | unparsable (p : Path)
  | notAMapping (p : Path)
  | colorizeNotBoolean (p : Path)
  | colorsNotAMapping (p : Path)
  | policy (n : PolicyNotice)

namespace Notice

/-- Whether a remark is a warning, and not only of use when hunting for a fault. -/
def isWarning : Notice → Bool
  | .searchFailed => false
  | .policy _ => false
  | _ => true

def message : Notice → Text
  | .searchFailed => "Settings lookup failed".toList
  | .unreadable p => "Could not read settings file ".toList ++ p.toText
  | .unparsable p => "Could not parse settings file ".toList ++ p.toText
  | .notAMapping p =>
    "Ignoring settings file ".toList ++ p.toText ++ ": expected a mapping at the top level".toList
  | .colorizeNotBoolean p => "Ignoring non-boolean 'colorize' in ".toList ++ p.toText
  | .colorsNotAMapping p =>
    "Ignoring 'colors' in ".toList ++ p.toText ++ ": expected a mapping".toList
  | .policy n => n.message

end Notice

end Pinpoint
