import Pinpoint.Style.Basic

/-!
# Style policies

Every part of a rendered issue has a role, and a policy keeps the style of each role under its name.
A policy starts from the default styles. Setting overrides first puts the defaults back, and then
goes through the overrides one by one; what is no role or no style is passed over with a notice. A
notice says what it is about, and where that cannot be written the rest of the overrides is left
undone. -/

namespace Pinpoint

/-- The parts of a rendered issue. -/
inductive Role where
  | file
  | location
  | error
  | warning
  | note
  | message
  | separator
  | source
  | caret
  | highlight
deriving DecidableEq, Repr

namespace Role

/-- All roles, in their order of appearance in a rendered issue. -/
def all : List Role :=
  [.file, .location, .error, .warning, .note, .message, .separator, .source, .caret, .highlight]

def name : Role → Text
  | .file => "file".toList
  | .location => "location".toList
  | .error => "error".toList
  | .warning => "warning".toList
  | .note => "note".toList
  | .message => "message".toList
  | .separator => "separator".toList
  | .source => "source".toList
  | .caret => "caret".toList
  | .highlight => "highlight".toList

def ofName? (t : Text) : Option Role := all.find? fun r => r.name == t

theorem ofName?_name (r : Role) : ofName? r.name = some r := by cases r <;> decide

def defaultPath? : Role → Option Text
  | .file => some "cyan.bold".toList
  | .location => none
  | .error => some "red.bold".toList
  | .warning => some "magenta.bold".toList
  | .note => some "yellow.bold".toList
  | .message => some "bold".toList
  | .separator => some "dim".toList
  | .source => none
  | .caret => some "green.bold".toList
  | .highlight => some "cyan".toList

def defaultStyle (r : Role) : Option Style :=
  match r.defaultPath?.map Style.readPath with
  | some (.ok codes) => some (.path codes)
  | _ => none

end Role

/-- Styles by the names of roles; none for a role whose text is left as it is. -/
structure Policy where
  styles : List (Scalar × Option Style)

/-- What is passed over when overrides are set. The texts are what is written of keys and values. -/
inductive PolicyNotice where
  | unknownRole (key : Text)
  | notAStyle (key reason : Text)
deriving DecidableEq, Repr

def PolicyNotice.message : PolicyNotice → Text
  | .unknownRole key => "Ignoring unknown color role ".toList ++ key
  | .notAStyle key reason =>
    "Ignoring style for color role ".toList ++ key ++ ':' :: ' ' :: reason

abbrev Overrides := List (Scalar × Value)

/-- What setting overrides comes to: the policy it leaves behind, the notices that were given, and
the fault that it broke off with, if it did. -/
structure PolicyChange where
  policy : Policy
  notices : List PolicyNotice
  fault : Option Fault

namespace Policy

def default : Policy := ⟨Role.all.map fun r => (.text r.name, r.defaultStyle)⟩

/-- What a policy holds under a key; a role may be there without a style. -/
def find? (p : Policy) (key : Scalar) : Option (Option Style) := Entries.find? p.styles key

def styleFor (p : Policy) (r : Role) : Option Style := (p.find? (.text r.name)).join

theorem styleFor_default (r : Role) : default.styleFor r = r.defaultStyle := by cases r <;> rfl

def assign (p : Policy) (key : Scalar) (style : Option Style) : Policy :=
  { p with styles := Entries.insert key style p.styles }

/-- Puts the default styles in the place of whatever a policy holds. -/
def reset (p : Policy) : Policy := { p with styles := default.styles }

section
variable (write : Writer)

/-- Applies one override, or passes it over with a notice. -/
def override (p : Policy) (key : Scalar) (v : Value) : Except Fault (Policy × Option PolicyNotice) :=
  match p.find? key with
  | none => do return (p, some (.unknownRole (← write (.scalar key))))
  | some _ =>
    match Style.read v with
    | .ok style => .ok (p.assign key style, none)
    | .error e => do
      let reason ← e.reason write
      return (p, some (.notAStyle (← write (.scalar key)) reason))

/-- Applies overrides from the first to the last, or to the first that cannot even be passed over.
-/
def overrideAll (p : Policy) : Overrides → PolicyChange
  | [] => ⟨p, [], none⟩
  | e :: rest =>
    match p.override write e.1 e.2 with
    | .error f => ⟨p, [], some f⟩
    | .ok (p, notice) =>
      let change := overrideAll p rest
      { change with notices := notice.toList ++ change.notices }

/-- Puts the defaults back and applies overrides. Of several with one key the last one counts. -/
def set (p : Policy) (overrides : Overrides) : PolicyChange :=
  p.reset.overrideAll write (Entries.ofPairs overrides)

def make (overrides : Overrides) : PolicyChange :=
  let p := reset ⟨[]⟩
  if overrides.isEmpty then ⟨p, [], none⟩ else p.set write overrides

end

/-- Applies the style of a role, if it has one and styling is on. -/
def paint (p : Policy) (enabled : Bool) (role : Role) (t : Text) : Except Text Text :=
  if enabled then
    match p.styleFor role with
    | some style => style.apply t
    | none => .ok t
  else .ok t

end Policy

end Pinpoint
