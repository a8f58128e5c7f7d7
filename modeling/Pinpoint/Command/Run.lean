import Pinpoint.Command.Arguments
import Pinpoint.Report.Basic
import Pinpoint.Settings.Load

/-!
# Running commands

A command reads its file, prints what it was asked for, and ends with an exit code. Rendering an
issue sets the policy of the whole process if the settings have colors, and only after the file was
read and the offset was found in it. Command lines, YAML and the writing of values are left to a
host. -/

namespace Pinpoint

/-- What a program leaves to others. -/
structure Host where
  frame : Frame
  yaml : YamlReader
  write : Writer

inductive RunError where
  | load (e : LoadError)
  | path (f : PathFlaw)
  | fault (f : Fault)
  | render (e : RenderError)
deriving DecidableEq, Repr

def RunError.message : RunError → Text
  | .load e => e.message
  | .path f => f.message
  | .fault f => f.message
  | .render e => e.message

def printedLine (t : Text) : Text := t ++ ['\n']

def unreadableFile (file : Text) : Text :=
  "File ".toList ++ (Path.ofText file).toText ++
    " is not accessible, does not exist, or is not UTF-8 text.".toList

/-- What a command leaves behind: the policy of the process, the remarks made, and how it ended. -/
structure Run where
  policy : Policy
  notices : List Notice
  result : Except RunError Outcome

/-- What happens before anything but the outcome has changed. -/
def Run.unchanged (policy : Policy) (result : Except RunError Outcome) : Run := ⟨policy, [], result⟩

section
variable (write : Writer)

/-- How a command ends that has no use for an offset: it says why. Only a wrong value is expected as
a cause; and the offset itself may have too many digits to be printed. -/
def refuseOffset (opening : String) (offset : Int) (e : LocationError) : Except RunError Outcome := do
  let reason ← (e.reason write).mapError .fault
  let shown ← (printInteger offset).mapError .fault
  return ⟨1, printedLine (opening.toList ++ shown ++ ':' :: ' ' :: reason)⟩

/-- Applies the colors of settings to the policy of the process; settings without colors leave it as
it is. -/
def applyColors (policy : Policy) (colors : Overrides) : PolicyChange :=
  if colors.isEmpty then ⟨policy, [], none⟩ else policy.set write colors

/-- Renders an issue in a file with the given text, which is missing if the file cannot be read. -/
def showIssue (config : Config) (settings : Settings) (console : Console) (text : Option Text)
    (policy : Policy) : Run :=
  match text with
  | none => .unchanged policy (.ok ⟨1, printedLine (unreadableFile config.file)⟩)
  | some t =>
    let location := Location.offset config.offset
    match Issue.make (.text t) config.file location config.message config.severity with
    | .error e =>
      .unchanged policy (refuseOffset write "Cannot place a diagnostic at offset " config.offset e)
    | .ok issue =>
      let ledger := Ledger.empty.push { issue with highlights := config.highlights }
      let change := applyColors write policy settings.colors
      let notices := change.notices.map Notice.policy
      match change.fault with
      | some f => ⟨change.policy, notices, .error (.fault f)⟩
      | none =>
        let enabled := resolveColorize settings.colorize config.colorize console
        let kind := if config.quiet then ReporterKind.silent else ReporterKind.console
        match kind.report (change.policy.paint enabled) ledger.issues with
        | .error e => ⟨change.policy, notices, .error (.render e)⟩
        | .ok r => ⟨change.policy, notices, .ok ⟨ledger.exitCode, r.written.flatMap printedLine⟩⟩

def showLine (file : Text) (offset : Int) (text : Option Text) : Except RunError Outcome :=
  match text with
  | none => .ok ⟨1, printedLine (unreadableFile file)⟩
  | some t =>
    match lineWithPosition t offset with
    | .ok line => .ok ⟨0, printedLine line⟩
    | .error e => refuseOffset write "Cannot find a line at offset " offset e

end

namespace World

/-- The text of the file that a path names; none if it cannot be read as UTF-8. -/
def sourceText (w : World) (file : Text) : Except RunError (Option Text) :=
  match w.pathFlaw? (Path.ofText file) with
  | some f => .error (.path f)
  | none => .ok ((w.content? (Path.ofText file)).bind decodeText?)

def settingsFor (w : World) (yaml : YamlReader) (given : Option Settings) :
    Except RunError (Settings × List Notice) :=
  match given with
  | some s => .ok (s, [])
  | none => (w.loadSettings yaml none).mapError .load

def runShow (w : World) (host : Host) (config : Config) (given : Option Settings)
    (console : Console) (policy : Policy) : Run :=
  match w.settingsFor host.yaml given with
  | .error e => .unchanged policy (.error e)
  | .ok (settings, notices) =>
    match w.sourceText config.file with
    | .error e => ⟨policy, notices, .error e⟩
    | .ok text =>
      let run := showIssue host.write config settings console text policy
      { run with notices := notices ++ run.notices }

/-- Prints a line in a world of files. The settings are looked at, although nothing depends on them.
-/
def runLine (w : World) (host : Host) (file : Text) (offset : Int) (given : Option Settings)
    (policy : Policy) : Run :=
  match w.settingsFor host.yaml given with
  | .error e => .unchanged policy (.error e)
  | .ok (_, notices) =>
    ⟨policy, notices, do showLine host.write file offset (← w.sourceText file)⟩

/-- Runs the command that a command line asks for, if the frame finds one. -/
def runCommand (w : World) (host : Host) (words : List Text) (console : Console)
    (policy : Policy) : Run :=
  match host.frame.read words with
  | .error outcome => .unchanged policy (.ok outcome)
  | .ok (.showLine file offset) => w.runLine host file offset none policy
  | .ok (.showIssue arguments) =>
    match arguments.config with
    | .error e => .unchanged policy (.ok (host.frame.refuse e))
    | .ok config => w.runShow host config none console policy

end World

end Pinpoint
