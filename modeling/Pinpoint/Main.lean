import Pinpoint.Command.Standard

/-!
# The command line program

Looks at the files that a command may be about, hands what lies there to
`Pinpoint.World.runCommand`, and prints what comes back. Remarks go to standard error. -/

namespace Pinpoint

/-- The file that a command is about. -/
def Command.file : Command → Text
  | .showIssue arguments => arguments.file
  | .showLine file _ => file

/-- What is known of the files once an entry was seen at the end of a path. -/
def World.learn (w : World) (p : Path) (e : Entry) : World :=
  let directories := (w.through p).filter fun q => (w.tree.entry? q).isNone
  let around := directories.foldl (fun t q => t.put q (.directory true)) w.tree
  { w with tree := around.put (w.target p) e }

/-- What is known of the files once it was seen that the directory in which a path ends is closed.
-/
def World.learnClosed (w : World) (p : Path) : World :=
  match (w.through p).getLast? with
  | some d => { w with tree := w.tree.put d (.directory false) }
  | none => w

def readEntry (name : String) : IO Entry := do
  try
    return .file (← IO.FS.readBinFile name) true
  catch _ => return .file ⟨#[]⟩ false

/-- Looks for a regular file at the end of a path. -/
def observe (w : World) (p : Path) : IO World := do
  try
    let real ← IO.FS.realPath (String.ofList p.toText)
    if (← real.metadata).type != .file then return w
    return w.learn p (← readEntry real.toString)
  catch e =>
    match e with
    | .permissionDenied .. => return w.learnClosed p
    | _ => return w

def workingDirectory : IO (Option Path) := do
  try
    return some (Path.ofText (← IO.currentDir).toString.toList)
  catch _ => return none

/-- What the program sees of its files when it is about one of them. -/
def surroundings (file : Text) : IO World := do
  let cwd ← workingDirectory
  let home := ((← IO.getEnv "HOME").getD "~").toList
  let names := (cwd.map (·.names)).getD []
  let w : World := { tree := Tree.empty, cwd := names, cwdExists := cwd.isSome, home := home }
  let around := (Place.withAncestors names).map fun d => Path.ofPlace (d ++ [settingsName])
  let atHome := w.home?.toList.map fun h => h.child settingsName
  (around ++ atHome ++ [Path.ofText file]).foldlM observe w

/-- What the program knows about its standard output. -/
def standardConsole : IO Console := do
  let terminal ← (← IO.getStdout).isTty
  let kind := (← IO.getEnv "TERM").getD "dumb"
  let plain := kind == "dumb" || kind == "unknown" || (← IO.getEnv "NO_COLOR").isSome
  return ⟨terminal, if plain then none else some "standard".toList⟩

/-- Writes to standard error what a command has to remark: warnings on settings, a complaint about
an argument, or what it broke off with. -/
def remark (command : Command) (run : Run) : IO Unit := do
  (run.notices.filter Notice.isWarning).forM fun n => IO.eprintln (String.ofList n.message)
  if let .showIssue arguments := command then
    if let .error e := arguments.config then IO.eprintln (String.ofList e.message)
  if let .error e := run.result then IO.eprintln (String.ofList e.message)

/-- Prints an outcome and returns its exit code. -/
def conclude (outcome : Outcome) : IO UInt32 := do
  IO.print (String.ofList outcome.printed)
  return outcome.exit.toUInt32

end Pinpoint

open Pinpoint in
def main (args : List String) : IO UInt32 := do
  let words := args.map String.toList
  match Host.standard.frame.read words with
  | .error outcome =>
    if outcome.exit ≠ 0 then IO.eprintln (String.ofList Command.usage)
    conclude outcome
  | .ok command =>
    let w ← surroundings command.file
    let run := w.runCommand Host.standard words (← standardConsole) Policy.default
    remark command run
    match run.result with
    | .ok outcome => conclude outcome
    | .error _ => return 1
