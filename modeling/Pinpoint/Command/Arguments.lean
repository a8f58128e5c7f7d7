import Pinpoint.Issue.Basic

/-!
# Commands

There are two commands: one renders an issue, the other prints a line. How words on a command line
become the arguments of a command is left to what frames the program. Highlights arrive as texts and
are read by the command itself.
-/

namespace Pinpoint

/-- What a command that renders an issue does. -/
structure Config where
  file : Text
  offset : Int
  message : Text
  severity : Severity
  highlights : List Highlight
  /-- Forces colors on or off. -/
  colorize : Option Bool
  quiet : Bool
deriving DecidableEq, Repr

/-- The arguments of the command that renders an issue, with the highlights as they are written. -/
structure ShowArguments where
  file : Text
  offset : Int
  message : Text
  severity : Severity
  highlight : List Text
  color : Option Bool
  quiet : Bool
deriving DecidableEq, Repr

inductive Command where
  | showIssue (arguments : ShowArguments)
  | showLine (file : Text) (offset : Int)
deriving DecidableEq, Repr

/-- A complaint of a command about one of its arguments. -/
structure BadParameter where
  message : Text
  hint : Text
deriving DecidableEq, Repr

def BadParameter.notAHighlight (t : Text) : BadParameter where
  message := "expected START:END, got ".toList ++ Quoted.text t
  hint := "--highlight".toList

/-- The highlight that a text asks for: two integers with a colon between them, or one that is both.
-/
def readHighlight? (t : Text) : Option Highlight :=
  match t.dropWhile (· != ':') with
  | _ :: stop => do
    let a ← readDecimal? (t.takeWhile (· != ':'))
    let b ← readDecimal? stop
    return ⟨a, b⟩
  | [] => (readDecimal? t).map fun a => ⟨a, a⟩

def readHighlights : List Text → Except BadParameter (List Highlight)
  | [] => .ok []
  | t :: rest =>
    match readHighlight? t with
    | some h => (readHighlights rest).map (h :: ·)
    | none => .error (.notAHighlight t)

def ShowArguments.config (a : ShowArguments) : Except BadParameter Config := do
  let highlights ← readHighlights a.highlight
  return {
    file := a.file
    offset := a.offset
    message := a.message
    severity := a.severity
    highlights := highlights
    colorize := a.color
    quiet := a.quiet }

/-- What a command prints, and the exit code that it ends with. -/
structure Outcome where
  exit : Nat
  printed : Text
deriving DecidableEq, Repr

/-- What stands between a command line and the commands. -/
structure Frame where
  /-- The command that words ask for, or how the program ends without one. -/
  read : List Text → Except Outcome Command
  /-- How the program ends if a command complains about an argument. -/
  refuse : BadParameter → Outcome

end Pinpoint
