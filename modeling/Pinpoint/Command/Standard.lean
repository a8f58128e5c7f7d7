import Pinpoint.Command.Run
import Pinpoint.Yaml.Document

/-!
# The standard host

What the program runs with. Options may stand anywhere behind a command, with their value in the
next word or behind an equals sign; two dashes end them. Of an option that is given more than once
the last word counts, except for highlights, which add up. A command line that is not used as it
should be prints nothing and ends with 2. -/

namespace Pinpoint

/-- Whether an option takes a value. -/
inductive OptionKind where
  | flag
  | valued
deriving DecidableEq, Repr

abbrev OptionTable := List (Text × OptionKind)

/-- The words of a command line behind the command: options, each with its value if it takes one,
and the other words in order. -/
structure Words where
  options : List (Text × Text)
  others : List Text
deriving DecidableEq, Repr

namespace Words

def empty : Words := ⟨[], []⟩

def withOption (w : Words) (name value : Text) : Words :=
  { w with options := (name, value) :: w.options }

def withOther (w : Words) (t : Text) : Words := { w with others := t :: w.others }

/-- Whether a word is read as an option: it starts with a dash that is not all of it. -/
def isOption : Text → Bool
  | '-' :: _ :: _ => true
  | _ => false

/-- The name of an option, and the value that is attached to it behind an equals sign. -/
def splitOption (t : Text) : Text × Option Text :=
  match t.dropWhile (· != '=') with
  | _ :: value => (t.takeWhile (· != '='), some value)
  | [] => (t, none)

/-- Sorts words into options and others. There is no answer for an unknown option, a value where
none is due, and a missing value. -/
def sort (table : OptionTable) : List Text → Option Words
  | [] => some empty
  | t :: rest =>
    if t == ['-', '-'] then some ⟨[], rest⟩
    else if !isOption t then (sort table rest).map (·.withOther t)
    else
      let (name, attached) := splitOption t
      match table.find? fun o => o.1 == name, attached, rest with
      | none, _, _ => none
      | some (_, .flag), some _, _ => none
      | some (_, .flag), none, rest => (sort table rest).map (·.withOption name [])
      | some (_, .valued), some value, rest => (sort table rest).map (·.withOption name value)
      | some (_, .valued), none, value :: more => (sort table more).map (·.withOption name value)
      | some (_, .valued), none, [] => none

/-- The last of several options that was given, with its value. -/
def last? (w : Words) (names : List Text) : Option (Text × Text) :=
  w.options.reverse.find? fun o => names.contains o.1

end Words

namespace Command

def helpOption : Text := "--help".toList

def severityOption : Text := "--severity".toList

def highlightOption : Text := "--highlight".toList

def colorOptions : List Text := ["--color".toList, "--no-color".toList]

def quietOptions : List Text := ["--quiet".toList, "--no-quiet".toList]

def showOptions : OptionTable :=
  [(severityOption, .valued), (highlightOption, .valued), (helpOption, .flag)] ++
    (colorOptions ++ quietOptions).map fun name => (name, .flag)

def lineOptions : OptionTable := [(helpOption, .flag)]

def usage : Text :=
  ("usage: show FILE OFFSET MESSAGE [--severity note|warning|error] [--highlight START:END]...\n" ++
    "            [--color|--no-color] [--quiet|--no-quiet]\n" ++
    "       line FILE OFFSET").toList

/-- How the program ends that is not used as it should be. -/
def misused : Outcome := ⟨2, []⟩

def helped : Outcome := ⟨0, printedLine usage⟩

/-- The severity that is asked for; an error unless something else is said. -/
def severityOf? (w : Words) : Option Severity :=
  match w.last? [severityOption] with
  | none => some .error
  | some (_, word) => Severity.ofWord? word

def ofShowWords? (w : Words) : Option Command :=
  match w.others with
  | [file, offset, message] => do
    return .showIssue {
      file := file
      offset := ← readDecimal? offset
      message := message
      severity := ← severityOf? w
      highlight := (w.options.filter fun o => o.1 == highlightOption).map (·.2)
      color := (w.last? colorOptions).map fun o => o.1 == "--color".toList
      quiet := (w.last? quietOptions).any fun o => o.1 == "--quiet".toList }
  | _ => none

def ofLineWords? (w : Words) : Option Command :=
  match w.others with
  | [file, offset] => do return .showLine file (← readDecimal? offset)
  | _ => none

def readBehind (table : OptionTable) (command? : Words → Option Command) (words : List Text) :
    Except Outcome Command :=
  match Words.sort table words with
  | none => .error misused
  | some w =>
    if (w.last? [helpOption]).isSome then .error helped
    else match command? w with
      | some c => .ok c
      | none => .error misused

/-- Reads a command behind the place where options of its own could stand. -/
def readNamed : List Text → Except Outcome Command
  | [] => .error misused
  | name :: words =>
    if name == "show".toList then readBehind showOptions ofShowWords? words
    else if name == "line".toList then readBehind lineOptions ofLineWords? words
    else .error misused

def read : List Text → Except Outcome Command
  | [] => .error misused
  | t :: rest =>
    if t == helpOption then .error helped
    else if t == ['-', '-'] then readNamed rest
    else readNamed (t :: rest)

end Command

/-- How a cause is reported to those who load a document. -/
def Yaml.Fault.reported : Yaml.Fault → ReadError
  | .malformed => .malformed
  | .tooDeep => .fault .tooDeep
  | .scalar e => .fault ⟨e.kind, e.message⟩

def Host.standard : Host where
  frame := { read := Command.read, refuse := fun _ => Command.misused }
  yaml := { read := fun t => (Yaml.read t).mapError Yaml.Fault.reported, early? := fun _ => none }
  write := Value.write nestingLimit

end Pinpoint
