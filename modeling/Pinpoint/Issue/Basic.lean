import Pinpoint.Issue.Suffix
import Pinpoint.Location.Read
import Pinpoint.Value.Written

/-!
# Issues

An issue is a note, a warning or an error at a resolved position of a source, together with the text
of its physical line. Highlights are ranges of offsets beside the position; they are kept as given,
and do not take part when two issues are compared.
-/

namespace Pinpoint

/-- How serious an issue is. -/
inductive Severity where
  | note
  | warning
  | error
deriving DecidableEq, Repr

namespace Severity

def word : Severity → Text
  | .note => "note".toList
  | .warning => "warning".toList
  | .error => "error".toList

def ofWord? (t : Text) : Option Severity :=
  [Severity.note, .warning, .error].find? fun s => s.word == t

theorem ofWord?_word (s : Severity) : ofWord? s.word = some s := by cases s <;> decide

theorem word_inj {s s' : Severity} (h : s.word = s'.word) : s = s' :=
  Option.some.inj (by rw [← ofWord?_word s, h, ofWord?_word])

theorem not_mem_word {c : Char} (h : c.isLower = false) (s : Severity) : c ∉ s.word := by
  have hall : s.word.all Char.isLower = true := by cases s <;> decide
  intro hc
  rw [List.all_eq_true.1 hall c hc] at h
  cases h

end Severity

/-- Why a value is no severity: it is none of the words. -/
structure UnknownSeverity where
  given : Value

def UnknownSeverity.message (write : Writer) (u : UnknownSeverity) : Except Fault Text := do
  return (← write u.given) ++ " is not a valid Severity".toList

def Severity.read (v : Value) : Except UnknownSeverity Severity :=
  match v.text?.bind ofWord? with
  | some s => .ok s
  | none => .error ⟨v⟩

/-- A range of offsets to mark under an issue's line. Nothing is asked of its ends. -/
structure Highlight where
  start : Int
  stop : Int
deriving DecidableEq, Repr

/-- A note, warning or error tied to a position in a source. -/
structure Issue where
  severity : Severity
  file : Text
  message : Text
  /-- The physical line without the blanks at its end. -/
  source : Text
  info : LineInfo
  highlights : List Highlight
deriving DecidableEq, Repr

namespace Issue

/-- The issue at a location of a source. -/
def make (source : Source) (file : Text) (location : Location) (message : Text)
    (severity : Severity) : Except LocationError Issue := do
  let info ← resolve source location
  return {
    severity := severity
    file := file
    message := message
    source := extractLine source info
    info := info
    highlights := [] }

/-- The issue at a location of a source, where both are read from values. -/
def create (source : Value) (file : Text) (location : Value) (message : Text)
    (severity : Severity) : Except LocationError Issue := do
  let source ← Source.read source
  let location ← Location.read location source.fullText?
  make source file location message severity

def addHighlight (i : Issue) (h : Highlight) : Issue :=
  { i with highlights := i.highlights ++ [h] }

/-- Whether two issues are equal up to their highlights. -/
def same (i j : Issue) : Bool :=
  { i with highlights := [] } == { j with highlights := [] }

def isError (i : Issue) : Bool := i.severity == .error

def isWarning (i : Issue) : Bool := i.severity == .warning

end Issue

def baseName (path : Text) : Text :=
  (path.reverse.takeWhile (· != '/')).reverse

section
variable (write : Writer)

/-- The description of a syntax failure: its message, and its file and line if they are known. A
line that no machine word holds is shown as -1. -/
def syntaxDescription (fields : List (Text × Value)) : Except Fault Text := do
  let message ← match Value.lookup fields "msg".toList with
    | .scalar (.text t) => .ok t
    | v => write v
  let file? := (Value.lookup fields "filename".toList).text?.map baseName
  let line? := (Value.lookup fields "lineno".toList).int?.map fun n =>
    "line ".toList ++ decimal (if fitsWord n then n else -1)
  match file?.toList ++ line?.toList with
  | [] => return message
  | parts => return message ++ ' ' :: bracketed ['('] [')'] parts

/-- The description of what a parser reports as its failure. Anything that is not made to be a
failure is described by how it is written. -/
def failureDescription : Value → Except Fault Text
  | .syntaxFailure fields =>
    match (Value.lookup fields "msg".toList).text? with
    | some (c :: rest) => .ok (c :: rest)
    | _ => syntaxDescription write fields
  | .failure text _ => .ok (text.getD [])
  | .scalar (.text t) => .ok t
  | v => write v

/-- The message that a parser's failure carries: its attribute `message` if that is a text, and
otherwise its description. -/
def failureMessage (v : Value) : Except Fault Text :=
  match (v.ownField "message".toList).text? with
  | some t => .ok t
  | none => failureDescription write v

def Issue.ofFailure (failure source : Value) (file : Text) : Except LocationError Issue := do
  let message ← (failureMessage write failure).mapError .notDescribed
  create source file failure (stripLocation message) .error

end

end Pinpoint
