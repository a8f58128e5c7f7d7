import Pinpoint.Issue.Basic
import Pinpoint.Style.Policy

/-!
# Caret lines

Under the source line of an issue stands a line of marks: tildes under the highlighted offsets and a
caret at the issue's column, which wins over a tilde. Blanks at the end are left out. A column below
zero counts from the end of the marks and may miss them.
-/

namespace Pinpoint

/-- One place of a caret line. -/
inductive Mark where
  | blank
  | tilde
  | caret
deriving DecidableEq, Repr

def Mark.char : Mark → Char
  | .blank => ' '
  | .tilde => '~'
  | .caret => '^'

def Mark.role? : Mark → Option Role
  | .blank => none
  | .tilde => some .highlight
  | .caret => some .caret

/-- Why an issue cannot be rendered. -/
inductive RenderError where
  /-- A style function failed. -/
  | style (message : Text)
  /-- The line or the column cannot be printed. -/
  | numeral (f : Fault)
  /-- The column lies before the first mark. -/
  | caretOutside
  /-- No memory holds so many marks. -/
  | outOfMemory
  /-- The marks cannot even be counted in a machine word. -/
  | tooWide
deriving DecidableEq, Repr

def RenderError.message : RenderError → Text
  | .style m => m
  | .numeral f => f.message
  | .caretOutside => "the column lies before the first mark".toList
  | .outOfMemory => "there is no memory for a line of marks this wide".toList
  | .tooWide => "the column is too wide for a line of marks".toList

/-- How many marks memory does not hold: each takes eight bytes, and the size of a list in bytes is
less than 2 ^ 63. -/
def markLimit : Nat := 0x1000000000000000

/-- Whether a highlight has nothing to do with the source of an issue. -/
def Highlight.misses (h : Highlight) (info : LineInfo) : Bool :=
  h.stop ≤ info.lineStart || info.lineStart + info.sourceLength ≤ h.start

/-- Whether a highlight marks a column of an issue's line. -/
def Highlight.covers (h : Highlight) (info : LineInfo) (column : Nat) : Bool :=
  !h.misses info && max h.start info.lineStart - info.lineStart ≤ column &&
    column < min h.stop info.lineEnd - info.lineStart

/-- How many marks an issue has: enough for its line and its column. -/
def Issue.width (i : Issue) : Nat := max i.source.length (i.info.column + 1).toNat

def Issue.caretIndex? (i : Issue) : Option Nat :=
  let column := i.info.column
  let index := if column < 0 then column + i.width else column
  if 0 ≤ index && index < i.width then some index.toNat else none

/-- The tildes of an issue, without the caret. -/
def Issue.tildes (i : Issue) : List Mark :=
  (List.range i.width).map fun n =>
    if i.highlights.any (·.covers i.info n) then .tilde else .blank

def Issue.marks (i : Issue) : Except RenderError (List Mark) :=
  if !fitsWord i.width then .error .tooWide
  else if markLimit ≤ i.width then .error .outOfMemory
  else match i.caretIndex? with
    | some n => .ok (i.tildes.set n .caret)
    | none => .error .caretOutside

def trimMarks (marks : List Mark) : List Mark :=
  (marks.reverse.dropWhile (· == .blank)).reverse

/-- Styles a run of equal marks. -/
def paintRun (paint : Role → Text → Except Text Text) (run : List Mark) : Except RenderError Text :=
  match run with
  | [] => .ok []
  | m :: _ =>
    match m.role? with
    | some role => (paint role (run.map Mark.char)).mapError .style
    | none => .ok (run.map Mark.char)

def paintRuns (paint : Role → Text → Except Text Text) : List (List Mark) → Except RenderError Text
  | [] => .ok []
  | run :: rest => do
    let t ← paintRun paint run
    let ts ← paintRuns paint rest
    return t ++ ts

/-- The caret line of an issue: every run of equal marks is styled as one. -/
def caretLine (paint : Role → Text → Except Text Text) (i : Issue) : Except RenderError Text := do
  let marks ← i.marks
  paintRuns paint ((trimMarks marks).splitBy (· == ·))

end Pinpoint
