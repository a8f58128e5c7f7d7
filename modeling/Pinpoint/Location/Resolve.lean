import Pinpoint.Location.Error

/-!
# Resolving locations

A location in a source resolves to its line, its column and the bounds of its physical line. Bare
offsets and spans are looked up in the text. A location that carries its line and column keeps them,
provided that its column does not reach back over a line break; in a single line only such a
location can be resolved, since the line alone says nothing about offsets.
-/

namespace Pinpoint

/-- Refuses an offset outside a text. -/
def checkOffset (t : Text) (offset : Int) : Except LocationError Unit :=
  if 0 ≤ offset && offset ≤ t.length then .ok () else .error (.offsetOutside offset t.length)

/-- Whether a break character stands at an offset from `start` up to, but not including, `stop`. -/
def Text.hasBreakBetween (t : Text) (start stop : Int) : Bool :=
  ((t.take stop.toNat).drop start.toNat).any isBreakChar

/-- The offset of the first break character at or after an offset; an offset outside the text counts
as its nearest end. -/
def Text.findLineEnd (t : Text) (offset : Int) : Except LocationError Nat :=
  if fitsWord offset then .ok (t.lineEnd offset.toNat) else .error .tooWide

/-- Resolves an offset whose column is known. `looked` says that the column was looked up in the
text, so that it cannot reach over a break. -/
def resolveText (t : Text) (looked : Bool) (start : Int) (p : LineColumn) :
    Except LocationError LineInfo := do
  let lineStart := start - p.column
  if lineStart < 0 then throw (.columnBeforeText p.column start)
  checkOffset t start
  if !looked then
    -- an offset of the text always fits; only a column below zero leads past its end
    if t.length < lineStart && !fitsWord lineStart then throw .tooWide
    if t.hasBreakBetween lineStart start then throw (.columnPastLine p.column p.line start)
  return {
    line := p.line
    column := p.column
    lineStart := lineStart
    lineEnd := t.lineEnd start.toNat
    sourceLength := t.length }

/-- Resolves an offset with its line and column when only its physical line is at hand. -/
def resolveLine (t : Text) (start : Int) (p : LineColumn) : Except LocationError LineInfo := do
  let lineStart := start - p.column
  if lineStart < 0 then throw (.columnBeforeText p.column start)
  if t.length < p.column then throw (.columnPastSourceLine p.column)
  return {
    line := p.line
    column := p.column
    lineStart := lineStart
    lineEnd := lineStart + t.length
    sourceLength := lineStart + t.length }

def resolve (source : Source) (location : Location) : Except LocationError LineInfo :=
  match source, location.trusted? with
  | .text t, some p => resolveText t false location.start p
  | .text t, none => resolveText t true location.start (t.position location.start)
  | .line t, some p => resolveLine t location.start p
  | .line _, none => .error .lineWithoutColumn

/-- The text of a physical line without the blanks at its end. -/
def extractLine (source : Source) (info : LineInfo) : Text :=
  match source with
  | .text t => (t.slice info.lineStart info.lineEnd).trimEnd
  | .line t => t.trimEnd

/-- The text of the physical line that an offset lies on, without the blanks at its end. -/
def lineWithPosition (t : Text) (offset : Int) : Except LocationError Text := do
  checkOffset t offset
  let start := offset - (t.position offset).column
  return (t.slice start (t.lineEnd offset.toNat)).trimEnd

/-- The source that a value is, as it stands. -/
def Source.ofValue? : Value → Option Source
  | .scalar (.text t) => some (.text t)
  | .sourceLine (.scalar (.text t)) => some (.line t)
  | _ => none

/-- Resolves a location in a source, where both may turn out to be something else. -/
def resolveValue (source location : Value) : Except LocationError LineInfo :=
  match Source.ofValue? source, location with
  | none, _ => .error .notASource
  | some s, .located l => resolve s l
  | some _, v => .error (.notALocation v.typeName)

end Pinpoint
