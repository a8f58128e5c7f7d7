import Pinpoint.Location.Resolve

/-!
# Reading sources and locations

Parsers point at positions with whatever they have: bare offsets, tree nodes with a start and an
end, nodes or failures that carry a `loc`, or syntax failures with a line number and a column
counted from 1. A value is inspected here once, by the names it holds, and becomes one of the
variants of `Location`. Whether a mapping or an object carries the names makes no difference.
-/

namespace Pinpoint

/-- Reads a source: a text, a line, or a mapping that holds a line. -/
def Source.read (v : Value) : Except LocationError Source :=
  match Source.ofValue? v with
  | some s => .ok s
  | none =>
    match v with
    | .mapping _ =>
      match (v.field "line".toList).text? with
      | some t => .ok (.line t)
      | none => .error .notReadableAsSource
    | _ => .error .notReadableAsSource

def Source.fullText? : Source → Option Text
  | .text t => some t
  | .line _ => none

/-- A range of offsets, refused if it ends before it starts. -/
def Span.read (start stop : Int) : Except LocationError Span :=
  if h : start ≤ stop then .ok ⟨start, stop, h⟩ else .error (.invertedSpan start stop)

/-- Reads an integer that is called by a name in case it is none. -/
def readInteger (name : Text) (v : Value) : Except LocationError Int :=
  match v.int? with
  | some n => .ok n
  | none => .error (.notAnInteger name v)

def LineColumn.read (v : Value) : Except LocationError LineColumn := do
  let line ← readInteger "line".toList (v.field "line".toList)
  let column ← readInteger "column".toList (v.field "column".toList)
  return ⟨line, column⟩

/-- Reads the end of a range, which is its start if it is not given. -/
def readStop (start : Int) (v : Value) : Except LocationError Int :=
  if v.isNull then .ok start else readInteger "end".toList v

/-- Reads a location that carries lines and columns in `loc`, with the offsets beside it. -/
def readWithLoc (start stop loc : Value) : Except LocationError Location := do
  let start ← readInteger "start".toList start
  let stop ← readStop start stop
  let first := loc.field "start".toList
  if !first.isNull && !(first.field "line".toList).isNull then
    let last := loc.field "end".toList
    let p ← LineColumn.read first
    let q ← LineColumn.read (if last.isNull then first else last)
    return .ranged start stop p q
  else
    let line := loc.field "line".toList
    let column := loc.field "column".toList
    if line.isNull || column.isNull then throw .incompleteLoc
    let line ← readInteger "line".toList line
    let column ← readInteger "column".toList column
    return .placed start stop ⟨line, column⟩

/-- The column of a syntax failure, counted from 0. It may be missing, and is then the first one. -/
def syntaxColumn (v : Value) : Except LocationError Int :=
  if !v.isTruthy then .ok 0
  else match v with
    | .scalar (.int n) => .ok (max (n - 1) 0)
    | .scalar (.bool _) => .ok 0
    | v => .error (.noDifference v.typeName)

def syntaxLine (v : Value) : Except LocationError Int :=
  match v with
  | .scalar (.int n) => .ok n
  | .scalar (.bool b) => .ok (if b then 1 else 0)
  | v => .error (.incomparable v.typeName)

/-- Reads the location of a syntax failure, whose line and column are looked up in the full text. -/
def readSyntax (text? : Option Text) (line column : Value) : Except LocationError Location :=
  match text? with
  | none => .error .syntaxWithoutText
  | some t => do
    let column ← syntaxColumn column
    let line ← syntaxLine line
    match t.offsetOf line column with
    | .ok start => return .placed start start ⟨line, column⟩
    | .error e => throw (.noOffset e)

/-- The line number of a syntax failure; null for any other value. -/
def syntaxLineField : Value → Value
  | .syntaxFailure fields => Value.lookup fields "lineno".toList
  | _ => Value.null

/-- Reads a location by the names that a value holds. The text is needed for syntax failures only.
-/
def Location.readFields (v : Value) (text? : Option Text) : Except LocationError Location :=
  let pos := v.field "pos".toList
  let loc := v.field "loc".toList
  let start := v.field "start".toList
  let stop := v.field "end".toList
  if !loc.isNull then readWithLoc (if start.isNull then pos else start) stop loc
  else if !start.isNull then do
    let start ← readInteger "start".toList start
    let stop ← readStop start stop
    return .span (← Span.read start stop)
  else if !pos.isNull then do
    let pos ← readInteger "pos".toList pos
    return .span ⟨pos, pos, Int.le_refl pos⟩
  else if !(syntaxLineField v).isNull then
    readSyntax text? (syntaxLineField v) (v.field "offset".toList)
  else .error (.notReadableAsLocation v.typeName)

def Location.read (v : Value) (text? : Option Text) : Except LocationError Location :=
  match v with
  | .located l => .ok l
  | .scalar (.int n) => .ok (.offset n)
  | v => readFields v text?

end Pinpoint
