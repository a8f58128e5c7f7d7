import Pinpoint.Line.Position

/-!
# Locations

The closed set of ways in which a position in a source is given, and what a position comes to once
it is resolved. A source is either a full text or one physical line that the caller cut out itself.
-/

namespace Pinpoint

/-- A range of offsets that does not end before it starts. -/
structure Span where
  start : Int
  stop : Int
  start_le_stop : start ≤ stop := by omega
deriving DecidableEq, Repr

/-- A position in a source. The last two variants carry the line and column that the parser of the
source computed itself; these are trusted as far as the source allows. -/
inductive Location where
  /-- A bare offset. -/
  | offset (start : Int)
  /-- A range of offsets. -/
  | span (range : Span)
  /-- Offsets with the line and column of the first one. -/
  | placed (start stop : Int) (position : LineColumn)
  /-- Offsets with the lines and columns of both ends. -/
  | ranged (start stop : Int) (first last : LineColumn)
deriving DecidableEq, Repr

/-- What a position points into. -/
inductive Source where
  /-- The full text. -/
  | text (t : Text)
  /-- The physical line alone. -/
  | line (t : Text)
deriving DecidableEq, Repr

/-- A resolved position: its line and column, the offsets where its physical line starts and ends,
and the length of the source as far as it is known. -/
structure LineInfo where
  line : Int
  column : Int
  lineStart : Int
  lineEnd : Int
  sourceLength : Int
deriving DecidableEq, Repr

/-- The offset that a location points at. -/
def Location.start : Location → Int
  | .offset s => s
  | .span r => r.start
  | .placed s _ _ => s
  | .ranged s _ _ _ => s

/-- The line and column that a location carries itself. -/
def Location.trusted? : Location → Option LineColumn
  | .offset _ => none
  | .span _ => none
  | .placed _ _ p => some p
  | .ranged _ _ p _ => some p

end Pinpoint
