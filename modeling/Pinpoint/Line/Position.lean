import Pinpoint.Line.Break

/-!
# Lines and columns

An offset into a text and its line and column are two names of one place. Lines count from 1 and
columns from 0. A break belongs to the line that it ends, also between its two characters; offsets
before the text lie on its first line and offsets past it on its last.
-/

namespace Pinpoint

/-- A line, counted from 1, and a column in it, counted from 0. -/
structure LineColumn where
  line : Int
  column : Int
deriving DecidableEq, Repr

inductive OffsetError where
  | lineTooSmall (line : Int)
  | linePastEnd (line : Int)
  | columnOutsideLine (line column : Int) (length : Nat)
deriving DecidableEq, Repr

namespace Text

/-- The breaks that lie wholly at or before an offset. -/
def breaksBefore (t : Text) (offset : Int) : List LineBreak :=
  t.breaks.takeWhile fun b => b.stop ≤ offset

def startAfter (passed : List LineBreak) : Nat :=
  match passed.getLast? with
  | some b => b.stop
  | none => 0

def position (t : Text) (offset : Int) : LineColumn :=
  let passed := t.breaksBefore offset
  { line := passed.length + 1, column := offset - startAfter passed }

/-- The offset where a line starts, if the text has that many lines. -/
def lineStart? (t : Text) (line : Int) : Option Nat :=
  let passed := line.toNat - 1
  if line < 1 || t.breaks.length < passed then none else some (startAfter (t.breaks.take passed))

/-- The offset that has a line and column. -/
def offsetOf (t : Text) (line column : Int) : Except OffsetError Nat :=
  if line < 1 then .error (.lineTooSmall line)
  else match t.lineStart? line with
    | none => .error (.linePastEnd line)
    | some start =>
      let length := t.lineEnd start - start
      if 0 ≤ column && column ≤ length then .ok (start + column.toNat)
      else .error (.columnOutsideLine line column length)

example : position "ab\r\ncd".toList 3 = ⟨1, 3⟩ ∧ position "ab\r\ncd".toList 4 = ⟨2, 0⟩ := by decide
example : offsetOf "ab\ncd".toList 2 1 = .ok 4 := by rfl

end Text

end Pinpoint
