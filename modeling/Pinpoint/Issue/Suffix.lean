import Pinpoint.Text.Blank
import Pinpoint.Text.Digit

/-!
# Location suffixes

Parsers end their messages with the place of the failure: blanks, and then a line and a column
between parentheses. An issue shows its place anyway, so the suffix is cut off. What is left is not
empty and holds no line feed; the blanks may.
-/

namespace Pinpoint

/-- What stands in front of `(line:column)` at the end of a text. -/
def beforeGroup? (t : Text) : Option Text :=
  match t.reverse with
  | ')' :: rest =>
    match rest.takeWhile isDecimalDigit, rest.dropWhile isDecimalDigit with
    | _ :: _, ':' :: rest =>
      match rest.takeWhile isDecimalDigit, rest.dropWhile isDecimalDigit with
      | _ :: _, '(' :: rest => some rest.reverse
      | _, _ => none
    | _, _ => none
  | _ => none

/-- Splits a text into a part without line feeds, as long as it can be, and one or more blanks. -/
def splitBlanks? (t : Text) : Option (Text × Text) :=
  let n := min (t.takeWhile (· != '\n')).length (t.length - 1)
  if n ≠ 0 && (t.drop n).all isBlank then some (t.take n, t.drop n) else none

/-- A message without the location suffix at its end, if it has one. -/
def stripLocation (t : Text) : Text :=
  match (beforeGroup? t).bind splitBlanks? with
  | some (message, _) => message
  | none => t

example : stripLocation "Unexpected (1:5)".toList = "Unexpected".toList := by decide +kernel
example : stripLocation " (1:5)".toList = " (1:5)".toList := by decide +kernel

end Pinpoint
