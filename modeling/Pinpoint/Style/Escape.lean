import Pinpoint.Text.Basic

/-!
# Style sequences

The escape sequences that switch text styles on and off in a terminal: escape, an opening bracket,
any digits and semicolons, and the letter `m`. `stripStyles` removes them in one pass from left to
right.
-/

namespace Pinpoint

def escape : Char := '\x1b'

/-- The characters that may stand between the bracket and the `m`. -/
def isStyleParameter (c : Char) : Bool := ('0' ≤ c && c ≤ '9') || c == ';'

/-- The sequence that sets a style by its number. -/
def styleSequence (code : Nat) : Text := escape :: '[' :: Nat.toDigits 10 code ++ ['m']

/-- The length of the style sequence at the front of a text, if one stands there. -/
def sequenceLength? : Text → Option Nat
  | c :: '[' :: rest =>
    if c == escape then
      match rest.dropWhile isStyleParameter with
      | 'm' :: _ => some ((rest.takeWhile isStyleParameter).length + 3)
      | _ => none
    else none
  | _ => none

/-- Removes the style sequences of a text whose first characters, as many as given, are left out. -/
def stripAfter : Nat → Text → Text
  | _, [] => []
  | n + 1, _ :: rest => stripAfter n rest
  | 0, c :: rest =>
    match sequenceLength? (c :: rest) with
    | some n => stripAfter (n - 1) rest
    | none => c :: stripAfter 0 rest

def stripStyles (t : Text) : Text := stripAfter 0 t

example : stripStyles "\x1b[3\x1b[1m1mx".toList = "\x1b[31mx".toList := by rfl

end Pinpoint
