import Pinpoint.Text.Blank
import Pinpoint.Text.Digit
import Pinpoint.Text.Numeral

/-!
# Reading integers

The integer numerals that people may write on a command line or in a settings file: blanks around, a
sign, decimal digits of any script, and single underscores between digits. Bases two, eight and
sixteen may be marked (`0b`, `0o`, `0x`).
-/

namespace Pinpoint

/-- The blanks that may stand around a numeral: all but the information separators. -/
def isNumeralBlank (c : Char) : Bool :=
  isBlank c && !(0x1c ≤ c.toNat && c.toNat ≤ 0x1f)

/-- The value of a digit in a base: a decimal digit of any script, or an ASCII letter from ten on.
-/
def digitIn? (base : Nat) (c : Char) : Option Nat :=
  let value := match digitValue? c with
    | some n => some n
    | none =>
      if 'a' ≤ c && c ≤ 'z' then some (c.toNat - 87)
      else if 'A' ≤ c && c ≤ 'Z' then some (c.toNat - 55)
      else none
  value.filter (· < base)

/-- Reads the digits after the first one. An underscore stands between two digits. -/
def readMoreDigits? (base : Nat) : Nat → Text → Option Nat
  | n, [] => some n
  | n, '_' :: c :: rest => (digitIn? base c).bind fun d => readMoreDigits? base (n * base + d) rest
  | n, c :: rest => (digitIn? base c).bind fun d => readMoreDigits? base (n * base + d) rest

/-- Reads one or more digits with single underscores between them. -/
def readDigits? (base : Nat) : Text → Option Nat
  | [] => none
  | c :: rest => (digitIn? base c).bind fun d => readMoreDigits? base d rest

/-- A numeral without the mark of its base, if it carries one; one underscore may follow the mark.
-/
def dropBaseMark (base : Nat) : Text → Text
  | '0' :: c :: rest =>
    if (base == 2 && (c == 'b' || c == 'B')) || (base == 8 && (c == 'o' || c == 'O')) ||
        (base == 16 && (c == 'x' || c == 'X')) then
      match rest with
      | '_' :: more => more
      | more => more
    else '0' :: c :: rest
  | t => t

def readInteger? (base : Nat) (t : Text) : Option Int :=
  match t.trim isNumeralBlank with
  | '-' :: rest => (readDigits? base (dropBaseMark base rest)).map fun n : Nat => -(n : Int)
  | '+' :: rest => (readDigits? base (dropBaseMark base rest)).map Int.ofNat
  | rest => (readDigits? base (dropBaseMark base rest)).map Int.ofNat

/-- Reads a decimal integer that does not have too many digits. -/
def readDecimal? (t : Text) : Option Int :=
  if t.countP isDecimalDigit ≤ digitLimit then readInteger? 10 t else none

example : readInteger? 10 " -1_0 ".toList = some (-10) := by decide
example : readInteger? 10 "1__0".toList = none ∧ readInteger? 10 "+ 5".toList = none := by decide
example : readInteger? 16 "0x_1f".toList = some 31 := by decide

end Pinpoint
