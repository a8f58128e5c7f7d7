import Pinpoint.Text.Printable

/-!
# Quoted text

How a text is written inside a message: between single quotes, or between double quotes if it holds
a single quote and no double one; the quote itself, the backslash and every unprintable character
are escaped.
-/

namespace Pinpoint

/-- The last `width` digits of a number in base sixteen. -/
def hexadecimal (width n : Nat) : Text :=
  let digits := Nat.toDigits 16 n
  List.replicate (width - digits.length) '0' ++ digits

namespace Quoted

def single : Char := '\x27'

def double : Char := '\x22'

/-- The quotes to put around a text. -/
def mark (t : Text) : Char := if t.contains single && !t.contains double then double else single

/-- One character between quotes. -/
def char (quote c : Char) : Text :=
  if c == quote || c == '\\' then ['\\', c]
  else if c == '\n' then ['\\', 'n']
  else if c == '\r' then ['\\', 'r']
  else if c == '\t' then ['\\', 't']
  else if isPrintable c then [c]
  else if c.toNat ≤ 0xff then '\\' :: 'x' :: hexadecimal 2 c.toNat
  else if c.toNat ≤ 0xffff then '\\' :: 'u' :: hexadecimal 4 c.toNat
  else '\\' :: 'U' :: hexadecimal 8 c.toNat

def text (t : Text) : Text := mark t :: t.flatMap (char (mark t)) ++ [mark t]

/-- A byte string between quotes: bytes outside printable ASCII are escaped. -/
def bytes (bs : List UInt8) : Text :=
  let t := bs.map fun b => Char.ofNat b.toNat
  let byte (c : Char) : Text :=
    if c.toNat < 0x7f then char (mark t) c else '\\' :: 'x' :: hexadecimal 2 c.toNat
  'b' :: mark t :: t.flatMap byte ++ [mark t]

example : text ['i', single, 's'] = [double, 'i', single, 's', double] := by decide +kernel
example : text ['a', '\n'] = [single, 'a', '\\', 'n', single] := by decide +kernel

end Quoted

end Pinpoint
