import Pinpoint.Text.Basic

/-!
# Blank characters

The characters that count as whitespace: those of the Unicode property `White_Space` and the four
information separators U+001C to U+001F. The zero-width space and the byte order mark are not
among them.
-/

namespace Pinpoint

/-- Whitespace, as trimming and the location suffix of a message understand it. -/
def isBlank (c : Char) : Bool :=
  let n := c.toNat
  (0x09 ≤ n && n ≤ 0x0d) || (0x1c ≤ n && n ≤ 0x20) || n == 0x85 || n == 0xa0 || n == 0x1680 ||
    (0x2000 ≤ n && n ≤ 0x200a) || n == 0x2028 || n == 0x2029 || n == 0x202f || n == 0x205f ||
    n == 0x3000

/-- A text without the blanks at its end. -/
def Text.trimEnd (t : Text) : Text := (t.reverse.dropWhile isBlank).reverse

def Text.trim (blank : Char → Bool) (t : Text) : Text :=
  ((t.dropWhile blank).reverse.dropWhile blank).reverse

end Pinpoint
