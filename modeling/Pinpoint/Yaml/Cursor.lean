import Pinpoint.Yaml.Fault

/-!
# Reading a text character by character

A cursor is the unread part of a text together with how far it is into the text, its line and its
column. Columns decide the structure of a document; a byte order mark takes no column.
-/

namespace Pinpoint.Yaml

def byteOrderMark : Char := '\ufeff'

/-- The characters that end a line. -/
def isBreak (c : Char) : Bool :=
  c == '\n' || c == '\r' || c == '\u0085' || c == '\u2028' || c == '\u2029'

/-- The characters that a document may hold. -/
def isAllowed (c : Char) : Bool :=
  let n := c.toNat
  n == 0x09 || n == 0x0a || n == 0x0d || (0x20 ≤ n && n ≤ 0x7e) || n == 0x85 ||
    (0xa0 ≤ n && n ≤ 0xfffd) || 0x10000 ≤ n

/-- The end of the text, a space or a line end. -/
def endsWord : Option Char → Bool
  | none => true
  | some c => c == ' ' || isBreak c

/-- The end of the text, a space, a tab or a line end. -/
def endsToken (c? : Option Char) : Bool := endsWord c? || c? == some '\t'

def endsLine : Option Char → Bool
  | none => true
  | some c => isBreak c

/-- The characters of the names of anchors and directives. -/
def isNameChar (c : Char) : Bool := c.isAlphanum || c == '-' || c == '_'

/-- The unread part of a text and its place. -/
structure Cursor where
  rest : Text
  index : Nat
  line : Nat
  column : Nat
deriving DecidableEq, Repr

namespace Cursor

def peek (c : Cursor) : Option Char := c.rest.head?

def peekAt (c : Cursor) (n : Nat) : Option Char := c.rest[n]?

def step (c : Cursor) : Cursor :=
  match c.rest with
  | [] => c
  | ch :: rest =>
    if ch == '\r' && rest.head? == some '\n' then ⟨rest, c.index + 1, c.line, c.column + 1⟩
    else if isBreak ch then ⟨rest, c.index + 1, c.line + 1, 0⟩
    else if ch == byteOrderMark then ⟨rest, c.index + 1, c.line, c.column⟩
    else ⟨rest, c.index + 1, c.line, c.column + 1⟩

def skip : Nat → Cursor → Cursor
  | 0, c => c
  | n + 1, c => skip n c.step

/-- The characters ahead that pass a test, and the cursor behind them. -/
def takeWhile (c : Cursor) (p : Char → Bool) : Text × Cursor :=
  let t := c.rest.takeWhile p
  (t, c.skip t.length)

def skipSpaces (c : Cursor) : Cursor := (c.takeWhile (· == ' ')).2

def skipLine (c : Cursor) : Cursor := (c.takeWhile (!isBreak ·)).2

def skipComment (c : Cursor) : Cursor := if c.peek == some '#' then c.skipLine else c

/-- The line end at the cursor as it counts in a text: the two Unicode separators as themselves, all
others as a line feed. -/
def lineBreak (c : Cursor) : Text × Cursor :=
  match c.peek with
  | none => ([], c)
  | some ch =>
    if ch == '\r' && c.peekAt 1 == some '\n' then (['\n'], c.skip 2)
    else if ch == '\u2028' || ch == '\u2029' then ([ch], c.step)
    else if isBreak ch then (['\n'], c.step)
    else ([], c)

/-- Whether one of the two marks between documents stands here. -/
def atSeparator (c : Cursor) : Bool :=
  (c.rest.take 3 == ['-', '-', '-'] || c.rest.take 3 == ['.', '.', '.']) && endsToken (c.peekAt 3)

end Cursor

end Pinpoint.Yaml
