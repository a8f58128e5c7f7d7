import Pinpoint.Text.Basic

/-!
# Line breaks

Five sequences end a line: a carriage return with a line feed behind it, either of the two alone,
the line separator U+2028 and the paragraph separator U+2029. Since a carriage return takes the line
feed behind it along, the breaks of a text do not overlap, and `Text.breaks` lists them from left to
right.
-/

namespace Pinpoint

/-- The four characters that line breaks are made of. -/
def isBreakChar (c : Char) : Bool :=
  c == '\r' || c == '\n' || c == '\u2028' || c == '\u2029'

/-- A line break in a text: the offset of its first character, and the offset where the next line
starts. -/
structure LineBreak where
  start : Nat
  stop : Nat
deriving DecidableEq, Repr

namespace Text

def breaksFrom (offset : Nat) : Text → List LineBreak
  | [] => []
  | '\r' :: '\n' :: rest => ⟨offset, offset + 2⟩ :: breaksFrom (offset + 2) rest
  | c :: rest =>
    if isBreakChar c then ⟨offset, offset + 1⟩ :: breaksFrom (offset + 1) rest
    else breaksFrom (offset + 1) rest

def breaks (t : Text) : List LineBreak := breaksFrom 0 t

/-- The offset of the first break character at or after an offset, or the length of the text. An
offset inside a break of two characters finds the second one. -/
def lineEnd (t : Text) (offset : Nat) : Nat :=
  min offset t.length + ((t.drop offset).takeWhile (!isBreakChar ·)).length

end Text

theorem Text.lineEnd_le_length (t : Text) (offset : Nat) : t.lineEnd offset ≤ t.length := by
  have h := (List.takeWhile_sublist (l := t.drop offset) (!isBreakChar ·)).length_le
  simp only [List.length_drop] at h
  unfold lineEnd
  omega

theorem Text.le_lineEnd {t : Text} {offset : Nat} (h : offset ≤ t.length) :
    offset ≤ t.lineEnd offset := by
  unfold lineEnd
  omega

end Pinpoint
