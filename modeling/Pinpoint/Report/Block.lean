import Pinpoint.Report.Caret
import Pinpoint.Text.Lowercase

/-!
# Issue blocks

An issue is shown as three lines: `file:line:column: severity: message`, the source line, and the
caret line. Columns are shown counted from 1, and the message begins with a lowercase letter.
-/

namespace Pinpoint

def Severity.role : Severity → Role
  | .note => .note
  | .warning => .warning
  | .error => .error

def displayedMessage : Text → Text
  | [] => []
  | c :: rest => lowercase c ++ rest

theorem not_mem_displayedMessage {c : Char} (h0 : c.toNat ≠ 0) (hc : c.toNat < 0x61)
    {message : Text} (h : c ∉ message) : c ∉ displayedMessage message := by
  cases message with
  | nil => exact h
  | cons d rest =>
    rw [List.mem_cons, not_or] at h
    rw [displayedMessage, List.mem_append, not_or]
    exact ⟨fun hd => h.1 (eq_of_mem_lowercase h0 hc hd), h.2⟩

/-- The line and column of an issue as they are shown, with the column counted from 1. -/
def displayedPosition (info : LineInfo) : Except Fault Text := do
  return (← printInteger info.line) ++ ':' :: (← printInteger (info.column + 1))

def headerLine (paint : Role → Text → Except Text Text) (i : Issue) : Except RenderError Text := do
  let separator ← (paint .separator [':']).mapError .style
  let position ← (displayedPosition i.info).mapError .numeral
  let file ← (paint .file i.file).mapError .style
  let location ← (paint .location position).mapError .style
  let severity ← (paint i.severity.role i.severity.word).mapError .style
  let message ← (paint .message (displayedMessage i.message)).mapError .style
  return file ++ separator ++ location ++ separator ++ ' ' :: severity ++ separator ++
    ' ' :: message

/-- An issue as a block of three lines, each with a line feed at its end. -/
def issueBlock (paint : Role → Text → Except Text Text) (i : Issue) : Except RenderError Text := do
  let header ← headerLine paint i
  let source ← (paint .source i.source).mapError .style
  let caret ← caretLine paint i
  return header ++ '\n' :: source ++ '\n' :: caret ++ ['\n']

/-! ## Positions that can be printed -/

/-- The line and column of an issue as they are shown if neither has too many digits. -/
def positionNumerals (info : LineInfo) : Text := decimal info.line ++ ':' :: decimal (info.column + 1)

/-- Neither the line nor the column of an issue has too many digits. -/
def LineInfo.Printable (info : LineInfo) : Prop := FewDigits info.line ∧ FewDigits (info.column + 1)

theorem displayedPosition_of_printable {info : LineInfo} (h : info.Printable) :
    displayedPosition info = .ok (positionNumerals info) := by
  simp only [displayedPosition, printInteger_of_fewDigits h.1, printInteger_of_fewDigits h.2]
  rfl

theorem displayedPosition_of_not_printable {info : LineInfo} (h : ¬info.Printable) :
    displayedPosition info = .error .tooManyDigits := by
  by_cases hline : FewDigits info.line
  · have hcolumn : ¬FewDigits (info.column + 1) := fun hcolumn => h ⟨hline, hcolumn⟩
    simp only [displayedPosition, printInteger_of_fewDigits hline,
      printInteger_of_not_fewDigits hcolumn]
    rfl
  · simp only [displayedPosition, printInteger_of_not_fewDigits hline]
    rfl

/-- Nothing is shown of the other parts either, once the separator is styled. -/
theorem headerLine_of_not_printable {paint : Role → Text → Except Text Text} {i : Issue}
    {separator : Text} (hs : paint .separator [':'] = .ok separator) (h : ¬i.info.Printable) :
    headerLine paint i = .error (.numeral .tooManyDigits) := by
  simp only [headerLine, hs, displayedPosition_of_not_printable h]
  rfl

theorem not_mem_positionNumerals {c : Char} (hdigit : c.isDigit = false) (hminus : c ≠ '-')
    (hcolon : c ≠ ':') (info : LineInfo) : c ∉ positionNumerals info := by
  rw [positionNumerals, List.mem_append, List.mem_cons, not_or, not_or]
  exact ⟨not_mem_decimal hdigit hminus _, hcolon, not_mem_decimal hdigit hminus _⟩

end Pinpoint
