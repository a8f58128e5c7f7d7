import Pinpoint.Report.Block
import Pinpoint.Report.Summary
import Pinpoint.Issue.Ledger
import Pinpoint.Text.Quoted

/-!
# Reports

A report shows issues one below the other and closes with a summary, if there is something to count.
There are three kinds of reporter: one that only returns the report, one that also writes it out
unless it is empty, and one that says nothing.
-/

namespace Pinpoint

/-- What a report has come to after some of its issues: their blocks, and how many of them are
warnings and errors. -/
structure Tally where
  body : Text
  warnings : Nat
  errors : Nat

namespace Tally

def empty : Tally := ⟨[], 0, 0⟩

/-- Counts one more issue, unless it is a note. -/
def count (t : Tally) (i : Issue) : Tally :=
  if i.isWarning then { t with warnings := t.warnings + 1 }
  else if i.isError then { t with errors := t.errors + 1 }
  else t

/-- Goes on with one more issue. The first issue that cannot be rendered ends the report. -/
def add (paint : Role → Text → Except Text Text) (t : Tally) (i : Issue) :
    Except RenderError Tally := do
  let block ← issueBlock paint i
  return { t.count i with body := t.body ++ block }

end Tally

def report (paint : Role → Text → Except Text Text) (issues : List Issue) :
    Except RenderError Text := do
  let total ← issues.foldlM (Tally.add paint) Tally.empty
  let closing := summary total.warnings total.errors
  return if closing.isEmpty then total.body else total.body ++ '\n' :: closing

inductive ReporterKind where
  | standard
  | console
  | silent
deriving DecidableEq, Repr

/-- Why there is no reporter of a kind. -/
structure UnknownReporter where
  kind : Value

namespace ReporterKind

def name : ReporterKind → Text
  | .standard => "standard".toList
  | .console => "console".toList
  | .silent => "silent".toList

/-- All kinds, in the order in which they are offered. -/
def all : List ReporterKind := [.standard, .console, .silent]

def read (v : Value) : Except UnknownReporter ReporterKind :=
  match v.text?.bind fun t => all.find? fun k => k.name == t with
  | some k => .ok k
  | none => .error ⟨v⟩

end ReporterKind

def UnknownReporter.message (write : Writer) (u : UnknownReporter) : Except Fault Text := do
  return "Unknown reporter ".toList ++ (← write u.kind) ++ ", expected one of: ".toList ++
    Text.join [',', ' '] (ReporterKind.all.map ReporterKind.name)

/-- What a reporter returns, and the texts that it writes out. -/
structure Reported where
  text : Text
  written : List Text
deriving DecidableEq, Repr

/-- Lets a reporter of a kind report on issues. -/
def ReporterKind.report (kind : ReporterKind) (paint : Role → Text → Except Text Text)
    (issues : List Issue) : Except RenderError Reported :=
  match kind with
  | .silent => .ok ⟨[], []⟩
  | .standard => (Pinpoint.report paint issues).map fun t => ⟨t, []⟩
  | .console =>
    (Pinpoint.report paint issues).map fun t => ⟨t, if t.isEmpty then [] else [t]⟩

/-- Writes the report of a ledger in plain text or under a policy. -/
def Ledger.render (l : Ledger) (policy : Policy) (enabled : Bool) : Except RenderError Text :=
  Pinpoint.report (policy.paint enabled) l.issues

/-- The exit code of a run that found these issues: 1 with errors, 2 with warnings alone, else 0. -/
def Ledger.exitCode (l : Ledger) : Nat :=
  if l.errorCount ≠ 0 then 1 else if l.warningCount ≠ 0 then 2 else 0

/-! ## Blocks and counts apart -/

def blocks (paint : Role → Text → Except Text Text) : List Issue → Except RenderError Text
  | [] => .ok []
  | i :: rest => do
    let t ← issueBlock paint i
    let ts ← blocks paint rest
    return t ++ ts

theorem Tally.count_warnings (t : Tally) (i : Issue) :
    (t.count i).warnings = t.warnings + if i.isWarning then 1 else 0 := by
  unfold count
  split
  · rfl
  · split <;> rfl

/-- No issue is both, so that the errors are all counted. -/
theorem Tally.count_errors (t : Tally) (i : Issue) :
    (t.count i).errors = t.errors + if i.isError then 1 else 0 := by
  have hexclusive : i.isWarning = true → i.isError = false := by
    unfold Issue.isWarning Issue.isError
    cases i.severity <;> decide
  unfold count
  split
  · rename_i hwarning
    rw [hexclusive hwarning]
    rfl
  · split <;> rfl

/-- Issue by issue, a report adds up the blocks and the counts of the list. -/
theorem foldlM_add (paint : Role → Text → Except Text Text) (issues : List Issue) (t : Tally) :
    issues.foldlM (Tally.add paint) t = (blocks paint issues).map fun body =>
      ⟨t.body ++ body, t.warnings + issues.countP Issue.isWarning,
        t.errors + issues.countP Issue.isError⟩ := by
  induction issues generalizing t with
  | nil => simp [blocks, Except.map, pure, Except.pure]
  | cons i rest ih =>
    rw [List.foldlM_cons, blocks, Tally.add]
    cases issueBlock paint i with
    | error e => rfl
    | ok block =>
      show List.foldlM (Tally.add paint) { t.count i with body := t.body ++ block } rest = _
      rw [ih]
      cases blocks paint rest with
      | error e => rfl
      | ok body =>
        show Except.ok _ = Except.ok _
        simp only [Tally.count_warnings, Tally.count_errors, List.countP_cons, List.append_assoc,
          Nat.add_assoc, Nat.add_comm (ite _ _ _)]

theorem report_eq (paint : Role → Text → Except Text Text) (issues : List Issue) :
    report paint issues = (do
      let body ← blocks paint issues
      let closing := summary (issues.countP Issue.isWarning) (issues.countP Issue.isError)
      return if closing.isEmpty then body else body ++ '\n' :: closing) := by
  rw [report, foldlM_add]
  simp only [Tally.empty, List.nil_append, Nat.zero_add]
  cases blocks paint issues <;> rfl

end Pinpoint
