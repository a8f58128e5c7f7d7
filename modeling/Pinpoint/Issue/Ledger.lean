import Pinpoint.Issue.Basic

/-!
# Ledgers

The ordered collection of the issues found in one run. An issue keeps its number, which says how
many were added before it, also when a filter takes it off the list; whoever holds the number can
still highlight the issue, and every later look at the issue sees the highlight.
-/

namespace Pinpoint

/-- The issues of one run: all that were ever added, and the numbers of those still listed. -/
structure Ledger where
  added : List Issue
  listed : List Nat
deriving DecidableEq, Repr

namespace Ledger

def empty : Ledger := ⟨[], []⟩

def get? (l : Ledger) (n : Nat) : Option Issue := l.added[n]?

def issues (l : Ledger) : List Issue := l.listed.filterMap l.get?

def next (l : Ledger) : Nat := l.added.length

def push (l : Ledger) (i : Issue) : Ledger := ⟨l.added ++ [i], l.listed ++ [l.next]⟩

/-- Highlights the issue with a number, listed or not. -/
def highlight (l : Ledger) (n : Nat) (h : Highlight) : Ledger :=
  { l with added := l.added.modify n (·.addHighlight h) }

/-- Goes through numbered issues from left to right and keeps those that a test lets pass. A test
that fails ends the walk. -/
def keepListed {ε : Type} (keep : Issue → Except ε Bool) (l : Ledger) :
    List Nat → Except ε (List Nat)
  | [] => .ok []
  | n :: rest =>
    match l.get? n with
    | none => keepListed keep l rest
    | some i => do
      let kept ← keep i
      let others ← keepListed keep l rest
      return if kept then n :: others else others

def errorCount (l : Ledger) : Nat := l.issues.countP Issue.isError

def warningCount (l : Ledger) : Nat := l.issues.countP Issue.isWarning

/-- The number of the listed issue at an index; a negative one counts from the end. -/
def numberAt? (l : Ledger) (index : Int) : Option Nat :=
  let i := if index < 0 then index + l.listed.length else index
  if i < 0 then none else l.listed[i.toNat]?

/-! ## What callers do

Each of these goes step by step, and where a step fails, what the steps before it did to the ledger
remains. -/

/-- Adds an issue at the end, once it is made. -/
def add (source : Value) (file : Text) (location : Value) (message : Text) (severity : Severity) :
    EStateM LocationError Ledger Unit := do
  let issue ← MonadExcept.ofExcept (Issue.create source file location message severity)
  modify fun l => l.push issue

/-- Adds the error that a parser's failure amounts to, once it is made. -/
def addFailure (write : Writer) (failure source : Value) (file : Text) :
    EStateM LocationError Ledger Unit := do
  let issue ← MonadExcept.ofExcept (Issue.ofFailure write failure source file)
  modify fun l => l.push issue

/-- Takes off the list the issues that a test does not let pass, once all are tested. -/
def filter {ε : Type} (keep : Issue → Except ε Bool) : EStateM ε Ledger Unit := do
  let l ← get
  let listed ← MonadExcept.ofExcept (keepListed keep l l.listed)
  modify fun l => { l with listed := listed }

theorem add_run (l : Ledger) (source : Value) (file : Text) (location : Value) (message : Text)
    (severity : Severity) : (add source file location message severity).run l =
      match Issue.create source file location message severity with
      | .ok i => .ok () (l.push i)
      | .error e => .error e l := by
  unfold add
  cases Issue.create source file location message severity <;> rfl

theorem addFailure_run (l : Ledger) (write : Writer) (failure source : Value) (file : Text) :
    (addFailure write failure source file).run l =
      match Issue.ofFailure write failure source file with
      | .ok i => .ok () (l.push i)
      | .error e => .error e l := by
  unfold addFailure
  cases Issue.ofFailure write failure source file <;> rfl

theorem filter_run {ε : Type} (l : Ledger) (keep : Issue → Except ε Bool) :
    (filter keep).run l =
      match keepListed keep l l.listed with
      | .ok listed => .ok () { l with listed := listed }
      | .error e => .error e l := by
  show (EStateM.bind (MonadExcept.ofExcept (keepListed keep l l.listed)) _) l = _
  cases keepListed keep l l.listed <;> rfl

end Ledger

end Pinpoint
