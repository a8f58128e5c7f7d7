import Pinpoint.Proofs.CaretLine
import Pinpoint.Issue.Ledger

/-!
# What a run can collect

A run starts with no issues and goes on by adding, highlighting and filtering. Whatever holds of
every issue when it is added, and is kept by highlights, holds of all issues of every run
(`Reachable.forall_added`); filters only choose among them.
-/

namespace Pinpoint

/-- A value that is read as a source, if it is one, that fits into memory. -/
def Value.FitsMemory (v : Value) : Prop := ∀ s, Source.read v = .ok s → s.content.Addressable

namespace Ledger

/-- A step of a run that does not fail. -/
inductive Step : Ledger → Ledger → Prop where
  | add {l l' : Ledger} {source location : Value} {file message : Text} {severity : Severity}
      (fits : source.FitsMemory)
      (added : (add source file location message severity).run l = .ok () l') : Step l l'
  | addFailure {l l' : Ledger} {write : Writer} {failure source : Value} {file : Text}
      (fits : source.FitsMemory)
      (added : (addFailure write failure source file).run l = .ok () l') : Step l l'
  | highlight (l : Ledger) (n : Nat) (h : Highlight) : Step l (l.highlight n h)
  | filter {ε : Type} {l l' : Ledger} {keep : Issue → Except ε Bool}
      (kept : (filter keep).run l = .ok () l') : Step l l'

/-- A ledger that some run comes to. -/
inductive Reachable : Ledger → Prop where
  | empty : Reachable .empty
  | step {l l' : Ledger} : Reachable l → Step l l' → Reachable l'

theorem mem_added_of_mem_issues {l : Ledger} {i : Issue} (h : i ∈ l.issues) : i ∈ l.added := by
  obtain ⟨n, _, hn⟩ := List.mem_filterMap.1 h
  exact List.mem_of_getElem? hn

section
variable {P : Issue → Prop}

theorem forall_mem_push {l : Ledger} {i : Issue} (hl : ∀ j ∈ l.added, P j) (hi : P i) :
    ∀ j ∈ (l.push i).added, P j := by
  intro j hj
  rcases List.mem_append.1 hj with hj | hj
  · exact hl j hj
  · rwa [List.mem_singleton.1 hj]

theorem forall_mem_highlight {l : Ledger} {n : Nat} {h : Highlight} (hl : ∀ j ∈ l.added, P j)
    (hkeep : ∀ j, P j → P (j.addHighlight h)) : ∀ j ∈ (l.highlight n h).added, P j := by
  intro j hj
  obtain ⟨k, hk⟩ := List.mem_iff_getElem?.1 hj
  simp only [highlight, List.getElem?_modify] at hk
  obtain ⟨j', hj', rfl⟩ := Option.map_eq_some_iff.1 hk
  have hp := hl j' (List.mem_of_getElem? hj')
  split
  · exact hkeep j' hp
  · exact hp

theorem filter_added {ε : Type} {l l' : Ledger} {keep : Issue → Except ε Bool}
    (h : (filter keep).run l = .ok () l') : l'.added = l.added := by
  rw [filter_run] at h
  split at h
  · cases h
    rfl
  · cases h

/-- What an addition pushes was created. -/
theorem create_of_addFailure {l l' : Ledger} {write : Writer} {failure source : Value} {file : Text}
    (h : (addFailure write failure source file).run l = .ok () l') :
    ∃ message i, Issue.create source file failure message .error = .ok i ∧ l' = l.push i := by
  rw [addFailure_run] at h
  split at h
  next i hi =>
    cases h
    obtain ⟨message, -, hi⟩ := bind_eq_ok.1 hi
    exact ⟨_, i, hi, rfl⟩
  next => cases h

theorem Step.forall_added
    (hnew : ∀ {source location : Value} {file message : Text} {severity : Severity} {i : Issue},
      source.FitsMemory → Issue.create source file location message severity = .ok i → P i)
    (hkeep : ∀ (i : Issue) (h : Highlight), P i → P (i.addHighlight h))
    {l l' : Ledger} (h : Step l l') (hl : ∀ i ∈ l.added, P i) : ∀ i ∈ l'.added, P i := by
  cases h with
  | add fits added =>
    rw [add_run] at added
    split at added
    next i hi =>
      cases added
      exact forall_mem_push hl (hnew fits hi)
    next => cases added
  | addFailure fits added =>
    obtain ⟨_, i, hi, rfl⟩ := create_of_addFailure added
    exact forall_mem_push hl (hnew fits hi)
  | highlight => exact forall_mem_highlight hl fun i hi => hkeep i _ hi
  | filter kept =>
    rw [filter_added kept]
    exact hl

theorem Reachable.forall_added
    (hnew : ∀ {source location : Value} {file message : Text} {severity : Severity} {i : Issue},
      source.FitsMemory → Issue.create source file location message severity = .ok i → P i)
    (hkeep : ∀ (i : Issue) (h : Highlight), P i → P (i.addHighlight h))
    {l : Ledger} (h : l.Reachable) : ∀ i ∈ l.added, P i := by
  induction h with
  | empty => intro i hi; cases hi
  | step _ step ih => exact step.forall_added hnew hkeep ih

end

end Ledger

end Pinpoint
