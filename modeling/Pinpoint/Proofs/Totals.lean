import Pinpoint.Proofs.Shown
import Pinpoint.Report.Basic

/-!
# Reports and their totals

A report is rendered exactly if every block in it is, and is then those blocks in order, with the
summary behind them if an error or a warning is listed: what it counts as it goes is what the list
counts (`report_eq`). The summary falls apart into words at its blanks, and its numerals are the
counts, so that it tells them both (`summary_inj`). Hence a report shows its exit code: without a
summary it is 0, and 1 if the summary speaks of errors (`render_totals`).
-/

namespace Pinpoint

/-! ## The words of a summary -/

def countWords (n : Nat) (noun : Text) : List Text :=
  [decimal n, noun ++ if (n : Int) == 1 then [] else ['s']]

def summaryWords : Nat → Nat → List Text
  | 0, 0 => []
  | warnings, 0 => countWords warnings "warning".toList ++ ["generated.".toList]
  | 0, errors => countWords errors "error".toList ++ ["generated.".toList]
  | warnings, errors =>
    countWords warnings "warning".toList ++ "and".toList ::
      (countWords errors "error".toList ++ ["generated.".toList])

theorem summary_eq_intercalate (w e : Nat) :
    summary w e = List.intercalate [' '] (summaryWords w e) := by
  cases w <;> cases e <;>
    simp [summary, summaryWords, counted, countWords, List.intercalate, Text.join]

theorem space_not_mem_countWords (noun : Text) (h : ' ' ∉ noun) (n : Nat) :
    ∀ word ∈ countWords n noun, ' ' ∉ word := by
  have hdecimal : ' ' ∉ decimal n := not_mem_decimal (by decide) (by decide) n
  have hplural : ' ' ∉ (if (n : Int) == 1 then [] else ['s']) := by split <;> decide
  simp only [countWords, List.forall_mem_cons, List.mem_append, not_or]
  exact ⟨hdecimal, ⟨h, hplural⟩, nofun⟩

theorem space_not_mem_summaryWords (w e : Nat) : ∀ word ∈ summaryWords w e, ' ' ∉ word := by
  have hwarnings := space_not_mem_countWords "warning".toList (by decide) w
  have herrors := space_not_mem_countWords "error".toList (by decide) e
  have hend : ' ' ∉ "generated.".toList := by decide
  have hand : ' ' ∉ "and".toList := by decide
  unfold summaryWords
  split
  · nofun
  · simp only [List.forall_mem_append, List.forall_mem_cons]
    exact ⟨hwarnings, hend, nofun⟩
  · simp only [List.forall_mem_append, List.forall_mem_cons]
    exact ⟨herrors, hend, nofun⟩
  · simp only [List.forall_mem_append, List.forall_mem_cons]
    exact ⟨hwarnings, hand, herrors, hend, nofun⟩

theorem summaryWords_inj {w e w' e' : Nat} (h : summaryWords w e = summaryWords w' e') :
    w = w' ∧ e = e' := by
  have hnumeral {m n : Nat} (h : decimal (m + 1) = decimal (n + 1)) : m = n := by
    have := decimal_inj h
    omega
  -- the noun of the first count and the number of words tell which counts are there
  cases w <;> cases e <;> cases w' <;> cases e' <;> simp [summaryWords, countWords] at h ⊢
  case zero.succ.zero.succ => exact hnumeral h.1
  case succ.zero.succ.zero => exact hnumeral h.1
  case succ.succ.succ.succ => exact ⟨hnumeral h.1, hnumeral h.2.2.1⟩

theorem summary_eq_nil_iff {w e : Nat} : summary w e = [] ↔ w = 0 ∧ e = 0 := by
  cases w <;> cases e <;> simp [summary, counted, Text.join]

theorem summary_inj {w e w' e' : Nat} (h : summary w e = summary w' e') : w = w' ∧ e = e' := by
  by_cases hnil : summary w e = []
  · obtain ⟨rfl, rfl⟩ := summary_eq_nil_iff.1 hnil
    obtain ⟨rfl, rfl⟩ := summary_eq_nil_iff.1 (h.symm.trans hnil)
    exact ⟨rfl, rfl⟩
  · have hwords {w e : Nat} (hne : summary w e ≠ []) :
        (summary w e).splitOn ' ' = summaryWords w e := by
      rw [summary_eq_intercalate] at hne ⊢
      refine List.splitOn_intercalate ' ' (space_not_mem_summaryWords w e) fun hnone => hne ?_
      rw [hnone]
      rfl
    apply summaryWords_inj
    rw [← hwords hnil, ← hwords (h ▸ hnil), h]

theorem exists_summary_eq (w : Nat) {e : Nat} (h : e ≠ 0) :
    ∃ front, summary w e = front ++ counted e "error".toList ++ " generated.".toList := by
  have herrors : 0 < (e : Int) := by omega
  by_cases hw : 0 < (w : Int)
  · refine ⟨counted w "warning".toList ++ " and ".toList, ?_⟩
    simp only [summary, if_pos hw, if_pos herrors]
    rfl
  · refine ⟨[], ?_⟩
    simp only [summary, if_neg hw, if_pos herrors]
    rfl

theorem summary_zero {w : Nat} (h : w ≠ 0) :
    summary w (0 : Nat) = counted w "warning".toList ++ " generated.".toList := by
  have hwarnings : 0 < (w : Int) := by omega
  simp only [summary, if_pos hwarnings]
  rfl

/-- Of the words of a summary only the noun of the errors speaks of them: no other has its vowel. -/
theorem error_infix_summary_iff {w e : Nat} : "error".toList <:+: summary w e ↔ e ≠ 0 := by
  constructor
  · rintro h rfl
    have hvowel : 'o' ∈ summary w (0 : Nat) := h.subset (by decide)
    by_cases hw : w = 0
    · subst hw
      exact absurd hvowel (by decide)
    · rw [summary_zero hw, List.mem_append] at hvowel
      refine hvowel.elim ?_ (by decide)
      exact not_mem_counted (by decide) (by decide) (by decide) (by decide) (by decide) w
  · intro h
    obtain ⟨front, hfront⟩ := exists_summary_eq w h
    have hnoun : "error".toList <:+: counted e "error".toList :=
      ⟨decimal e ++ [' '], if (e : Int) == 1 then [] else ['s'], by
        simp only [counted, List.append_assoc, List.cons_append, List.nil_append]⟩
    rw [hfront]
    exact hnoun.trans ⟨front, _, rfl⟩

/-! ## Blocks and what closes them -/

def reportEnd (warnings errors : Nat) : Text :=
  if 0 < errors + warnings then '\n' :: summary warnings errors else []

/-- What the issues of a list look like, one by one. -/
def Renders (paint : Role → Text → Except Text Text) : List Issue → List Text → Prop :=
  List.Forall₂ fun i block => issueBlock paint i = .ok block

section
variable {paint : Role → Text → Except Text Text}

theorem blocks_eq_ok_iff {issues : List Issue} {body : Text} :
    blocks paint issues = .ok body ↔ ∃ bs, Renders paint issues bs ∧ bs.flatten = body := by
  induction issues generalizing body with
  | nil =>
    constructor
    · intro h
      exact ⟨[], .nil, Except.ok.inj h⟩
    · rintro ⟨_, ⟨⟩, rfl⟩
      rfl
  | cons i issues ih =>
    simp only [blocks, bind_eq_ok, ih]
    constructor
    · rintro ⟨block, hblock, others, ⟨bs, hbs, rfl⟩, h⟩
      exact ⟨block :: bs, .cons hblock hbs, Except.ok.inj h⟩
    · rintro ⟨_, hbs, rfl⟩
      cases hbs with
      | cons hblock hbs => exact ⟨_, hblock, _, ⟨_, hbs, rfl⟩, rfl⟩

theorem append_reportEnd (body : Text) (warnings errors : Nat) :
    body ++ reportEnd warnings errors =
      if (summary warnings errors).isEmpty then body else body ++ '\n' :: summary warnings errors := by
  by_cases h : 0 < errors + warnings
  · have hne : ¬(summary warnings errors).isEmpty = true := by
      rw [List.isEmpty_iff, summary_eq_nil_iff]
      omega
    rw [reportEnd, if_pos h, if_neg hne]
  · have hnil : (summary warnings errors).isEmpty = true := by
      rw [List.isEmpty_iff, summary_eq_nil_iff]
      omega
    rw [reportEnd, if_neg h, if_pos hnil, List.append_nil]

theorem blocks_append {xs ys : List Issue} {body : Text} :
    blocks paint (xs ++ ys) = .ok body ↔
      ∃ first second, blocks paint xs = .ok first ∧ blocks paint ys = .ok second ∧
        first ++ second = body := by
  induction xs generalizing body with
  | nil =>
    constructor
    · intro h
      exact ⟨[], body, rfl, h, rfl⟩
    · rintro ⟨_, _, ⟨⟩, h, rfl⟩
      exact h
  | cons i xs ih =>
    simp only [List.cons_append, blocks, bind_eq_ok, ih]
    constructor
    · rintro ⟨block, hblock, _, ⟨first, second, hfirst, hsecond, rfl⟩, h⟩
      refine ⟨block ++ first, second, ⟨block, hblock, first, hfirst, rfl⟩, hsecond, ?_⟩
      rw [List.append_assoc]
      exact Except.ok.inj h
    · rintro ⟨_, second, ⟨block, hblock, first, hfirst, ⟨⟩⟩, hsecond, rfl⟩
      exact ⟨block, hblock, _, ⟨first, second, hfirst, hsecond, rfl⟩, by rw [List.append_assoc]; rfl⟩

def endOf (issues : List Issue) : Text :=
  reportEnd (issues.countP Issue.isWarning) (issues.countP Issue.isError)

theorem report_eq_ok_iff {issues : List Issue} {t : Text} :
    report paint issues = .ok t ↔
      ∃ body, blocks paint issues = .ok body ∧ body ++ endOf issues = t := by
  simp only [report_eq, bind_eq_ok, endOf, append_reportEnd]
  constructor
  · rintro ⟨body, hbody, h⟩
    exact ⟨body, hbody, Except.ok.inj h⟩
  · rintro ⟨body, hbody, rfl⟩
    exact ⟨body, hbody, rfl⟩

theorem report_body_iff {issues : List Issue} {body : Text} :
    report paint issues = .ok (body ++ endOf issues) ↔ blocks paint issues = .ok body := by
  rw [report_eq_ok_iff]
  constructor
  · rintro ⟨body', h, heq⟩
    rwa [← List.append_cancel_right heq]
  · intro h
    exact ⟨body, h, rfl⟩

theorem report_append {xs ys : List Issue} {t : Text} :
    report paint (xs ++ ys) = .ok t ↔
      ∃ first second, report paint xs = .ok (first ++ endOf xs) ∧
        report paint ys = .ok (second ++ endOf ys) ∧ first ++ second ++ endOf (xs ++ ys) = t := by
  simp only [report_body_iff]
  rw [report_eq_ok_iff]
  simp only [blocks_append]
  constructor
  · rintro ⟨_, ⟨first, second, hfirst, hsecond, rfl⟩, rfl⟩
    exact ⟨first, second, hfirst, hsecond, rfl⟩
  · rintro ⟨first, second, hfirst, hsecond, rfl⟩
    exact ⟨_, ⟨first, second, hfirst, hsecond, rfl⟩, rfl⟩

end

/-! ## Exit codes -/

theorem Ledger.exitCode_eq_zero_iff {l : Ledger} :
    l.exitCode = 0 ↔ l.warningCount = 0 ∧ l.errorCount = 0 := by
  unfold exitCode
  split
  · omega
  · split <;> omega

theorem Ledger.exitCode_eq_one_iff {l : Ledger} : l.exitCode = 1 ↔ l.errorCount ≠ 0 := by
  unfold exitCode
  split
  · omega
  · split <;> omega

/-- **A report is its blocks and its totals, and the totals are the exit code.** It is rendered
exactly if all blocks are, and then it is the blocks in order and, if an error or a warning is
listed, a line feed and the summary of the counts. The bodies of two lists put together follow each
other. The summary tells both counts, is missing exactly if the exit code is 0, and speaks of errors
exactly if it is 1. -/
theorem render_totals (l : Ledger) (p : Policy) (enabled : Bool) :
    (∀ t, l.render p enabled = .ok t ↔ ∃ bs, Renders (p.paint enabled) l.issues bs ∧
        bs.flatten ++ reportEnd l.warningCount l.errorCount = t) ∧
      (∀ xs ys t, report (p.paint enabled) (xs ++ ys) = .ok t ↔ ∃ first second,
        report (p.paint enabled) xs = .ok (first ++ endOf xs) ∧
        report (p.paint enabled) ys = .ok (second ++ endOf ys) ∧
        first ++ second ++ endOf (xs ++ ys) = t) ∧
      (Function.Injective fun counts : Nat × Nat => summary counts.1 counts.2) ∧
      (summary l.warningCount l.errorCount = [] ↔ l.exitCode = 0) ∧
      ("error".toList <:+: summary l.warningCount l.errorCount ↔ l.exitCode = 1) := by
  refine ⟨fun t => ?_, fun xs ys t => report_append, ?_, ?_, ?_⟩
  · rw [Ledger.render, report_eq_ok_iff]
    simp only [blocks_eq_ok_iff]
    constructor
    · rintro ⟨_, ⟨bs, hbs, rfl⟩, h⟩
      exact ⟨bs, hbs, h⟩
    · rintro ⟨bs, hbs, h⟩
      exact ⟨_, ⟨bs, hbs, rfl⟩, h⟩
  · rintro ⟨w, e⟩ ⟨w', e'⟩ h
    obtain ⟨rfl, rfl⟩ := summary_inj h
    rfl
  · rw [summary_eq_nil_iff, Ledger.exitCode_eq_zero_iff]
  · rw [error_infix_summary_iff, Ledger.exitCode_eq_one_iff]

end Pinpoint
