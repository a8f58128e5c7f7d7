import Pinpoint.Proofs.Runs
import Pinpoint.Report.Basic

/-!
# What can be rendered

Under styles that never fail, an issue is rendered exactly if its line and column can be printed and
it has marks, and a report exactly if every issue in it is. An accepted issue lacks marks only if
its location carried a column below zero, further than its line is long: then there is no mark to
put the caret on. Either way the report of all other issues is lost with it (`render_ok_iff`). -/

namespace Pinpoint

def NeverFails (paint : Role → Text → Except Text Text) : Prop :=
  ∀ role t, ∃ u, paint role t = .ok u

/-- The styles of a policy do not fail themselves. -/
def Policy.NeverFails (p : Policy) : Prop :=
  ∀ role style, p.styleFor role = some style → ∀ t, ∃ u, style.apply t = .ok u

theorem Policy.NeverFails.paint {p : Policy} (hp : p.NeverFails) (enabled : Bool) :
    Pinpoint.NeverFails (p.paint enabled) := by
  intro role t
  unfold Policy.paint
  cases enabled with
  | false => exact ⟨t, rfl⟩
  | true =>
    cases hr : p.styleFor role with
    | none => exact ⟨t, rfl⟩
    | some style => exact hp role style hr t

theorem default_neverFails : Policy.default.NeverFails := by
  intro role style h t
  rw [Policy.styleFor_default, Role.defaultStyle] at h
  split at h
  · cases h
    exact ⟨_, rfl⟩
  · cases h

/-! ## One issue -/

section
variable {paint : Role → Text → Except Text Text}

theorem paintRun_ok (hp : NeverFails paint) (run : List Mark) :
    ∃ t, paintRun paint run = .ok t := by
  cases run with
  | nil => exact ⟨_, rfl⟩
  | cons m rest =>
    cases hr : m.role? with
    | none => exact ⟨(m :: rest).map Mark.char, by simp only [paintRun, hr]⟩
    | some role =>
      obtain ⟨t, ht⟩ := hp role ((m :: rest).map Mark.char)
      exact ⟨t, by simp only [paintRun, hr, ht, Except.mapError]⟩

theorem paintRuns_ok (hp : NeverFails paint) (runs : List (List Mark)) :
    ∃ t, paintRuns paint runs = .ok t := by
  induction runs with
  | nil => exact ⟨_, rfl⟩
  | cons run rest ih =>
    obtain ⟨ts, hts⟩ := ih
    obtain ⟨t, ht⟩ := paintRun_ok hp run
    exact ⟨t ++ ts, by simp only [paintRuns, ht, hts]; rfl⟩

theorem headerLine_of_printable (hp : NeverFails paint) {i : Issue} (h : i.info.Printable) :
    ∃ t, headerLine paint i = .ok t := by
  obtain ⟨separator, h1⟩ := hp .separator [':']
  obtain ⟨file, h2⟩ := hp .file i.file
  obtain ⟨location, h3⟩ := hp .location (positionNumerals i.info)
  obtain ⟨severity, h4⟩ := hp i.severity.role i.severity.word
  obtain ⟨message, h5⟩ := hp .message (displayedMessage i.message)
  have h6 := displayedPosition_of_printable h
  simp only [headerLine, h1, h2, h4, h5, h6, Except.mapError, bind, Except.bind, h3]
  exact ⟨_, rfl⟩

theorem caretLine_cases (hp : NeverFails paint) (i : Issue) :
    (∃ marks t, i.marks = .ok marks ∧ caretLine paint i = .ok t) ∨
      ∃ e, i.marks = .error e ∧ caretLine paint i = .error e := by
  cases hm : i.marks with
  | ok marks =>
    obtain ⟨t, ht⟩ := paintRuns_ok hp ((trimMarks marks).splitBy (· == ·))
    exact .inl ⟨marks, t, rfl, by simp only [caretLine, hm]; exact ht⟩
  | error e => exact .inr ⟨e, rfl, by simp only [caretLine, hm]; rfl⟩

/-- What becomes of one issue: the position is printed first, and the marks come last. -/
theorem issueBlock_cases (hp : NeverFails paint) (i : Issue) :
    (∃ marks t, i.info.Printable ∧ i.marks = .ok marks ∧ issueBlock paint i = .ok t) ∨
    (¬i.info.Printable ∧ issueBlock paint i = .error (.numeral .tooManyDigits)) ∨
    ∃ e, i.marks = .error e ∧ issueBlock paint i = .error e := by
  by_cases hposition : i.info.Printable
  · obtain ⟨header, h1⟩ := headerLine_of_printable hp hposition
    obtain ⟨source, h2⟩ := hp .source i.source
    rcases caretLine_cases hp i with ⟨marks, caret, hmarks, h3⟩ | ⟨e, hmarks, h3⟩
    · exact .inl ⟨marks, _, hposition, hmarks, by simp only [issueBlock, h1, h2, h3]; rfl⟩
    · exact .inr (.inr ⟨e, hmarks, by simp only [issueBlock, h1, h2, h3]; rfl⟩)
  · obtain ⟨_, hseparator⟩ := hp .separator [':']
    refine .inr (.inl ⟨hposition, ?_⟩)
    simp only [issueBlock, headerLine_of_not_printable hseparator hposition]
    rfl

/-! ## A report -/

/-- Either every issue is rendered, or the first that is not ends the report. -/
theorem blocks_cases (paint : Role → Text → Except Text Text) (issues : List Issue) :
    ((∃ t, blocks paint issues = .ok t) ∧ ∀ i ∈ issues, ∃ t, issueBlock paint i = .ok t) ∨
      ∃ i ∈ issues, ∃ e, issueBlock paint i = .error e ∧ blocks paint issues = .error e := by
  induction issues with
  | nil => exact .inl ⟨⟨_, rfl⟩, nofun⟩
  | cons i rest ih =>
    cases hblock : issueBlock paint i with
    | error e =>
      -- the report ends here, whatever the other issues are
      refine .inr ⟨i, List.mem_cons_self, e, hblock, ?_⟩
      simp only [blocks, hblock]
      rfl
    | ok t =>
      rcases ih with ⟨⟨ts, hts⟩, hall⟩ | ⟨j, hj, e, he, hb⟩
      · refine .inl ⟨⟨t ++ ts, by simp only [blocks, hblock, hts]; rfl⟩, ?_⟩
        exact List.forall_mem_cons.2 ⟨⟨t, hblock⟩, hall⟩
      · refine .inr ⟨j, List.mem_cons_of_mem _ hj, e, he, ?_⟩
        simp only [blocks, hblock, hb]
        rfl

theorem report_of_blocks_ok {issues : List Issue} {t : Text} (h : blocks paint issues = .ok t) :
    ∃ u, report paint issues = .ok u := by
  simp only [report_eq, h]
  exact ⟨_, rfl⟩

theorem report_of_blocks_error {issues : List Issue} {e : RenderError}
    (h : blocks paint issues = .error e) : report paint issues = .error e := by
  simp only [report_eq, h]
  rfl

end

/-! ## Accepted issues -/

structure Issue.Renderable (i : Issue) : Prop where
  /-- The caret has a place among the marks. -/
  column : -(i.source.length : Int) ≤ i.info.column
  line : FewDigits i.info.line

namespace Issue

variable {i : Issue}

/-- A column that has its place among the marks is no large number. -/
theorem Renderable.printable (hw : i.width < markLimit) (h : i.Renderable) : i.info.Printable := by
  refine ⟨h.line, fewDigits_of_lt ?_⟩
  have hcolumn := h.column
  simp only [width, markLimit] at hw
  omega

theorem marks_ok_iff (hw : i.width < markLimit) :
    (∃ marks, i.marks = .ok marks) ↔ -(i.source.length : Int) ≤ i.info.column := by
  cases hc : i.caretIndex? with
  | none =>
    have hneg := caretIndex?_eq_none_iff.1 hc
    rw [marks_of_caretIndex?_eq_none hw hc]
    simp only [reduceCtorEq, exists_false, false_iff]
    omega
  | some n =>
    have hnone : ¬i.caretIndex? = none := by simp [hc]
    rw [caretIndex?_eq_none_iff] at hnone
    rw [marks_of_caretIndex? hw hc]
    simp only [Except.ok.injEq, exists_eq', true_iff]
    omega

theorem eq_caretOutside_of_marks (hw : i.width < markLimit) {e : RenderError}
    (h : i.marks = .error e) : e = .caretOutside := by
  cases hc : i.caretIndex? with
  | none =>
    rw [marks_of_caretIndex?_eq_none hw hc] at h
    exact (Except.error.inj h).symm
  | some n =>
    rw [marks_of_caretIndex? hw hc] at h
    cases h

theorem issueBlock_ok_iff (hw : i.width < markLimit) {paint : Role → Text → Except Text Text}
    (hp : NeverFails paint) : (∃ t, issueBlock paint i = .ok t) ↔ i.Renderable := by
  rcases issueBlock_cases hp i with ⟨marks, t, hposition, hmarks, hblock⟩ | ⟨hposition, hblock⟩ |
    ⟨e, hmarks, hblock⟩
  · exact ⟨fun _ => ⟨(marks_ok_iff hw).1 ⟨marks, hmarks⟩, hposition.1⟩, fun _ => ⟨t, hblock⟩⟩
  · rw [hblock]
    exact ⟨nofun, fun h => absurd (h.printable hw) hposition⟩
  · rw [hblock]
    refine ⟨nofun, fun h => ?_⟩
    obtain ⟨marks, hm⟩ := (marks_ok_iff hw).2 h.column
    rw [hmarks] at hm
    cases hm

/-- The ways in which an issue with as many marks as memory holds is not rendered. -/
theorem issueBlock_error (hw : i.width < markLimit) {paint : Role → Text → Except Text Text}
    (hp : NeverFails paint) {e : RenderError} (h : issueBlock paint i = .error e) :
    e = .caretOutside ∨ e = .numeral .tooManyDigits := by
  rcases issueBlock_cases hp i with ⟨-, t, -, -, hblock⟩ | ⟨-, hblock⟩ | ⟨e', hmarks, hblock⟩
  · rw [h] at hblock
    cases hblock
  · rw [h] at hblock
    exact .inr (Except.error.inj hblock)
  · rw [h] at hblock
    cases hblock
    exact .inl (eq_caretOutside_of_marks hw hmarks)

/-- Memory holds the marks of an accepted issue. -/
theorem create_width_lt {source location : Value} {file message : Text} {severity : Severity}
    (hs : source.FitsMemory) (h : create source file location message severity = .ok i) :
    i.width < markLimit := by
  obtain ⟨s, l, info, hread, _, hinfo, rfl⟩ := create_eq_ok h
  refine Nat.lt_of_le_of_lt ?_ (hs s hread)
  have hline := length_extractLine_le s info
  have hcolumn : info.column ≤ s.content.length := by
    cases s with
    | text t =>
      obtain ⟨hle, h0, hlen, rfl⟩ := resolve_text_eq_ok hinfo
      exact Int.le_trans hle hlen
    | line t =>
      obtain ⟨p, _, hlen, rfl⟩ := resolve_line_eq_ok hinfo
      exact hlen
  simp only [width]
  omega

end Issue

theorem Ledger.Reachable.width_lt {l : Ledger} (hl : l.Reachable) :
    ∀ i ∈ l.issues, i.width < markLimit := fun i hi =>
  hl.forall_added (fun hs h => Issue.create_width_lt hs h) (fun _ _ h => h) i
    (Ledger.mem_added_of_mem_issues hi)

theorem Ledger.Reachable.report_cases {l : Ledger} (hl : l.Reachable)
    {paint : Role → Text → Except Text Text} (hp : NeverFails paint) :
    ((∃ t, report paint l.issues = .ok t) ∧ ∀ i ∈ l.issues, i.Renderable) ∨
      ∃ e, report paint l.issues = .error e ∧ (e = .caretOutside ∨ e = .numeral .tooManyDigits) ∧
        ¬∀ i ∈ l.issues, i.Renderable := by
  rcases blocks_cases paint l.issues with ⟨⟨t, ht⟩, hall⟩ | ⟨i, hi, e, he, hb⟩
  · refine .inl ⟨report_of_blocks_ok ht, fun i hi => ?_⟩
    exact (Issue.issueBlock_ok_iff (hl.width_lt i hi) hp).1 (hall i hi)
  · have hw := hl.width_lt i hi
    refine .inr ⟨e, report_of_blocks_error hb, Issue.issueBlock_error hw hp he, fun hall => ?_⟩
    obtain ⟨t, ht⟩ := (Issue.issueBlock_ok_iff hw hp).2 (hall i hi)
    rw [he] at ht
    cases ht

/-- **A run can be rendered exactly if no listed issue has a column further below zero than its line
is long, or a line with too many digits to be printed.** Nothing else makes the rendering fail. -/
theorem render_ok_iff {l : Ledger} (hl : l.Reachable) {p : Policy} (hp : p.NeverFails)
    (enabled : Bool) :
    ((∃ t, l.render p enabled = .ok t) ↔ ∀ i ∈ l.issues, i.Renderable) ∧
      ((∃ r, ReporterKind.console.report (p.paint enabled) l.issues = .ok r) ↔
        ∀ i ∈ l.issues, i.Renderable) ∧
      ∀ e, l.render p enabled = .error e → e = .caretOutside ∨ e = .numeral .tooManyDigits := by
  unfold Ledger.render ReporterKind.report
  rcases hl.report_cases (hp.paint enabled) with ⟨⟨t, ht⟩, hall⟩ | ⟨e, herror, hcause, hnot⟩
  · rw [ht]
    exact ⟨⟨fun _ => hall, fun _ => ⟨t, rfl⟩⟩, ⟨fun _ => hall, fun _ => ⟨_, rfl⟩⟩, nofun⟩
  · rw [herror]
    refine ⟨⟨nofun, fun h => absurd h hnot⟩, ⟨nofun, fun h => absurd h hnot⟩, ?_⟩
    intro e' he
    exact Except.error.inj he ▸ hcause

theorem fitsMemory_text {t : Text} (h : t.Addressable) : (Value.text t).FitsMemory := by
  intro s hs
  cases hs
  exact h

/-- A run whose only issue has a column below zero that still finds a mark, and highlights too. -/
theorem render_ok_iff_column_below_zero :
    ∃ l : Ledger, l.Reachable ∧ (∃ i ∈ l.issues, i.info.column = -1 ∧ i.highlights ≠ []) ∧
      Policy.default.NeverFails ∧
      ((∃ t, l.render .default true = .ok t) ↔ ∀ i ∈ l.issues, i.Renderable) ∧
      ((∃ r, ReporterKind.console.report (Policy.default.paint true) l.issues = .ok r) ↔
        ∀ i ∈ l.issues, i.Renderable) ∧
      ∀ e, l.render .default true = .error e → e = .caretOutside ∨ e = .numeral .tooManyDigits := by
  have hadd : (Ledger.add (.text ['a', 'b']) [] (.located (.placed 0 0 ⟨1, -1⟩)) [] .note).run
      .empty = .ok () ⟨[⟨.note, [], [], ['b'], ⟨1, -1, 1, 2, 2⟩, []⟩], [0]⟩ := rfl
  have hadded := Ledger.Reachable.step .empty (.add (fitsMemory_text (by decide)) hadd)
  have hl := hadded.step (.highlight _ 0 ⟨0, 9⟩)
  refine ⟨_, hl, ⟨_, List.mem_cons_self, rfl, nofun⟩, default_neverFails, ?_⟩
  exact render_ok_iff hl default_neverFails true

/-- A column further below zero than the line is long leaves no mark for the caret. -/
theorem render_not_always_ok :
    ¬∀ l : Ledger, l.Reachable → ∀ p : Policy, p.NeverFails → ∀ enabled : Bool,
      ∃ t, l.render p enabled = .ok t := by
  intro h
  have hadd : (Ledger.add (.text ['a', 'b']) [] (.located (.placed 0 0 ⟨1, -5⟩)) [] .error).run
      .empty = .ok () ⟨[⟨.error, [], [], [], ⟨1, -5, 5, 2, 2⟩, []⟩], [0]⟩ := rfl
  have hl := Ledger.Reachable.step .empty (.add (fitsMemory_text (by decide)) hadd)
  obtain ⟨t, ht⟩ := h _ hl .default default_neverFails false
  cases ht

end Pinpoint
