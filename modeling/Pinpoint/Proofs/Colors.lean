import Pinpoint.Proofs.CaretLine
import Pinpoint.Proofs.Sequences
import Pinpoint.Report.Basic

/-!
# Colors and what is shown

A report under styles of the registry is the plain report with style sequences put around its parts.
Stripping it gives the report on what stripping leaves of each part (`report_map_stripStyles`): the
marks between the parts stand apart from what is in front of them, so no part completes a sequence
that another one began. The same goes for the plain report, which differs from it only in the
sequences that texts bring along themselves (`stripStyles_report`).
-/

namespace Pinpoint

/-- Styling puts nothing but style sequences around a text. -/
def WrapsOnly (paint : Role → Text → Except Text Text) : Prop :=
  ∀ role t, ∃ u, paint role t = .ok u ∧ Wraps u t

/-- Every style of a policy is a path of registry names. -/
def Policy.OfPaths (p : Policy) : Prop :=
  ∀ role style, p.styleFor role = some style → ∃ codes, style = .path codes

theorem Policy.wrapsOnly_plain (p : Policy) : WrapsOnly (p.paint false) :=
  fun _ t => ⟨t, rfl, .refl t⟩

theorem Policy.OfPaths.wrapsOnly {p : Policy} (hp : p.OfPaths) : WrapsOnly (p.paint true) := by
  intro role t
  simp only [Policy.paint, if_true]
  cases hr : p.styleFor role with
  | none => exact ⟨t, rfl, .refl t⟩
  | some style =>
    obtain ⟨codes, rfl⟩ := hp role style hr
    exact ⟨_, rfl, Style.wraps_wrap codes t⟩

theorem default_ofPaths : Policy.default.OfPaths := by
  intro role style h
  rw [Policy.styleFor_default, Role.defaultStyle] at h
  split at h
  · next codes _ => exact ⟨codes, (Option.some.inj h).symm⟩
  · cases h

/-! ## Texts without escape characters -/

theorem escape_not_mem_positionNumerals (info : LineInfo) : escape ∉ positionNumerals info :=
  not_mem_positionNumerals (by decide) (by decide) (by decide) info

theorem escape_not_mem_word (s : Severity) : escape ∉ s.word := s.not_mem_word (by decide)

theorem escape_not_mem_map_char (marks : List Mark) : escape ∉ marks.map Mark.char :=
  not_mem_map_char (fun m => by cases m <;> decide) marks

theorem escape_not_mem_counted {noun : Text} (h : escape ∉ noun) (n : Int) :
    escape ∉ counted n noun :=
  not_mem_counted (by decide) (by decide) (by decide) (by decide) h n

theorem escape_not_mem_join {separator : Text} (hs : escape ∉ separator) {parts : List Text}
    (h : ∀ t ∈ parts, escape ∉ t) : escape ∉ Text.join separator parts := by
  fun_induction Text.join separator parts with
  | case1 => exact List.not_mem_nil
  | case2 t => exact h t List.mem_cons_self
  | case3 t ts _ ih =>
    simp only [List.mem_append, not_or]
    exact ⟨⟨h t List.mem_cons_self, hs⟩, ih fun u hu => h u (List.mem_cons_of_mem t hu)⟩

theorem escape_not_mem_summary (warnings errors : Int) : escape ∉ summary warnings errors := by
  have hparts : ∀ t ∈ (if 0 < warnings then [counted warnings "warning".toList] else []) ++
      (if 0 < errors then [counted errors "error".toList] else []), escape ∉ t := by
    intro t ht
    rcases List.mem_append.1 ht with ht | ht
    · split at ht
      · rw [List.mem_singleton.1 ht]
        exact escape_not_mem_counted (by decide) _
      · cases ht
    · split at ht
      · rw [List.mem_singleton.1 ht]
        exact escape_not_mem_counted (by decide) _
      · cases ht
  simp only [summary]
  generalize (if 0 < warnings then [counted warnings "warning".toList] else []) ++
    (if 0 < errors then [counted errors "error".toList] else []) = parts at hparts ⊢
  split
  · exact List.not_mem_nil
  · rw [List.mem_append, not_or]
    exact ⟨escape_not_mem_join (by decide) hparts, by decide⟩

/-! ## Parts of a report -/

/-- Shows every part as stripping leaves it. -/
def bare (_ : Role) (t : Text) : Except Text Text := .ok (stripStyles t)

theorem bare_of_not_mem {t : Text} (h : escape ∉ t) (role : Role) : bare role t = .ok t := by
  rw [bare, stripStyles_of_not_mem h]

/-- The second of two renderings is what stripping leaves of the first, whatever follows. -/
inductive Strips : Except RenderError Text → Except RenderError Text → Prop where
  | ok {u v : Text} (h : ∀ rest, stripStyles (u ++ rest) = v ++ stripStyles rest) :
      Strips (.ok u) (.ok v)
  | error (e : RenderError) : Strips (.error e) (.error e)

theorem standsApart_cons {c : Char} (h : continuesSequence c = false) (t : Text) :
    Text.StandsApart (c :: t) := by
  intro d hd
  rwa [← Option.some.inj hd]

theorem paintRun_bare (run : List Mark) : paintRun bare run = .ok (run.map Mark.char) := by
  cases run with
  | nil => rfl
  | cons m rest =>
    simp only [paintRun, bare_of_not_mem (escape_not_mem_map_char _), Except.mapError]
    cases m.role? <;> rfl

section
variable {paint : Role → Text → Except Text Text} (hp : WrapsOnly paint)

include hp

theorem headerLine_strips {i : Issue} (h : i.info.Printable) :
    ∃ u v, headerLine paint i = .ok u ∧ headerLine bare i = .ok v ∧
      ∀ rest : Text, rest.StandsApart → stripStyles (u ++ rest) = v ++ stripStyles rest := by
  have hposition := displayedPosition_of_printable h
  obtain ⟨separator, hs, separates⟩ := hp .separator [':']
  obtain ⟨file, hf, shows⟩ := hp .file i.file
  obtain ⟨location, hl, locates⟩ := hp .location (positionNumerals i.info)
  obtain ⟨severity, hw, warns⟩ := hp i.severity.role i.severity.word
  obtain ⟨message, hm, tells⟩ := hp .message (displayedMessage i.message)
  have hcolon : escape ∉ [':'] := by decide
  have hspace : ∀ t, stripStyles (' ' :: t) = ' ' :: stripStyles t := fun t =>
    stripStyles_cons (sequenceLength?_cons_eq_none (by decide) t)
  refine ⟨file ++ separator ++ location ++ separator ++ ' ' :: severity ++ separator ++
      ' ' :: message,
    stripStyles i.file ++ [':'] ++ positionNumerals i.info ++ [':'] ++ ' ' :: i.severity.word ++
      [':'] ++ ' ' :: stripStyles (displayedMessage i.message), ?_, ?_, ?_⟩
  · simp only [headerLine, hs, hf, hposition, hw, hm, Except.mapError, bind, Except.bind, hl]
    rfl
  · simp only [headerLine, bare_of_not_mem hcolon, bare_of_not_mem (escape_not_mem_word _), hposition,
      Except.mapError, bind, Except.bind, bare_of_not_mem (escape_not_mem_positionNumerals _)]
    rfl
  · intro rest hrest
    simp only [List.append_assoc, List.cons_append]
    -- the separator behind the file stands apart, and what else may be unfinished is at the end
    rw [shows.stripStyles_append
        (separates.standsApart (List.cons_ne_nil _ _) (standsApart_cons (by decide) _) _),
      separates.stripStyles_append_of_not_mem hcolon,
      locates.stripStyles_append_of_not_mem (escape_not_mem_positionNumerals _),
      separates.stripStyles_append_of_not_mem hcolon, hspace,
      warns.stripStyles_append_of_not_mem (escape_not_mem_word _),
      separates.stripStyles_append_of_not_mem hcolon, hspace, tells.stripStyles_append hrest]
    simp only [List.cons_append, List.nil_append]

theorem paintRun_strips (run : List Mark) :
    ∃ u, paintRun paint run = .ok u ∧
      ∀ rest, stripStyles (u ++ rest) = run.map Mark.char ++ stripStyles rest := by
  cases run with
  | nil => exact ⟨[], rfl, fun _ => rfl⟩
  | cons m run =>
    have hno := escape_not_mem_map_char (m :: run)
    cases hr : m.role? with
    | none =>
      exact ⟨_, by simp only [paintRun, hr], stripStyles_append_of_not_mem hno⟩
    | some role =>
      obtain ⟨u, hu, marks⟩ := hp role ((m :: run).map Mark.char)
      exact ⟨u, by simp only [paintRun, hr, hu, Except.mapError],
        marks.stripStyles_append_of_not_mem hno⟩

theorem paintRuns_strips (runs : List (List Mark)) :
    ∃ u, paintRuns paint runs = .ok u ∧
      ∀ rest, stripStyles (u ++ rest) = runs.flatten.map Mark.char ++ stripStyles rest := by
  induction runs with
  | nil => exact ⟨[], rfl, fun _ => rfl⟩
  | cons run runs ih =>
    obtain ⟨u, hu, hrun⟩ := paintRun_strips hp run
    obtain ⟨us, hus, hruns⟩ := ih
    refine ⟨u ++ us, by simp only [paintRuns, hu, hus]; rfl, fun rest => ?_⟩
    rw [List.append_assoc, hrun, hruns, List.flatten_cons, List.map_append, List.append_assoc]

theorem caretLine_strips (i : Issue) : Strips (caretLine paint i) (caretLine bare i) := by
  cases hm : i.marks with
  | error e =>
    simp only [caretLine, hm]
    exact .error e
  | ok marks =>
    obtain ⟨u, hu, hstrip⟩ := paintRuns_strips hp ((trimMarks marks).splitBy (· == ·))
    rw [List.flatten_splitBy] at hstrip
    have hcaret : caretLine paint i = .ok u := by
      simp only [caretLine, hm]
      exact hu
    rw [hcaret, caretLine_of_paintRun paintRun_bare hm]
    exact .ok hstrip

/-! ## Reports -/

theorem issueBlock_strips (i : Issue) : Strips (issueBlock paint i) (issueBlock bare i) := by
  by_cases hposition : i.info.Printable
  case neg =>
    obtain ⟨_, hseparator, -⟩ := hp .separator [':']
    have hcolon := bare_of_not_mem (show escape ∉ [':'] by decide) .separator
    simp only [issueBlock, headerLine_of_not_printable hseparator hposition,
      headerLine_of_not_printable hcolon hposition]
    exact .error _
  obtain ⟨u, v, hu, hv, hheader⟩ := headerLine_strips hp hposition
  obtain ⟨source, hs, shows⟩ := hp .source i.source
  have hfeed : ∀ t, stripStyles ('\n' :: t) = '\n' :: stripStyles t := fun t =>
    stripStyles_cons (sequenceLength?_cons_eq_none (by decide) t)
  have hbare : bare .source i.source = .ok (stripStyles i.source) := rfl
  have hcaret := caretLine_strips hp i
  simp only [issueBlock, hu, hv, hs, hbare]
  generalize caretLine paint i = c, caretLine bare i = d at hcaret ⊢
  cases hcaret with
  | error e => exact .error e
  | @ok c d hcaret =>
    refine .ok (u := u ++ '\n' :: source ++ '\n' :: c ++ ['\n'])
      (v := v ++ '\n' :: stripStyles i.source ++ '\n' :: d ++ ['\n']) fun rest => ?_
    simp only [List.append_assoc, List.cons_append, List.nil_append]
    rw [hheader _ (standsApart_cons (by decide) _), hfeed,
      shows.stripStyles_append (standsApart_cons (by decide) _), hfeed, hcaret, hfeed]

theorem blocks_strips (issues : List Issue) :
    Strips (blocks paint issues) (blocks bare issues) := by
  induction issues with
  | nil => exact .ok fun _ => rfl
  | cons i issues ih =>
    have hblock := issueBlock_strips hp i
    simp only [blocks]
    generalize issueBlock paint i = b, issueBlock bare i = b' at hblock ⊢
    generalize blocks paint issues = bs, blocks bare issues = bs' at ih ⊢
    cases hblock with
    | error e => exact .error e
    | @ok u v hblock =>
      cases ih with
      | error e => exact .error e
      | @ok us vs ih =>
        refine .ok (u := u ++ us) (v := v ++ vs) fun rest => ?_
        rw [List.append_assoc, hblock, ih, List.append_assoc]

/-- Stripping a report gives the report on what stripping leaves of each part. -/
theorem report_map_stripStyles (issues : List Issue) :
    (report paint issues).map stripStyles = report bare issues := by
  have hblocks := blocks_strips hp issues
  have hclosing := escape_not_mem_summary (issues.countP Issue.isWarning)
    (issues.countP Issue.isError)
  simp only [report_eq]
  generalize summary _ _ = closing at hclosing ⊢
  generalize blocks paint issues = b, blocks bare issues = b' at hblocks ⊢
  cases hblocks with
  | error e => rfl
  | @ok u v h =>
    show Except.ok _ = Except.ok _
    congr 1
    split
    · simpa using h []
    · rw [h, stripStyles_of_not_mem]
      rw [List.mem_cons, not_or]
      exact ⟨by decide, hclosing⟩

end

/-! ## Texts that bring no sequences along -/

theorem lowercase_escape : lowercase escape = [escape] := by decide

theorem stripStyles_displayedMessage {message : Text} (h : ¬message.HasSequence) :
    stripStyles (displayedMessage message) = displayedMessage message := by
  cases message with
  | nil => rfl
  | cons c rest =>
    by_cases hc : c = escape
    · subst hc
      rw [displayedMessage, lowercase_escape]
      exact stripStyles_of_not_hasSequence h
    · have hfirst : escape ∉ lowercase c := fun h =>
        hc (eq_of_mem_lowercase (by decide) (by decide) h).symm
      have hrest : ¬Text.HasSequence rest := by
        rintro ⟨s, hs, hinfix⟩
        exact h ⟨s, hs, hinfix.trans (List.suffix_cons c rest).isInfix⟩
      rw [displayedMessage, stripStyles_append_of_not_mem hfirst,
        stripStyles_of_not_hasSequence hrest]

/-- No text of an issue holds a style sequence. -/
def Issue.IsPlain (i : Issue) : Prop :=
  ¬i.file.HasSequence ∧ ¬i.message.HasSequence ∧ ¬i.source.HasSequence

theorem issueBlock_bare {i : Issue} (h : i.IsPlain) (p : Policy) :
    issueBlock bare i = issueBlock (p.paint false) i := by
  obtain ⟨hfile, hmessage, hsource⟩ := h
  have hheader : headerLine bare i = headerLine (p.paint false) i := by
    have hcolon := bare_of_not_mem (show escape ∉ [':'] by decide) .separator
    by_cases hposition : i.info.Printable
    · simp only [headerLine, bare, stripStyles_of_not_hasSequence hfile,
        stripStyles_displayedMessage hmessage, stripStyles_of_not_mem (escape_not_mem_word _),
        displayedPosition_of_printable hposition, Except.mapError, bind, Except.bind,
        stripStyles_of_not_mem (escape_not_mem_positionNumerals _),
        stripStyles_of_not_mem (show escape ∉ [':'] by decide)]
      rfl
    · rw [headerLine_of_not_printable hcolon hposition,
        headerLine_of_not_printable (show p.paint false .separator [':'] = .ok _ from rfl) hposition]
  have hcaret : caretLine bare i = caretLine (p.paint false) i := by
    cases hm : i.marks with
    | error e => simp only [caretLine, hm]; rfl
    | ok marks => rw [caretLine_of_paintRun paintRun_bare hm, caretLine_plain p hm]
  have hbare : bare .source i.source = p.paint false .source i.source := by
    rw [bare, stripStyles_of_not_hasSequence hsource]
    rfl
  simp only [issueBlock, hheader, hcaret, hbare]

theorem blocks_bare {issues : List Issue} (h : ∀ i ∈ issues, i.IsPlain) (p : Policy) :
    blocks bare issues = blocks (p.paint false) issues := by
  induction issues with
  | nil => rfl
  | cons i issues ih =>
    simp only [blocks, issueBlock_bare (h i List.mem_cons_self) p,
      ih fun j hj => h j (List.mem_cons_of_mem i hj)]

/-- **Under styles of the registry, colored and plain reports are the same but for style sequences:
they strip to the same text, and if the texts of the issues hold no sequence, the colored report
strips to the plain one.** -/
theorem stripStyles_report {p : Policy} (hp : p.OfPaths) (issues : List Issue) :
    (report (p.paint true) issues).map stripStyles =
        (report (p.paint false) issues).map stripStyles ∧
      ((∀ i ∈ issues, i.IsPlain) →
        (report (p.paint true) issues).map stripStyles = report (p.paint false) issues) := by
  have hcolored := report_map_stripStyles hp.wrapsOnly issues
  constructor
  · rw [hcolored, report_map_stripStyles p.wrapsOnly_plain issues]
  · intro hplain
    rw [hcolored]
    simp only [report_eq, blocks_bare hplain p]

/-- An issue whose texts end in the middle of sequences, and begin with what would complete them. -/
theorem stripStyles_report_unfinished :
    ∃ i : Issue, i.file = "m\x1b[3".toList ∧ i.message = "1m\x1b".toList ∧
      i.source = "[0m\x1b[0;".toList ∧ i.IsPlain ∧ Policy.default.OfPaths ∧
      report (Policy.default.paint false) [i] =
        .ok "m\x1b[3:1:3: error: 1m\x1b\n[0m\x1b[0;\n~~^~~\n\n1 error generated.".toList ∧
      (report (Policy.default.paint true) [i]).map stripStyles =
        (report (Policy.default.paint false) [i]).map stripStyles ∧
      ((∀ j ∈ [i], j.IsPlain) → (report (Policy.default.paint true) [i]).map stripStyles =
        report (Policy.default.paint false) [i]) := by
  refine ⟨⟨.error, "m\x1b[3".toList, "1m\x1b".toList, "[0m\x1b[0;".toList, ⟨1, 2, 0, 7, 7⟩,
    [⟨0, 5⟩]⟩, rfl, rfl, rfl, ?_, default_ofPaths, ?_, ?_⟩
  · exact ⟨by decide, by decide, by decide⟩
  · decide +kernel
  · exact stripStyles_report default_ofPaths _

end Pinpoint
