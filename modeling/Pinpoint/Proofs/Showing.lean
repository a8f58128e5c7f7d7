import Pinpoint.Command.Run
import Pinpoint.Proofs.History
import Pinpoint.Proofs.Policies
import Pinpoint.Proofs.Rendering

/-!
# What a command shows

Rendering an issue in a file ends in one of three ways: the file holds no text, the offset is not in
its text, or the issue is shown; only in the last case does the policy of the process change
(`World.runShow_outcome`). It breaks off at a path that no file can have, at an offset that is not
in the text and cannot be printed either, at colors that cannot be gone through, and at a style, set
earlier, that fails (`World.runShow_not_always_ok`). -/

namespace Pinpoint

/-! ## Files and their texts -/

/-- A file that can be read and holds a text, encoded in UTF-8 character by character. -/
def World.Holds (w : World) (file t : Text) : Prop :=
  w.content? (Path.ofText file) = some t.utf8Encode

namespace World

variable {w : World} {file : Text}

theorem Holds.unique {t u : Text} (ht : w.Holds file t) (hu : w.Holds file u) : t = u := by
  have hbytes : t.utf8Encode = u.utf8Encode := Option.some.inj (ht.symm.trans hu)
  have hdecode := decodeText?_eq_some_iff.2 hbytes
  rw [decodeText?_eq_some_iff.2 rfl] at hdecode
  exact Option.some.inj hdecode

theorem Holds.pathFlaw? {t : Text} (h : w.Holds file t) : w.pathFlaw? (Path.ofText file) = none := by
  unfold Holds content? locate at h
  cases hflaw : w.pathFlaw? (Path.ofText file) with
  | none => rfl
  | some f =>
    rw [hflaw, Option.isSome_some, if_pos rfl] at h
    cases h

theorem sourceText_of_holds {t : Text} (h : w.Holds file t) : w.sourceText file = .ok (some t) := by
  rw [sourceText, h.pathFlaw?]
  dsimp only
  rw [h, Option.bind_some, decodeText?_eq_some_iff.2 rfl]

theorem sourceText_of_not_holds (hflaw : w.pathFlaw? (Path.ofText file) = none)
    (h : ¬∃ t, w.Holds file t) : w.sourceText file = .ok none := by
  rw [sourceText, hflaw]
  cases hcontent : w.content? (Path.ofText file) with
  | none => rfl
  | some bytes =>
    dsimp only
    rw [Option.bind_some]
    cases hdecode : decodeText? bytes with
    | none => rfl
    | some t =>
      rw [decodeText?_eq_some_iff] at hdecode
      exact absurd ⟨t, hcontent.trans (congrArg some hdecode)⟩ h

end World

/-! ## The issue -/

def Severity.exitCode : Severity → Nat
  | .error => 1
  | .warning => 2
  | .note => 0

namespace Config

/-- What a caller does to collect one issue at an offset of a text and to highlight it. -/
def history (config : Config) (t : Text) : List (Action Empty) :=
  .add (.text t) config.file (.int config.offset) config.message config.severity ::
    config.highlights.map (.highlight 0)

/-- Whether the offset lies in a text. -/
def Fits (config : Config) (t : Text) : Prop := 0 ≤ config.offset ∧ config.offset ≤ t.length

/-- The issue at the offset of a text that it lies in. -/
def issue (config : Config) (t : Text) : Issue where
  severity := config.severity
  file := config.file
  message := config.message
  source := extractLine (.text t) (textInfo t config.offset (t.position config.offset))
  info := textInfo t config.offset (t.position config.offset)
  highlights := config.highlights

variable {config : Config} {t : Text}

theorem resolve_offset (h : config.Fits t) :
    resolve (.text t) (.offset config.offset) =
      .ok (textInfo t config.offset (t.position config.offset)) :=
  (resolve_offset_eq t config.offset).trans (if_pos h)

theorem renderable_issue (h : config.Fits t) (ht : t.Addressable) : (config.issue t).Renderable where
  column := by
    have hcolumn := position_column_nonneg (t := t) h.1
    show -((config.issue t).source.length : Int) ≤ (t.position config.offset).column
    omega
  line := by
    have hpos := t.position_line_pos config.offset
    have hle := t.position_line_le config.offset
    simp only [Text.Addressable, markLimit] at ht
    show FewDigits (t.position config.offset).line
    exact fewDigits_of_lt (by omega)

theorem create_of_fits (h : config.Fits t) :
    Issue.create (.text t) config.file (.int config.offset) config.message config.severity =
      .ok { config.issue t with highlights := [] } :=
  Issue.create_of_resolve (show Source.read (.text t) = .ok (.text t) from rfl)
    (show Location.read (.int config.offset) (some t) = .ok (.offset config.offset) from rfl)
    (resolve_offset h) config.file config.message config.severity

end Config

namespace Ledger

theorem runFrom_highlights (i : Issue) (hs : List Highlight) :
    (empty.push i).runFrom (hs.map fun h => (.highlight 0 h : Action Empty)) =
      empty.push (i.addHighlights hs) := by
  induction hs generalizing i with
  | nil => rfl
  | cons h hs ih =>
    have hact : (empty.push i).act (.highlight 0 h : Action Empty) =
        empty.push (i.addHighlight h) := rfl
    rw [List.map_cons, runFrom_cons, hact, ih]
    rfl

/-- The highlights come one after the other, and end up in the issue in this order. -/
theorem run_history {config : Config} {t : Text} (h : config.Fits t) :
    run (config.history t) = empty.push (config.issue t) := by
  have hadd : empty.act (.add (.text t) config.file (.int config.offset) config.message
      config.severity : Action Empty) = empty.push { config.issue t with highlights := [] } := by
    simp only [act, attempt, adaptExcept_run, add_run, Config.create_of_fits h]
  rw [run, Config.history, runFrom_cons, hadd, runFrom_highlights, Issue.addHighlights_eq]
  rfl

theorem issues_push_empty (i : Issue) : (empty.push i).issues = [i] := rfl

theorem exitCode_push_empty (i : Issue) : (empty.push i).exitCode = i.severity.exitCode := by
  simp only [exitCode, errorCount, warningCount, issues_push_empty, List.countP_singleton,
    Issue.isError, Issue.isWarning]
  cases i with
  | mk severity => cases severity <;> rfl

end Ledger

/-- A report on anything shows something. -/
theorem report_ne_nil {paint : Role → Text → Except Text Text} {i : Issue} {rest : List Issue}
    {t : Text} (h : report paint (i :: rest) = .ok t) : t ≠ [] := by
  rw [report_eq] at h
  obtain ⟨body, hbody, h⟩ := bind_eq_ok.1 h
  obtain ⟨block, hblock, hbody⟩ := bind_eq_ok.1 hbody
  obtain ⟨others, -, hbody⟩ := bind_eq_ok.1 hbody
  obtain ⟨header, -, hblock⟩ := bind_eq_ok.1 hblock
  obtain ⟨source, -, hblock⟩ := bind_eq_ok.1 hblock
  obtain ⟨caret, -, hblock⟩ := bind_eq_ok.1 hblock
  cases hblock
  cases hbody
  cases h
  split <;> simp

/-! ## The policy -/

theorem applyColors_policy (write : Writer) (policy : Policy) (colors : Overrides) :
    (applyColors write policy colors).policy =
      if colors = [] then policy else .of (due (heeded write colors)) := by
  unfold applyColors
  cases colors with
  | nil => rfl
  | cons e rest => exact congrArg PolicyChange.policy (Policy.set_eq write policy (e :: rest))

theorem applyColors_fault (write : Writer) (policy : Policy) (colors : Overrides) :
    (applyColors write policy colors).fault =
      (Entries.ofPairs colors).findSome? (breakFault? write) := by
  unfold applyColors
  cases colors with
  | nil => rfl
  | cons e rest => exact congrArg PolicyChange.fault (Policy.set_eq write policy (e :: rest))

theorem valueFor?_mem {overrides : Overrides} {r : Role} {v : Value}
    (h : valueFor? overrides r = some v) : ∃ e ∈ overrides, e.2 = v := by
  obtain ⟨e, he, rfl⟩ := Option.map_eq_some_iff.1 h
  exact ⟨e, List.mem_reverse.1 (List.mem_of_find?_eq_some he), rfl⟩

theorem Style.apply_ok_of_read {v : Value} (hv : ∀ f, v ≠ .function f) {style : Style}
    (h : read v = .ok (some style)) (t : Text) : ∃ u, style.apply t = .ok u := by
  cases v with
  | scalar s =>
    cases s with
    | text path =>
      obtain ⟨codes, -, h⟩ := map_eq_ok.1 h
      rw [← Option.some.inj h]
      exact ⟨_, rfl⟩
    | _ => cases h
  | function f => exact absurd rfl (hv f)
  | _ => cases h

theorem of_due_neverFails {overrides : Overrides} (h : ∀ e ∈ overrides, ∀ f, e.2 ≠ .function f) :
    (Policy.of (due overrides)).NeverFails := by
  intro r style hstyle t
  have hdefault (hr : r.defaultStyle = some style) : ∃ u, style.apply t = .ok u :=
    default_neverFails r style ((Policy.styleFor_default r).trans hr) t
  rw [Policy.styleFor_of, due] at hstyle
  cases hv : valueFor? overrides r with
  | none =>
    rw [hv] at hstyle
    exact hdefault hstyle
  | some v =>
    obtain ⟨e, he, rfl⟩ := valueFor?_mem hv
    simp only [hv, Style.readOr] at hstyle
    split at hstyle
    next hread => exact Style.apply_ok_of_read (h e he) (hstyle ▸ hread) t
    next => exact hdefault hstyle

/-- Colors without functions that are applied leave nothing of what could fail before. -/
theorem heeded_neverFails (write : Writer) {colors : Overrides}
    (h : ∀ e ∈ colors, ∀ f, e.2 ≠ .function f) :
    (Policy.of (due (heeded write colors))).NeverFails := by
  refine of_due_neverFails fun e he f => ?_
  obtain ⟨e', he', heq⟩ := Entries.snd_of_mem_ofPairs ((List.takeWhile_sublist _).subset he)
  rw [← heq]
  exact h e' he' f

/-! ## Showing the issue -/

/-- What is printed when an offset is not in the text of a file. -/
def misplaced (opening : String) (offset : Int) (t : Text) : Text :=
  opening.toList ++ decimal offset ++ ": offset ".toList ++ decimal offset ++
    " is outside the source (length ".toList ++ decimal t.length ++ [')']

theorem refuseOffset_outside (write : Writer) (opening : String) (offset : Int) {t : Text}
    (ht : t.Addressable) :
    refuseOffset write opening offset (.offsetOutside offset t.length) =
      if FewDigits offset then .ok ⟨1, printedLine (misplaced opening offset t)⟩
      else .error (.fault .tooManyDigits) := by
  have hlength : FewDigits (t.length : Int) := by
    simp only [Text.Addressable, markLimit] at ht
    exact fewDigits_of_lt (by omega)
  by_cases hoffset : FewDigits offset
  · rw [if_pos hoffset]
    simp only [refuseOffset, LocationError.reason, LocationError.message, LocationError.kind,
      printInteger_of_fewDigits hoffset, printInteger_of_fewDigits hlength, Except.mapError, bind,
      Except.bind, pure, Except.pure, misplaced]
    simp
  · rw [if_neg hoffset]
    simp only [refuseOffset, LocationError.reason, LocationError.message, LocationError.kind,
      printInteger_of_not_fewDigits hoffset, Except.mapError, bind, Except.bind]
    rfl

/-- How showing the issue ends under a policy: it prints its report unless it should be quiet. -/
def Config.shown (config : Config) (t : Text) (policy : Policy) (enabled : Bool) :
    Except RunError Outcome :=
  if config.quiet then .ok ⟨config.severity.exitCode, []⟩
  else ((report (policy.paint enabled) [config.issue t]).mapError .render).map fun shown =>
    ⟨config.severity.exitCode, printedLine shown⟩

/-- How showing the issue ends after a change of the policy, which may have been broken off. -/
def Config.shownAfter (config : Config) (t : Text) (change : PolicyChange) (enabled : Bool) :
    Except RunError Outcome :=
  match change.fault with
  | some f => .error (.fault f)
  | none => config.shown t change.policy enabled

section
variable (write : Writer) (config : Config) (settings : Settings) (console : Console)
  (policy : Policy)

theorem showIssue_outside {t : Text} (h : ¬config.Fits t) :
    showIssue write config settings console (some t) policy =
      .unchanged policy (refuseOffset write "Cannot place a diagnostic at offset " config.offset
        (.offsetOutside config.offset t.length)) := by
  have hresolve : resolve (.text t) (.offset config.offset) =
      .error (.offsetOutside config.offset t.length) :=
    (resolve_offset_eq t config.offset).trans (if_neg h)
  simp only [showIssue, Issue.make, hresolve]
  rfl

theorem showIssue_inside {t : Text} (h : config.Fits t) :
    showIssue write config settings console (some t) policy =
      ⟨(applyColors write policy settings.colors).policy,
        (applyColors write policy settings.colors).notices.map .policy,
        config.shownAfter t (applyColors write policy settings.colors)
          (resolveColorize settings.colorize config.colorize console)⟩ := by
  have hmake : Issue.make (.text t) config.file (.offset config.offset) config.message
      config.severity = .ok { config.issue t with highlights := [] } := by
    simp only [Issue.make, Config.resolve_offset h]
    rfl
  have hissue : (⟨(config.issue t).severity, (config.issue t).file, (config.issue t).message,
      (config.issue t).source, (config.issue t).info, config.highlights⟩ : Issue) =
        config.issue t := rfl
  have hexit : (config.issue t).severity.exitCode = config.severity.exitCode := rfl
  simp only [showIssue, hmake, hissue, Ledger.exitCode_push_empty, Ledger.issues_push_empty, hexit]
  generalize resolveColorize settings.colorize config.colorize console = enabled
  obtain ⟨after, notices, fault⟩ := applyColors write policy settings.colors
  cases fault with
  | some f => rfl
  | none =>
    simp only [Config.shownAfter, Config.shown]
    cases config.quiet with
    | true => rfl
    | false =>
      simp only [Bool.false_eq_true, if_false, ReporterKind.report]
      cases hreport : report (after.paint enabled) [config.issue t] with
      | error e => rfl
      | ok shown =>
        -- the report is written out, since it is not empty
        have hshown : shown.isEmpty = false := by
          cases shown with
          | nil => exact absurd rfl (report_ne_nil hreport)
          | cons c rest => rfl
        simp only [Except.map, Except.mapError, hshown, Bool.false_eq_true, if_false,
          List.flatMap_cons, List.flatMap_nil, List.append_nil]

end

namespace Config

variable {config : Config} {t : Text}

/-- What is shown is what the ledger with the issue renders to. -/
theorem shown_eq (h : config.Fits t) (policy : Policy) (enabled : Bool) :
    config.shown t policy enabled =
      if config.quiet then .ok ⟨config.severity.exitCode, []⟩
      else (((Ledger.run (config.history t)).render policy enabled).mapError .render).map fun shown =>
        ⟨config.severity.exitCode, printedLine shown⟩ := by
  rw [Ledger.run_history h]
  rfl

/-- Under styles that do not fail, the ledger with the issue can be rendered. -/
theorem render_history (h : config.Fits t) (ht : t.Addressable) {policy : Policy}
    (hpolicy : policy.NeverFails) (enabled : Bool) :
    ∃ shown, (Ledger.run (config.history t)).render policy enabled = .ok shown := by
  have hmemory : ∀ a ∈ config.history t, a.FitsMemory := by
    intro a ha
    rcases List.mem_cons.1 ha with rfl | ha
    · exact fitsMemory_text ht
    · obtain ⟨highlight, -, rfl⟩ := List.mem_map.1 ha
      trivial
  have hreachable := Ledger.reachable_run hmemory
  rw [Ledger.run_history h] at hreachable ⊢
  refine (render_ok_iff hreachable hpolicy enabled).1.2 fun i hi => ?_
  rw [Ledger.issues_push_empty, List.mem_singleton] at hi
  rw [hi]
  exact config.renderable_issue h ht

end Config

namespace World

theorem runShow_of_sourceText {w : World} {config : Config} {text : Option Text}
    (h : w.sourceText config.file = .ok text) (host : Host) (settings : Settings)
    (console : Console) (policy : Policy) :
    w.runShow host config (some settings) console policy =
      showIssue host.write config settings console text policy := by
  simp only [runShow, settingsFor, h, List.nil_append]

/-- How rendering an issue ends in a file that holds a text. -/
structure Shows (host : Host) (config : Config) (settings : Settings) (console : Console)
    (policy : Policy) (t : Text) (run : Run) : Prop where
  /-- An offset outside of the text changes nothing, and is explained if it can be printed. -/
  outside : ¬config.Fits t → run = .unchanged policy
    (if FewDigits config.offset then
      .ok ⟨1, printedLine (misplaced "Cannot place a diagnostic at offset " config.offset t)⟩
    else .error (.fault .tooManyDigits))
  /-- There is one issue, with the highlights that were asked for. -/
  issue : config.Fits t → ∃ i, (Ledger.run (config.history t)).issues = [i] ∧
    i.highlights = config.highlights
  policy_eq : config.Fits t → run.policy =
    if settings.colors = [] then policy else .of (due (heeded host.write settings.colors))
  /-- Colors that cannot be gone through break it off. -/
  broken : config.Fits t → ∀ e after f,
    Entries.ofPairs settings.colors = heeded host.write settings.colors ++ e :: after →
      Breaks host.write e f → run.result = .error (.fault f)
  /-- Other colors all count. Then the exit code goes by the severity, and what the one issue renders
  to is printed. -/
  shown : config.Fits t → (∀ e ∈ Entries.ofPairs settings.colors, ∀ f, ¬Breaks host.write e f) →
    due (heeded host.write settings.colors) = due settings.colors ∧
    run.result =
      if config.quiet then .ok ⟨config.severity.exitCode, []⟩
      else (((Ledger.run (config.history t)).render run.policy (resolveColorize settings.colorize
        config.colorize console)).mapError .render).map fun shown =>
          ⟨config.severity.exitCode, printedLine shown⟩
  /-- Only a style that fails can keep it from being rendered, and colors that were applied leave
  none. -/
  rendered : config.Fits t → settings.colors ≠ [] ∨ policy.NeverFails → ∀ enabled,
    ∃ shown, (Ledger.run (config.history t)).render run.policy enabled = .ok shown

/-- **How rendering an issue in a file ends.** A path that no file can have breaks it off. Without a
text in the file there is an explanation and nothing else happens. -/
theorem runShow_outcome {w : World} {config : Config} {settings : Settings}
    (hcolors : ∀ e ∈ settings.colors, ∀ f, e.2 ≠ .function f)
    (hmemory : ∀ t, w.Holds config.file t → t.Addressable) (host : Host) (console : Console)
    (policy : Policy) :
    (∀ f, w.pathFlaw? (Path.ofText config.file) = some f →
      w.runShow host config (some settings) console policy =
        .unchanged policy (.error (.path f))) ∧
    (w.pathFlaw? (Path.ofText config.file) = none → (¬∃ t, w.Holds config.file t) →
      w.runShow host config (some settings) console policy =
        .unchanged policy (.ok ⟨1, printedLine (unreadableFile config.file)⟩)) ∧
    ∀ t, w.Holds config.file t → Shows host config settings console policy t
      (w.runShow host config (some settings) console policy) := by
  refine ⟨?_, ?_, ?_⟩
  · intro f hflaw
    simp only [runShow, settingsFor, sourceText, hflaw]
    rfl
  · intro hflaw hnone
    rw [runShow_of_sourceText (sourceText_of_not_holds hflaw hnone)]
    rfl
  · intro t ht
    rw [runShow_of_sourceText (sourceText_of_holds ht)]
    have hinside (h : config.Fits t) :=
      showIssue_inside host.write config settings console policy h
    have hpolicy (h : config.Fits t) :
        (showIssue host.write config settings console (some t) policy).policy =
          if settings.colors = [] then policy else .of (due (heeded host.write settings.colors)) := by
      rw [hinside h, applyColors_policy]
    refine ⟨?_, ?_, hpolicy, ?_, ?_, ?_⟩
    · intro h
      rw [showIssue_outside host.write config settings console policy h,
        refuseOffset_outside _ _ _ (hmemory t ht)]
    · intro h
      exact ⟨config.issue t, by rw [Ledger.run_history h, Ledger.issues_push_empty], rfl⟩
    · intro h e after f hsplit hbreaks
      have hfault := findSome?_breakFault?_eq_some_iff.2 ⟨e, after, hsplit, hbreaks⟩
      rw [hinside h]
      simp only [Config.shownAfter, applyColors_fault, hfault]
    · intro h hnone
      have hfault : (Entries.ofPairs settings.colors).findSome? (breakFault? host.write) = none := by
        refine Option.eq_none_iff_forall_ne_some.2 fun f hf => ?_
        obtain ⟨e, after, hsplit, hbreaks⟩ := findSome?_breakFault?_eq_some_iff.1 hf
        exact hnone e (hsplit ▸ List.mem_append_right _ List.mem_cons_self) f hbreaks
      refine ⟨due_heeded hnone, ?_⟩
      rw [hinside h]
      simp only [Config.shownAfter, applyColors_fault, hfault, Config.shown_eq h]
    · intro h hstyles enabled
      refine Config.render_history h (hmemory t ht) ?_ enabled
      rw [hpolicy h]
      split
      next hnil => exact hstyles.resolve_left fun hne => hne hnil
      next => exact heeded_neverFails host.write hcolors

/-- A directory tree with nothing but one file, beside which a program runs. -/
def ofFile (file t : Text) : World where
  tree := ⟨[([file], .file (String.ofList t).toByteArray)]⟩
  cwd := []
  cwdExists := true
  home := ['~']

end World

/-- A host that only writes values. -/
def Host.plain : Host where
  frame := ⟨fun _ => .error ⟨2, []⟩, fun _ => ⟨2, []⟩⟩
  yaml := ⟨fun _ => .ok .null, fun _ => none⟩
  write := Value.write nestingLimit

namespace World

/-- A line behind a pair and before a blank, highlights of which one is the wrong way round and one
begins before the text, and colors of which two are no styles and one is for nothing there is. -/
theorem runShow_outcome_malformed_colors :
    let t : Text := "ab\r\ncé \n".toList
    let w := ofFile ['f'] t
    let config : Config :=
      ⟨['f'], 5, "Bad".toList, .warning, [⟨9, 2⟩, ⟨-3, 5⟩], some false, false⟩
    let settings : Settings := ⟨some true, [(.text "caret".toList, .int 42),
      (.text "file".toList, .text "red.".toList), (.text "loc".toList, .null)], none⟩
    (∀ e ∈ settings.colors, ∀ f, e.2 ≠ .function f) ∧
      (∀ u, w.Holds config.file u → u.Addressable) ∧ w.Holds config.file t ∧ config.Fits t ∧
      (∀ e ∈ Entries.ofPairs settings.colors, ∀ f, ¬Breaks Host.plain.write e f) ∧
      (w.runShow .plain config (some settings) .plain .default).result =
        .ok ⟨2, "f:2:2: warning: bad\ncé\n~^\n\n1 warning generated.\n".toList⟩ := by
  intro t w config settings
  have hcolors : ∀ e ∈ settings.colors, ∀ f, e.2 ≠ .function f := by
    intro e he f
    simp only [settings, List.mem_cons, List.not_mem_nil, or_false] at he
    rcases he with rfl | rfl | rfl <;> exact nofun
  have hholds : w.Holds config.file t := rfl
  have hmemory : ∀ u, w.Holds config.file u → u.Addressable := by
    intro u hu
    rw [← hholds.unique hu]
    exact show (_ : Nat) < markLimit by decide
  have hfits : config.Fits t := ⟨by decide, by decide⟩
  have hbreaks : ∀ e ∈ Entries.ofPairs settings.colors, ∀ f, ¬Breaks Host.plain.write e f := by
    intro e he f hf
    have hnone :
        (Entries.ofPairs settings.colors).findSome? (breakFault? Host.plain.write) = none := by
      decide +kernel
    have := List.findSome?_eq_none_iff.1 hnone e he
    rw [breakFault?, PolicyNotice.of?_eq_error_iff.2 hf] at this
    cases this
  have hshows := (runShow_outcome hcolors hmemory .plain .plain .default).2.2 t hholds
  refine ⟨hcolors, hmemory, hholds, hfits, hbreaks, ?_⟩
  rw [(hshows.shown hfits hbreaks).2, hshows.policy_eq hfits]
  decide +kernel

/-- A color that is nested too deeply to be written breaks off what should show an issue. -/
theorem runShow_not_always_ok :
    ¬∀ (w : World) (config : Config) (settings : Settings) (console : Console),
      (∀ e ∈ settings.colors, ∀ f, e.2 ≠ .function f) →
        ∃ outcome,
          (w.runShow .plain config (some settings) console .default).result = .ok outcome := by
  intro h
  let colors : Overrides := [(.text Role.file.name, nestedText nestingLimit)]
  let config : Config := ⟨['f'], 0, ['m'], .error, [], none, false⟩
  have hcolors : ∀ e ∈ colors, ∀ f, e.2 ≠ .function f := by
    intro e he f
    obtain rfl := List.mem_singleton.1 he
    exact nofun
  have hholds : (ofFile ['f'] ['a']).Holds config.file ['a'] := rfl
  have hfits : config.Fits ['a'] := ⟨by decide, by decide⟩
  have hbreaks := breakFault?_nestedText .file (Nat.le_refl nestingLimit) (by decide)
  have hfault : (Entries.ofPairs colors).findSome? (breakFault? Host.plain.write) =
      some .tooDeep := by
    have hpairs : Entries.ofPairs colors = colors := rfl
    rw [hpairs, List.findSome?_cons, show breakFault? Host.plain.write _ = _ from hbreaks]
  obtain ⟨outcome, hok⟩ := h (ofFile ['f'] ['a']) config ⟨none, colors, none⟩ .plain hcolors
  rw [runShow_of_sourceText (sourceText_of_holds hholds), showIssue_inside _ _ _ _ _ hfits] at hok
  simp only [Config.shownAfter, applyColors_fault, hfault, reduceCtorEq] at hok

end World

end Pinpoint
