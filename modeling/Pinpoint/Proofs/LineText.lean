import Pinpoint.Proofs.Columns
import Pinpoint.Proofs.Showing
import Pinpoint.Proofs.Trusted

/-!
# The text of a line

The line of an offset can be had alone, or with the issue at the offset. Either way it is the line
that starts where the line of the offset starts, up to its break and without the blanks at its end:
strictly inside a pair it is cut off one character later, but the carriage return is a blank too
(`shownBetween_lineEnd`). So all offsets of a line show the same text, and the command that prints
the line of an offset succeeds exactly where the one that renders an issue can place it
(`lineWithPosition_agrees`). -/

namespace Pinpoint

namespace Text

/-! ## The line of an offset -/

/-- The line that an offset lies on, without the blanks at its end. -/
def lineTextAt (t : Text) (n : Nat) : Text := trimEnd (t.lineFrom (t.lineStart n))

theorem lineFrom_eq {t : Text} {s : Nat} (h : s ≤ t.length) :
    t.lineFrom s = (t.take (t.lineEnd s)).drop s := by
  have hfirst : t.lineFrom s <+: t.drop s := List.takeWhile_prefix _
  rw [List.drop_take, ← length_lineFrom h]
  exact List.prefix_iff_eq_take.1 hfirst

theorem trimEnd_append_blank {c : Char} (h : isBlank c = true) (t : Text) :
    trimEnd (t ++ [c]) = trimEnd t := by
  rw [trimEnd_eq, trimEnd_eq, List.rdropWhile_concat_pos _ _ _ h]

theorem shownBetween_lineEnd {t : Text} {n : Nat} (hn : n ≤ t.length) :
    t.shownBetween (t.lineStart n) (t.lineEnd n) = t.lineTextAt n := by
  have hstart := t.lineStart_le_length n
  rw [lineTextAt, lineFrom_eq hstart, shownBetween]
  by_cases hs : t.SplitsPair n
  · obtain ⟨hbefore, hbehind⟩ := firstBreak_of_splitsPair hs
    rw [← hbefore.eq_lineEnd, ← hbehind.eq_lineEnd]
    -- the line goes on to the carriage return, and what is shown takes it along
    have hle := hbefore.start_le
    obtain ⟨h0, hreturn, _⟩ := hs
    have htake : t.take n = t.take (n - 1) ++ ['\r'] := by
      conv => lhs; rw [← Nat.sub_add_cancel h0]
      rw [List.take_add_one, hreturn, Option.toList_some]
    have hdrop : (t.take n).drop (t.lineStart n) =
        (t.take (n - 1)).drop (t.lineStart n) ++ ['\r'] := by
      rw [htake, List.drop_append_of_le_length]
      rw [List.length_take]
      omega
    rw [hdrop, trimEnd_append_blank (by decide)]
  · rw [lineEnd_lineStart hn hs]

theorem lineStart_eq_of_line_eq {t : Text} {m n : Int}
    (h : (t.position m).line = (t.position n).line) : t.lineStart m = t.lineStart n := by
  have hpassed (offset : Int) :
      t.breaksBefore offset = t.breaks.take (t.breaksBefore offset).length :=
    List.prefix_iff_eq_take.1 (List.takeWhile_prefix _)
  have hlength : (t.breaksBefore m).length = (t.breaksBefore n).length := by
    simp only [position] at h
    omega
  rw [lineStart, lineStart, hpassed m, hpassed n, hlength]

end Text

theorem extractLine_position {t : Text} {n : Nat} (hn : n ≤ t.length) :
    extractLine (.text t) (textInfo t n (t.position n)) = t.lineTextAt n := by
  have hle := t.lineStart_le n
  obtain ⟨c, hc⟩ := Nat.exists_eq_add_of_le hle
  have hcolumn : (t.position n).column = c := by
    rw [Text.position_column]
    omega
  have hshown := extractLine_textInfo (show t.lineStart n + c ≤ t.length by omega) hcolumn
  rw [← hc] at hshown
  rw [hshown, Text.shownBetween_lineEnd hn]

theorem lineWithPosition_eq_map (t : Text) (offset : Int) :
    lineWithPosition t offset =
      (resolve (.text t) (.offset offset)).map (extractLine (.text t)) := by
  rw [resolve_offset_eq, lineWithPosition]
  by_cases h : 0 ≤ offset ∧ offset ≤ t.length
  · rw [if_pos h, checkOffset_of_mem h]
    rfl
  · rw [if_neg h, checkOffset_of_not_mem h]
    rfl

theorem lineWithPosition_of_mem {t : Text} {n : Nat} (hn : n ≤ t.length) :
    lineWithPosition t n = .ok (t.lineTextAt n) := by
  rw [lineWithPosition_eq_map, resolve_offset_eq, if_pos (by omega), Except.map,
    extractLine_position hn]

theorem lineWithPosition_of_not_mem {t : Text} {offset : Int}
    (h : ¬(0 ≤ offset ∧ offset ≤ t.length)) :
    lineWithPosition t offset = .error (.offsetOutside offset t.length) := by
  rw [lineWithPosition_eq_map, resolve_offset_eq, if_neg h, Except.map]

/-! ## The two commands -/

/-- The issue of a command can be made at its offset of a text, and this is it. -/
def Config.Places (config : Config) (t : Text) (i : Issue) : Prop :=
  Issue.create (.text t) config.file (.int config.offset) config.message config.severity = .ok i

theorem Config.places_iff {config : Config} {t : Text} {i : Issue} :
    config.Places t i ↔ config.Fits t ∧ i = { config.issue t with highlights := [] } := by
  constructor
  · intro h
    obtain ⟨s, l, info, hs, hl, hinfo, -⟩ := Issue.create_eq_ok h
    cases hs
    cases hl
    obtain ⟨-, h0, hlen, -⟩ := resolve_text_eq_ok hinfo
    have hfits : config.Fits t := ⟨h0, hlen⟩
    exact ⟨hfits, Except.ok.inj (h.symm.trans (Config.create_of_fits hfits))⟩
  · rintro ⟨h, rfl⟩
    exact Config.create_of_fits h

theorem showLine_of_fits (write : Writer) {config : Config} {t : Text} (h : config.Fits t) :
    showLine write config.file config.offset (some t) =
      .ok ⟨0, printedLine (config.issue t).source⟩ := by
  have hline : lineWithPosition t config.offset = .ok (config.issue t).source := by
    rw [lineWithPosition_eq_map, Config.resolve_offset h]
    rfl
  simp only [showLine, hline]

theorem showLine_of_not_fits (write : Writer) {config : Config} {t : Text} (h : ¬config.Fits t) :
    showLine write config.file config.offset (some t) =
      refuseOffset write "Cannot find a line at offset " config.offset
        (.offsetOutside config.offset t.length) := by
  simp only [showLine, lineWithPosition_of_not_mem h]

/-- No command that refuses an offset succeeds. -/
theorem exit_of_refuseOffset {write : Writer} {opening : String} {offset : Int} {e : LocationError}
    {outcome : Outcome} (h : refuseOffset write opening offset e = .ok outcome) :
    outcome.exit = 1 := by
  obtain ⟨reason, -, h⟩ := bind_eq_ok.1 h
  obtain ⟨shown, -, h⟩ := bind_eq_ok.1 h
  cases h
  rfl

/-- What refuses an offset outside of a text is a wrong value, and so is what keeps it from being
worded. -/
theorem wrongValue_of_offsetOutside {offset : Int} {length : Nat} :
    (LocationError.offsetOutside offset length).kind = .wrongValue ∧
      ∀ write f, (LocationError.offsetOutside offset length).message write = .error f →
        f.kind = .wrongValue := by
  have hfault {n : Int} {f : Fault} (h : printInteger n = .error f) : f.kind = .wrongValue := by
    unfold printInteger at h
    split at h
    · cases h
    · cases h
      rfl
  refine ⟨rfl, fun write f h => ?_⟩
  cases hoffset : printInteger offset with
  | error f' =>
    simp only [LocationError.message, hoffset] at h
    cases h
    exact hfault hoffset
  | ok shown =>
    cases hlength : printInteger length with
    | error f' =>
      simp only [LocationError.message, hoffset, hlength] at h
      cases h
      exact hfault hlength
    | ok _ =>
      simp only [LocationError.message, hoffset, hlength] at h
      cases h

namespace World

section
variable {w : World} {host : Host} {given : Option Settings} {settings : Settings}
  {notices : List Notice} (hgiven : w.settingsFor host.yaml given = .ok (settings, notices))
  {file : Text} {text : Option Text} (htext : w.sourceText file = .ok text)
include hgiven htext

theorem runLine_result (offset : Int) (policy : Policy) :
    (w.runLine host file offset given policy).result = showLine host.write file offset text := by
  simp only [runLine, hgiven, htext]
  rfl

theorem runShow_result {config : Config} (hfile : config.file = file) (console : Console)
    (policy : Policy) :
    (w.runShow host config given console policy).result =
      (showIssue host.write config settings console text policy).result := by
  subst hfile
  simp only [runShow, hgiven, htext]

end

end World

/-- **A line is the same, however it is come by.** Looked up alone or with an issue at the offset,
it is the same text or refused for the same cause. The command that prints it succeeds exactly if
the other one can make its issue there, and prints the source of the issue that the other one
renders. All offsets that are on one line show one text, inside a pair too. -/
theorem lineWithPosition_agrees (t : Text) :
    (∀ offset : Int,
      lineWithPosition t offset =
        (resolve (.text t) (.offset offset)).map (extractLine (.text t)) ∧
      ∀ e, lineWithPosition t offset = .error e → e.kind = .wrongValue ∧
        ∀ write f, e.message write = .error f → f.kind = .wrongValue) ∧
    (∀ (w : World) (host : Host) (config : Config), w.Holds config.file t →
      ∀ (given : Option Settings) (settings : Settings) (notices : List Notice),
      w.settingsFor host.yaml given = .ok (settings, notices) →
      ∀ (console : Console) (policy : Policy),
      ((∃ outcome, (w.runLine host config.file config.offset given policy).result = .ok outcome ∧
        outcome.exit = 0) ↔ ∃ i, config.Places t i) ∧
      (∀ i, config.Places t i →
        (w.runLine host config.file config.offset given policy).result =
          .ok ⟨0, printedLine i.source⟩ ∧
        { i with highlights := config.highlights } = config.issue t ∧
        (w.runShow host config given console policy).result =
          config.shownAfter t (applyColors host.write policy settings.colors)
            (resolveColorize settings.colorize config.colorize console)) ∧
      ((¬∃ i, config.Places t i) →
        (w.runShow host config given console policy).result =
          refuseOffset host.write "Cannot place a diagnostic at offset " config.offset
            (.offsetOutside config.offset t.length))) ∧
    ∀ m n : Int, 0 ≤ m ∧ m ≤ t.length → 0 ≤ n ∧ n ≤ t.length →
      (t.position m).line = (t.position n).line →
      ∃ shown, lineWithPosition t m = .ok shown ∧ lineWithPosition t n = .ok shown := by
  refine ⟨fun offset => ⟨lineWithPosition_eq_map t offset, ?_⟩, ?_, ?_⟩
  · intro e he
    by_cases h : 0 ≤ offset ∧ offset ≤ t.length
    · obtain ⟨n, rfl⟩ := Int.eq_ofNat_of_zero_le h.1
      rw [lineWithPosition_of_mem (by omega)] at he
      cases he
    · rw [lineWithPosition_of_not_mem h] at he
      cases he
      exact wrongValue_of_offsetOutside
  · intro w host config ht given settings notices hgiven console policy
    have htext := World.sourceText_of_holds ht
    rw [World.runLine_result hgiven htext, World.runShow_result hgiven htext rfl]
    by_cases h : config.Fits t
    · have hplaces : ∃ i, config.Places t i := ⟨_, Config.places_iff.2 ⟨h, rfl⟩⟩
      rw [showLine_of_fits host.write h, showIssue_inside _ config settings console policy h]
      refine ⟨iff_of_true ⟨_, rfl, rfl⟩ hplaces, ?_, fun hno => absurd hplaces hno⟩
      intro i hi
      obtain ⟨-, rfl⟩ := Config.places_iff.1 hi
      exact ⟨rfl, rfl, rfl⟩
    · have hno : ¬∃ i, config.Places t i := fun ⟨i, hi⟩ => h (Config.places_iff.1 hi).1
      rw [showIssue_outside _ config settings console policy h, showLine_of_not_fits host.write h]
      refine ⟨iff_of_false ?_ hno, fun i hi => absurd ⟨i, hi⟩ hno, fun _ => rfl⟩
      rintro ⟨outcome, hrefused, hexit⟩
      rw [exit_of_refuseOffset hrefused] at hexit
      cases hexit
  · intro m n hm hn hline
    obtain ⟨a, rfl⟩ := Int.eq_ofNat_of_zero_le hm.1
    obtain ⟨b, rfl⟩ := Int.eq_ofNat_of_zero_le hn.1
    refine ⟨t.lineTextAt a, lineWithPosition_of_mem (by omega), ?_⟩
    rw [lineWithPosition_of_mem (by omega), Text.lineTextAt, Text.lineTextAt,
      Text.lineStart_eq_of_line_eq hline]

/-- The middle of a pair, behind a blank, in a file and beside another offset of its line. -/
theorem lineWithPosition_agrees_inside_pair :
    let t : Text := "ab \r\ncd".toList
    let w := World.ofFile ['f'] t
    let config : Config := ⟨['f'], 4, "Bad".toList, .note, [⟨1, 2⟩], some false, false⟩
    let settings : Settings := ⟨none, [], none⟩
    w.Holds config.file t ∧ w.settingsFor Host.plain.yaml (some settings) = .ok (settings, []) ∧
      (w.runLine .plain config.file config.offset (some settings) .default).result =
        .ok ⟨0, "ab\n".toList⟩ ∧
      (∃ i, config.Places t i ∧ i.source = "ab".toList) ∧
      (w.runShow .plain config (some settings) .plain .default).result =
        config.shownAfter t (applyColors Host.plain.write .default [])
          (resolveColorize none (some false) .plain) ∧
      (t.position 1).line = (t.position 4).line ∧
      ∃ shown, lineWithPosition t 1 = .ok shown ∧ lineWithPosition t 4 = .ok shown := by
  intro t w config settings
  have hholds : w.Holds config.file t := rfl
  have hgiven : w.settingsFor Host.plain.yaml (some settings) = .ok (settings, []) := rfl
  have hline : (t.position 1).line = (t.position 4).line := by decide
  have hplaces : config.Places t { config.issue t with highlights := [] } :=
    Config.places_iff.2 ⟨⟨by decide, by decide⟩, rfl⟩
  have hsource : (config.issue t).source = "ab".toList := by decide
  have hprinted : (.ok ⟨0, printedLine (config.issue t).source⟩ : Except RunError Outcome) =
      .ok ⟨0, "ab\n".toList⟩ := by
    rw [hsource]
    rfl
  obtain ⟨-, hcommands, hlines⟩ := lineWithPosition_agrees t
  obtain ⟨-, hplaced, -⟩ :=
    hcommands w .plain config hholds (some settings) settings [] hgiven .plain .default
  obtain ⟨hresult, -, hshown⟩ := hplaced _ hplaces
  exact ⟨hholds, hgiven, hresult.trans hprinted, ⟨_, hplaces, hsource⟩, hshown, hline,
    hlines 1 4 (by decide) (by decide) hline⟩

end Pinpoint
