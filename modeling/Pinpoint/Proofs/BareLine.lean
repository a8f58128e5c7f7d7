import Pinpoint.Proofs.Shapes
import Pinpoint.Proofs.Shown
import Pinpoint.Report.Block

/-!
# A line that stands alone

An issue can be made from the full text or from its physical line alone. The two differ in the
length of their source and in nothing else. That length decides which highlights are passed over at
once, and these would not have marked a column of the line anyway (`Highlight.covers_iff`). So both
issues are rendered alike, whatever is highlighted (`create_bareLine`).
-/

namespace Pinpoint

/-! ## What the length of the source is read for -/

/-- A highlight marks the columns of the line between its ends. -/
theorem Highlight.covers_iff {info : LineInfo}
    (hend : info.lineEnd ≤ info.lineStart + info.sourceLength) (h : Highlight) (n : Nat) :
    h.covers info n = true ↔ h.start ≤ info.lineStart + n ∧ info.lineStart + n < h.stop ∧
      info.lineStart + n < info.lineEnd := by
  simp only [covers, misses, Bool.and_eq_true, Bool.not_eq_true', Bool.or_eq_false_iff,
    decide_eq_true_eq, decide_eq_false_iff_not]
  omega

namespace Issue

def setSourceLength (i : Issue) (length : Int) : Issue :=
  { i with info := { i.info with sourceLength := length } }

section
variable {i : Issue} {length : Int}
  (hi : i.info.lineEnd ≤ i.info.lineStart + i.info.sourceLength)
  (hlength : i.info.lineEnd ≤ i.info.lineStart + length)

include hi hlength

theorem tildes_setSourceLength : (i.setSourceLength length).tildes = i.tildes := by
  have hcovers (h : Highlight) (n : Nat) :
      h.covers (i.setSourceLength length).info n = h.covers i.info n := by
    rw [Bool.eq_iff_iff, Highlight.covers_iff hi, Highlight.covers_iff hlength]
    rfl
  simp only [tildes, hcovers]
  rfl

theorem marks_setSourceLength : (i.setSourceLength length).marks = i.marks := by
  simp only [marks, tildes_setSourceLength hi hlength]
  rfl

/-- A block does not tell how long the source is behind the end of the line. -/
theorem issueBlock_setSourceLength (paint : Role → Text → Except Text Text) :
    issueBlock paint (i.setSourceLength length) = issueBlock paint i := by
  simp only [issueBlock, caretLine, marks_setSourceLength hi hlength]
  rfl

end

end Issue

/-! ## Resolving in the line alone -/

theorem length_slice_of_bounds {t : Text} {info : LineInfo} {start : Int} (h : info.Bounds start)
    (hend : info.lineEnd ≤ t.length) :
    (t.slice info.lineStart info.lineEnd).length = info.lineEnd - info.lineStart := by
  have h0 := h.lineStart_nonneg
  have h1 := h.lineStart_le
  have h2 := h.le_lineEnd
  obtain ⟨a, ha⟩ := Int.eq_ofNat_of_zero_le h0
  obtain ⟨b, hb⟩ := Int.eq_ofNat_of_zero_le (show 0 ≤ info.lineEnd by omega)
  rw [ha, hb, Text.slice_natCast (by omega) (by omega), List.length_drop, List.length_take]
  omega

/-- A location that carries its line and column comes to the same line whether the whole text is at
hand or its line alone. -/
theorem resolve_slice {t : Text} {info : LineInfo} {start : Int} (h : info.Bounds start)
    (hend : info.lineEnd ≤ t.length) {l : Location} (hstart : l.start = start)
    (htrusted : l.trusted? = some ⟨info.line, info.column⟩) :
    resolve (.line (t.slice info.lineStart info.lineEnd)) l =
      .ok { info with sourceLength := info.lineEnd } := by
  have hlength := length_slice_of_bounds h hend
  have h0 := h.lineStart_nonneg
  have hcolumn := h.column_eq
  have hle := h.le_lineEnd
  have hline : lineInfo (t.slice info.lineStart info.lineEnd) start ⟨info.line, info.column⟩ =
      { info with sourceLength := info.lineEnd } := by
    have hfirst : start - info.column = info.lineStart := by omega
    have hlast : info.lineStart + (info.lineEnd - info.lineStart) = info.lineEnd := by omega
    simp only [lineInfo, hfirst, hlength, hlast]
  simp only [resolve, htrusted]
  rw [resolveLine_eq, hstart, if_neg (by simp only; omega), if_neg (by simp only; omega), hline]

/-! ## The issue of a line -/

namespace Value

def ofLine (t : Text) : Value := .mapping [(.text "line".toList, .text t)]

/-- The shapes that give an offset with its line and column and do not need the text to be read. -/
inductive PlacesAt (start stop : Int) (p : LineColumn) : Value → Prop where
  | placed : PlacesAt start stop p (.located (.placed start stop p))
  | ranged (last : LineColumn) : PlacesAt start stop p (.located (.ranged start stop p last))
  | record {v : Value} (shape : v.GivesColumn start stop p)
      (loc : (v.field "loc".toList).isNull = false) : PlacesAt start stop p v

theorem PlacesAt.read {start stop : Int} {p : LineColumn} {v : Value}
    (hv : v.PlacesAt start stop p) (text? : Option Text) :
    ∃ l, Location.read v text? = .ok l ∧ l.start = start ∧ l.trusted? = some p := by
  cases hv with
  | placed => exact ⟨_, rfl, rfl, rfl⟩
  | ranged last => exact ⟨_, rfl, rfl, rfl⟩
  | record shape loc => exact shape.read_of_loc loc text?

end Value

/-- **An issue made from the line alone is the one made from the full text, up to the length of its
source, and it is rendered like that one whatever is highlighted.** -/
theorem create_bareLine {t : Text} {n : Nat} (hn : n ≤ t.length) :
    ∃ info, resolve (.text t) (.offset n) = .ok info ∧
      ∀ (stop : Int) (place : Value), place.PlacesAt n stop ⟨info.line, info.column⟩ →
      ∀ (file message : Text) (severity : Severity), ∃ i j,
        Issue.create (.text t) file (.int n) message severity = .ok i ∧
        Issue.create (.ofLine (t.slice info.lineStart info.lineEnd)) file place message severity =
          .ok j ∧
        i.info = info ∧ i.info.sourceLength = t.length ∧
        j = { i with info := { i.info with sourceLength := i.info.lineEnd } } ∧
        ∀ (hs : List Highlight) (p : Policy) (enabled : Bool),
          issueBlock (p.paint enabled) (j.addHighlights hs) =
            issueBlock (p.paint enabled) (i.addHighlights hs) := by
  have hlooked : resolve (.text t) (.offset n) = .ok (textInfo t n (t.position n)) := by
    rw [resolve_offset_eq, if_pos (by omega)]
  have hcolumn := position_column_nonneg (t := t) (Int.natCast_nonneg n)
  have hbounds : (textInfo t n (t.position n)).Bounds n :=
    (textInfo_bounds_iff (Int.natCast_nonneg n) (by omega) (position_column_le t n)).2 hcolumn
  refine ⟨_, hlooked, fun stop place hplace file message severity => ?_⟩
  generalize hinfo : textInfo t n (t.position n) = info at hlooked hbounds hplace ⊢
  have hlength : info.sourceLength = t.length := by
    rw [← hinfo]
    rfl
  have hend := hbounds.lineEnd_le
  obtain ⟨l, hread, hl, htrusted⟩ := hplace.read none
  have hline := resolve_slice hbounds (by omega) hl htrusted (t := t)
  refine ⟨_, _, Issue.create_of_resolve rfl rfl hlooked file message severity,
    Issue.create_of_resolve rfl hread hline file message severity, rfl, hlength, rfl, ?_⟩
  intro hs p enabled
  rw [Issue.addHighlights_eq, Issue.addHighlights_eq]
  -- both lines end inside their sources: one where the text ends or before, one right at the end
  have h0 := hbounds.lineStart_nonneg
  have hwhole : info.lineEnd ≤ info.lineStart + info.sourceLength := by omega
  have halone : info.lineEnd ≤ info.lineStart + info.lineEnd := by omega
  exact Issue.issueBlock_setSourceLength
    (i := ⟨severity, file, message, extractLine (.text t) info, info, [] ++ hs⟩) hwhole halone _

/-- A line between two breaks, the first of them a pair, that a parser's failure points into. -/
theorem create_bareLine_between_breaks :
    let t : Text := "ab\r\ncd \nef".toList
    let place : Value :=
      .failure none [("pos".toList, .int 5), ("loc".toList, .ofLineColumn ⟨2, 1⟩)]
    5 ≤ t.length ∧ place.PlacesAt 5 5 ⟨2, 1⟩ ∧ ∃ i j,
      Issue.create (.text t) ['f'] (.int 5) ['m'] .error = .ok i ∧
      Issue.create (.ofLine "cd ".toList) ['f'] place ['m'] .error = .ok j ∧
      i.source = "cd".toList ∧ i.info = ⟨2, 1, 4, 7, 10⟩ ∧
      j = { i with info := ⟨2, 1, 4, 7, 7⟩ } ∧
      ∀ (hs : List Highlight) (p : Policy) (enabled : Bool),
        issueBlock (p.paint enabled) (j.addHighlights hs) =
          issueBlock (p.paint enabled) (i.addHighlights hs) := by
  intro t place
  have hn : 5 ≤ t.length := by decide
  have hplace : place.PlacesAt 5 5 ⟨2, 1⟩ := .record (.failure rfl rfl rfl ⟨rfl, rfl⟩ rfl) rfl
  obtain ⟨info, hinfo, halike⟩ := create_bareLine hn
  obtain rfl : info = ⟨2, 1, 4, 7, 10⟩ := Except.ok.inj (hinfo.symm.trans rfl)
  obtain ⟨i, j, hi, hj, hline, -, rfl, hblock⟩ := halike 5 place hplace ['f'] ['m'] .error
  have hsource : i.source = "cd".toList :=
    congrArg Issue.source (Except.ok.inj (hi.symm.trans rfl))
  exact ⟨hn, hplace, i, _, hi, hj, hsource, hline, by rw [hline], hblock⟩

end Pinpoint
