import Mathlib.Data.List.SplitBy
import Pinpoint.Proofs.Shown
import Pinpoint.Report.Caret

/-!
# The mark under the offset

Without styles the caret line is its marks, one character each, without the blanks at their end. Of
these marks exactly one is the caret. For an issue of a text it stands under the character at the
offset, or, if that character was trimmed, behind the shown line with only blanks in between
(`create_pointsAt`).
-/

namespace Pinpoint

/-! ## Marks -/

theorem Mark.char_eq_caret {m : Mark} : m.char = '^' ↔ m = .caret := by
  cases m <;> decide

theorem not_mem_map_char {c : Char} (h : ∀ m : Mark, m.char ≠ c) (marks : List Mark) :
    c ∉ marks.map Mark.char := by
  intro hc
  obtain ⟨m, -, hm⟩ := List.mem_map.1 hc
  exact h m hm

theorem trimMarks_eq (marks : List Mark) : trimMarks marks = marks.rdropWhile (· == .blank) := rfl

/-- Trimming leaves every caret where it is. -/
theorem getElem?_trimMarks_eq_caret {marks : List Mark} {n : Nat} :
    (trimMarks marks)[n]? = some .caret ↔ marks[n]? = some .caret := by
  rw [trimMarks_eq]
  constructor
  · intro h
    rwa [← getElem?_rdropWhile (List.getElem?_eq_some_iff.1 h).1]
  · intro h
    by_cases hn : n < (marks.rdropWhile (· == .blank)).length
    · rwa [getElem?_rdropWhile hn]
    · have := of_length_rdropWhile_le (Nat.le_of_not_lt hn) h
      simp at this

/-- A text for which memory holds a mark for each column, also for the one behind its end. Every
text in memory is of this kind. -/
def Text.Addressable (t : Text) : Prop := t.length + 1 < markLimit

instance (t : Text) : Decidable t.Addressable := inferInstanceAs (Decidable (_ < _))

theorem fitsWord_of_lt_markLimit {n : Nat} (h : n < markLimit) : fitsWord n = true := by
  simp only [markLimit, fitsWord, Bool.and_eq_true, decide_eq_true_eq] at h ⊢
  omega

namespace Issue

theorem length_tildes (i : Issue) : i.tildes.length = i.width := by
  simp [tildes]

theorem not_mem_tildes_caret (i : Issue) : Mark.caret ∉ i.tildes := by
  intro h
  obtain ⟨n, _, h⟩ := List.mem_map.1 h
  split at h <;> cases h

theorem getElem?_tildes_set_eq_caret {i : Issue} {c n : Nat} (hc : c < i.width) :
    (i.tildes.set c .caret)[n]? = some .caret ↔ n = c := by
  rw [List.getElem?_set]
  by_cases h : c = n
  · subst h
    simp [length_tildes, hc]
  · rw [if_neg h]
    constructor
    · intro hn
      exact absurd (List.mem_of_getElem? hn) i.not_mem_tildes_caret
    · intro hn
      exact absurd hn.symm h

theorem width_of_nonneg {i : Issue} {c : Nat} (h : i.info.column = c) :
    i.width = max i.source.length (c + 1) := by
  rw [width, h]
  rfl

theorem width_of_neg {i : Issue} (h : i.info.column < 0) : i.width = i.source.length := by
  rw [width, Int.toNat_of_nonpos (by omega), Nat.max_zero]

theorem caretIndex?_of_nonneg {i : Issue} {c : Nat} (h : i.info.column = c) :
    i.caretIndex? = some c := by
  have hw := width_of_nonneg h
  have hneg : ¬(c : Int) < 0 := by omega
  simp only [caretIndex?, h, if_neg hneg, Bool.and_eq_true, decide_eq_true_eq]
  rw [if_pos (by omega), Int.toNat_natCast]

/-- The caret misses the marks only if the column is further below zero than the line is long. -/
theorem caretIndex?_eq_none_iff {i : Issue} :
    i.caretIndex? = none ↔ i.info.column < -(i.source.length : Int) := by
  by_cases h : i.info.column < 0
  · have hw := width_of_neg h
    simp only [caretIndex?, if_pos h, hw, Bool.and_eq_true, decide_eq_true_eq]
    split
    · simp only [reduceCtorEq, false_iff]
      omega
    · simp only [true_iff]
      omega
  · obtain ⟨c, hc⟩ := Int.eq_ofNat_of_zero_le (Int.not_lt.1 h)
    rw [caretIndex?_of_nonneg hc]
    simp only [reduceCtorEq, false_iff]
    omega

/-- An issue with as many marks as memory holds fails to have marks only for its column. -/
theorem marks_of_caretIndex?_eq_none {i : Issue} (hw : i.width < markLimit)
    (h : i.caretIndex? = none) : i.marks = .error .caretOutside := by
  simp [marks, fitsWord_of_lt_markLimit hw, Nat.not_le.2 hw, h]

theorem marks_of_caretIndex? {i : Issue} (hw : i.width < markLimit) {n : Nat}
    (h : i.caretIndex? = some n) : i.marks = .ok (i.tildes.set n .caret) := by
  simp [marks, fitsWord_of_lt_markLimit hw, Nat.not_le.2 hw, h]

end Issue

/-! ## The line without styles -/

theorem paintRun_plain (p : Policy) (run : List Mark) :
    paintRun (p.paint false) run = .ok (run.map Mark.char) := by
  cases run with
  | nil => rfl
  | cons m rest => cases m <;> rfl

section
variable {paint : Role → Text → Except Text Text}
  (hpaint : ∀ run, paintRun paint run = .ok (run.map Mark.char))

include hpaint

theorem paintRuns_of_paintRun (runs : List (List Mark)) :
    paintRuns paint runs = .ok (runs.flatten.map Mark.char) := by
  induction runs with
  | nil => rfl
  | cons run rest ih =>
    simp only [paintRuns, hpaint, ih, List.flatten_cons, List.map_append]
    rfl

theorem caretLine_of_paintRun {i : Issue} {marks : List Mark} (h : i.marks = .ok marks) :
    caretLine paint i = .ok ((trimMarks marks).map Mark.char) := by
  simp only [caretLine, h]
  exact (paintRuns_of_paintRun hpaint _).trans (by rw [List.flatten_splitBy])

end

theorem caretLine_plain {i : Issue} {marks : List Mark} (p : Policy) (h : i.marks = .ok marks) :
    caretLine (p.paint false) i = .ok ((trimMarks marks).map Mark.char) :=
  caretLine_of_paintRun (paintRun_plain p) h

theorem caretLine_caret {i : Issue} {c : Nat} (p : Policy) (h : i.info.column = c)
    (hw : i.width < markLimit) :
    ∃ drawn, caretLine (p.paint false) i = .ok drawn ∧ ∀ n : Nat, drawn[n]? = some '^' ↔ n = c := by
  have hc : c < i.width := by
    rw [Issue.width_of_nonneg h]
    omega
  refine ⟨_, caretLine_plain p (Issue.marks_of_caretIndex? hw (Issue.caretIndex?_of_nonneg h)),
    fun n => ?_⟩
  rw [← Issue.getElem?_tildes_set_eq_caret hc, ← getElem?_trimMarks_eq_caret, List.getElem?_map]
  simp only [Option.map_eq_some_iff, Mark.char_eq_caret, exists_eq_right]

/-! ## The issue at a location of a text -/

/-- What is shown of an issue fits the place `c` characters behind the offset `a` of a text, where
the line starts. -/
structure Issue.PointsAt (i : Issue) (t : Text) (a c : Nat) : Prop where
  lineStart_eq : i.info.lineStart = a
  column_eq : i.info.column = c
  shown : ∀ n, n < i.source.length → i.source[n]? = t[a + n]?
  caret : ∀ (highlights : List Highlight) (p : Policy),
    ∃ drawn, caretLine (p.paint false) { i with highlights := highlights } = .ok drawn ∧
      ∀ n : Nat, drawn[n]? = some '^' ↔ n = c
  above : c < i.source.length → i.source[c]? = t[a + c]?
  passed : i.source.length ≤ c → ∀ n, a + i.source.length ≤ n → n < a + c →
    ∃ d, t[n]? = some d ∧ isBlank d = true

/-- **The caret stands under the character at the offset, or behind the shown line with only blanks
in between.** -/
theorem create_pointsAt {t : Text} (ht : t.Addressable) {l : Location} (hl : l.Forward)
    {file message : Text} {severity : Severity} {i : Issue}
    (created : Issue.create (.text t) file (.located l) message severity = .ok i) :
    ∃ a c : Nat, l.start = (a + c : Nat) ∧ i.PointsAt t a c := by
  obtain ⟨s, l', info, hs, hl', hinfo, rfl⟩ := Issue.create_eq_ok created
  cases hs
  cases hl'
  obtain ⟨hle, h0, hlen, rfl⟩ := resolve_text_eq_ok hinfo
  -- the column was looked up or carried by the location, and is not below zero either way
  have hc := hl.placeIn_nonneg (t := t) h0
  obtain ⟨c, hc⟩ := Int.eq_ofNat_of_zero_le hc
  obtain ⟨a, ha⟩ := Int.eq_ofNat_of_zero_le (show 0 ≤ l.start - c by omega)
  have hstart : l.start = (a + c : Nat) := by omega
  have hsource : extractLine (.text t) (textInfo t l.start (l.placeIn t)) =
      t.shownBetween a (t.lineEnd (a + c)) := by
    rw [hstart]
    exact extractLine_textInfo (by omega) hc
  have hend := Text.le_lineEnd (show a + c ≤ t.length by omega)
  refine ⟨a, c, hstart, ?_⟩
  rw [hsource]
  constructor
  · simp only [textInfo]
    omega
  · exact hc
  · intro n hn
    exact getElem?_shownBetween hn
  · -- highlights do not widen the line: it has a mark for each offset of the text at most
    intro highlights p
    refine caretLine_caret p hc (Nat.lt_of_le_of_lt ?_ ht)
    rw [Issue.width_of_nonneg hc]
    have := length_shownBetween_le t a (t.lineEnd (a + c))
    simp only
    omega
  · intro h
    exact getElem?_shownBetween h
  · intro _ n h1 h2
    have hn : n < t.length := by omega
    exact ⟨t[n], List.getElem?_eq_getElem hn,
      isBlank_of_length_shownBetween_le h1 (by omega) (List.getElem?_eq_getElem hn)⟩

/-- An offset inside a pair, behind a blank that is not shown. -/
theorem create_pointsAt_inside_pair :
    ∃ i, Issue.create (.text ['a', 'b', '\n', 'c', ' ', '\r', '\n']) [] (.located (.offset 6)) []
        .error = .ok i ∧
      i.source = ['c'] ∧ i.info.column = 3 ∧
      ∃ a c : Nat, (Location.offset 6).start = (a + c : Nat) ∧
        i.PointsAt ['a', 'b', '\n', 'c', ' ', '\r', '\n'] a c := by
  refine ⟨_, rfl, by decide, by decide, ?_⟩
  have hl : (Location.offset 6).Forward := fun _ h => nomatch h
  exact create_pointsAt (by decide) hl
    (show Issue.create _ [] (.located (.offset 6)) [] .error = .ok _ from rfl)

end Pinpoint
