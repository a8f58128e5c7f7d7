import Pinpoint.Proofs.Lines

/-!
# The bounds of a resolved line

A location that is not refused resolves to a line around its offset, inside the source. This rests
on the column not being below zero: a column that is looked up never is, and one that the location
carries itself is not checked for it. Such a column puts the start of the line behind the offset, or
so far behind the text that it is no offset at all (`resolve_settled_iff`).
-/

namespace Pinpoint

/-- The line of an offset in a text, for a column that is taken as it is. -/
def textInfo (t : Text) (start : Int) (p : LineColumn) : LineInfo where
  line := p.line
  column := p.column
  lineStart := start - p.column
  lineEnd := t.lineEnd start.toNat
  sourceLength := t.length

/-- The line that stands alone as a source, for a column that is taken as it is. -/
def lineInfo (t : Text) (start : Int) (p : LineColumn) : LineInfo where
  line := p.line
  column := p.column
  lineStart := start - p.column
  lineEnd := start - p.column + t.length
  sourceLength := start - p.column + t.length

/-! ## What each way of resolving accepts -/

theorem checkOffset_of_mem {t : Text} {offset : Int} (h : 0 ≤ offset ∧ offset ≤ t.length) :
    checkOffset t offset = .ok () := by
  simp [checkOffset, h]

theorem checkOffset_of_not_mem {t : Text} {offset : Int} (h : ¬(0 ≤ offset ∧ offset ≤ t.length)) :
    checkOffset t offset = .error (.offsetOutside offset t.length) := by
  simp [checkOffset, h]

theorem resolveText_eq (t : Text) (looked : Bool) (start : Int) (p : LineColumn) :
    resolveText t looked start p =
      if start < p.column then .error (.columnBeforeText p.column start)
      else if ¬(0 ≤ start ∧ start ≤ t.length) then .error (.offsetOutside start t.length)
      else if looked = false ∧ t.length < start - p.column ∧ fitsWord (start - p.column) = false then
        .error .tooWide
      else if looked = false ∧ t.hasBreakBetween (start - p.column) start = true then
        .error (.columnPastLine p.column p.line start)
      else .ok (textInfo t start p) := by
  unfold resolveText
  by_cases h1 : start < p.column
  · rw [if_pos h1]
    simp only [if_pos (show start - p.column < 0 by omega)]
    rfl
  rw [if_neg h1]
  simp only [if_neg (show ¬start - p.column < 0 by omega)]
  by_cases h2 : 0 ≤ start ∧ start ≤ t.length
  · rw [if_neg (not_not_intro h2), checkOffset_of_mem h2]
    cases looked with
    | true =>
      simp only [Bool.true_eq_false, false_and, if_false]
      rfl
    | false =>
      simp only [true_and, Bool.and_eq_true, decide_eq_true_eq, Bool.not_eq_true']
      by_cases h3 : t.length < start - p.column ∧ fitsWord (start - p.column) = false
      · simp only [if_pos h3]
        rfl
      · simp only [if_neg h3]
        by_cases h4 : t.hasBreakBetween (start - p.column) start = true
        · simp only [if_pos h4]
          rfl
        · simp only [if_neg h4]
          rfl
  · rw [if_pos h2, checkOffset_of_not_mem h2]
    rfl

theorem resolveLine_eq (t : Text) (start : Int) (p : LineColumn) :
    resolveLine t start p =
      if start < p.column then .error (.columnBeforeText p.column start)
      else if t.length < p.column then .error (.columnPastSourceLine p.column)
      else .ok (lineInfo t start p) := by
  unfold resolveLine
  by_cases h1 : start < p.column
  · rw [if_pos h1]
    simp only [if_pos (show start - p.column < 0 by omega)]
    rfl
  · rw [if_neg h1]
    simp only [if_neg (show ¬start - p.column < 0 by omega)]
    by_cases h2 : t.length < p.column
    · rw [if_pos h2]
      simp only [if_pos h2]
      rfl
    · rw [if_neg h2]
      simp only [if_neg h2]
      rfl

/-- The line and column that a location has in a text: its own, or else those of its offset. -/
def Location.placeIn (l : Location) (t : Text) : LineColumn := l.trusted?.getD (t.position l.start)

theorem resolve_text (t : Text) (l : Location) :
    resolve (.text t) l = resolveText t l.trusted?.isNone l.start (l.placeIn t) := by
  unfold resolve Location.placeIn
  cases l.trusted? <;> rfl

theorem resolve_text_eq_ok {t : Text} {l : Location} {info : LineInfo}
    (h : resolve (.text t) l = .ok info) :
    (l.placeIn t).column ≤ l.start ∧ 0 ≤ l.start ∧ l.start ≤ t.length ∧
      info = textInfo t l.start (l.placeIn t) := by
  rw [resolve_text, resolveText_eq] at h
  split at h
  · cases h
  · split at h
    · cases h
    · split at h
      · cases h
      · split at h
        · cases h
        · cases h
          exact ⟨by omega, by omega, by omega, rfl⟩

theorem resolve_line_eq_ok {t : Text} {l : Location} {info : LineInfo}
    (h : resolve (.line t) l = .ok info) :
    ∃ p : LineColumn, p.column ≤ l.start ∧ p.column ≤ t.length ∧ info = lineInfo t l.start p := by
  cases hp : l.trusted? with
  | none => simp [resolve, hp] at h
  | some p =>
    simp only [resolve, hp] at h
    rw [resolveLine_eq] at h
    split at h
    · cases h
    · split at h
      · cases h
      · cases h
        exact ⟨p, by omega, by omega, rfl⟩

/-- A location whose column, if it carries one, is not below zero. -/
def Location.Forward (l : Location) : Prop := ∀ p, l.trusted? = some p → 0 ≤ p.column

theorem position_column_nonneg {t : Text} {start : Int} (h : 0 ≤ start) :
    0 ≤ (t.position start).column := by
  have := t.lineStart_le start.toNat
  rw [Int.toNat_of_nonneg h] at this
  rw [Text.position_column]
  omega

theorem Location.Forward.placeIn_nonneg {l : Location} (hl : l.Forward) {t : Text}
    (h : 0 ≤ l.start) : 0 ≤ (l.placeIn t).column := by
  unfold placeIn
  cases hp : l.trusted? with
  | none => exact position_column_nonneg h
  | some p => exact hl p hp

theorem position_column_le (t : Text) (start : Int) : (t.position start).column ≤ start := by
  rw [Text.position_column]
  omega

/-- A bare offset is refused outside the text, and nowhere else. -/
theorem resolve_offset_eq (t : Text) (start : Int) :
    resolve (.text t) (.offset start) =
      if 0 ≤ start ∧ start ≤ t.length then .ok (textInfo t start (t.position start))
      else .error (.offsetOutside start t.length) := by
  have hcolumn := position_column_le t start
  rw [resolve_text, resolveText_eq]
  simp only [Location.placeIn, Location.trusted?, Location.start, Option.getD_none,
    Option.isNone_none, Bool.true_eq_false, false_and, if_false]
  rw [if_neg (by omega), ite_not]

/-! ## What the outcome promises -/

/-- The bounds that a resolved line keeps around its offset. -/
structure LineInfo.Bounds (info : LineInfo) (start : Int) : Prop where
  lineStart_nonneg : 0 ≤ info.lineStart
  lineStart_le : info.lineStart ≤ start
  le_lineEnd : start ≤ info.lineEnd
  lineEnd_le : info.lineEnd ≤ info.sourceLength
  column_eq : info.column = start - info.lineStart

/-- What resolving an offset should come to: a refusal for a wrong type or a wrong value, or a line
around the offset. -/
def Settled (start : Int) : Except LocationError LineInfo → Prop
  | .ok info => info.Bounds start
  | .error e => e.kind = .wrongType ∨ e.kind = .wrongValue

/-- A location strays if its source would take its offset, but the column that it carries lies below
zero. -/
def Location.Strays (l : Location) : Source → Prop
  | .text t => (∃ p, l.trusted? = some p ∧ p.column < 0) ∧ 0 ≤ l.start ∧ l.start ≤ t.length
  | .line _ => ∃ p, l.trusted? = some p ∧ p.column < 0 ∧ p.column ≤ l.start

theorem textInfo_bounds_iff {t : Text} {start : Int} {p : LineColumn} (h0 : 0 ≤ start)
    (h1 : start ≤ t.length) (hp : p.column ≤ start) :
    (textInfo t start p).Bounds start ↔ 0 ≤ p.column := by
  have hend := t.lineEnd_le_length start.toNat
  have hstart := Text.le_lineEnd (show start.toNat ≤ t.length by omega)
  constructor
  · intro h
    have : start - p.column ≤ start := h.lineStart_le
    omega
  · intro h
    constructor <;> simp only [textInfo] <;> omega

theorem lineInfo_bounds_iff {t : Text} {start : Int} {p : LineColumn} (hp : p.column ≤ start)
    (h1 : p.column ≤ t.length) : (lineInfo t start p).Bounds start ↔ 0 ≤ p.column := by
  constructor
  · intro h
    have : start - p.column ≤ start := h.lineStart_le
    omega
  · intro h
    constructor <;> simp only [lineInfo] <;> omega

theorem resolveText_settled_iff (t : Text) (looked : Bool) (start : Int) (p : LineColumn) :
    Settled start (resolveText t looked start p) ↔
      p.column < 0 → ¬(0 ≤ start ∧ start ≤ t.length) := by
  rw [resolveText_eq]
  split
  · refine iff_of_true (.inr rfl) ?_
    omega
  · split
    · refine iff_of_true (.inr rfl) ?_
      omega
    · split
      · -- the line would start behind the text, which takes a column below zero
        refine iff_of_false (fun h => h.elim nofun nofun) ?_
        omega
      · split
        · next hbreak =>
          -- a break in between leaves no room for a column below zero
          obtain ⟨n, hn, hlt, _⟩ := Text.hasBreakBetween_iff.1 hbreak.2
          refine iff_of_true (.inr rfl) ?_
          omega
        · rw [Settled, textInfo_bounds_iff] <;> omega

theorem resolveLine_settled_iff (t : Text) (start : Int) (p : LineColumn) :
    Settled start (resolveLine t start p) ↔ p.column < 0 → ¬p.column ≤ start := by
  rw [resolveLine_eq]
  split
  · refine iff_of_true (.inr rfl) ?_
    omega
  · split
    · refine iff_of_true (.inr rfl) ?_
      omega
    · rw [Settled, lineInfo_bounds_iff] <;> omega

/-- **A location resolves to a line around its offset, or is refused for a wrong type or a wrong
value, exactly if it does not stray.** -/
theorem resolve_settled_iff (source : Source) (l : Location) :
    Settled l.start (resolve source l) ↔ ¬l.Strays source := by
  cases source with
  | text t =>
    rw [resolve_text, resolveText_settled_iff]
    cases hp : l.trusted? with
    | none =>
      simp only [Location.placeIn, hp, Option.getD_none, Location.Strays, reduceCtorEq, false_and,
        exists_false, not_false_eq_true, iff_true]
      intro hneg h
      have := position_column_nonneg (t := t) h.1
      omega
    | some p =>
      simp only [Location.placeIn, hp, Option.getD_some, Location.Strays, Option.some.injEq,
        exists_eq_left', not_and]
  | line t =>
    cases hp : l.trusted? with
    | none => simp [resolve, hp, Settled, LocationError.kind, Location.Strays]
    | some p =>
      simp only [resolve, hp, resolveLine_settled_iff, Location.Strays, Option.some.injEq,
        exists_eq_left', not_and]

/-- A column below zero: the line starts behind the offset. -/
theorem resolve_not_settled :
    ¬∀ (source : Source) (l : Location), Settled l.start (resolve source l) := by
  intro h
  have hr : resolve (.text ['a', 'b']) (.placed 0 0 ⟨1, -1⟩) = .ok ⟨1, -1, 1, 2, 2⟩ := rfl
  have hb : Settled 0 (resolve (.text ['a', 'b']) (.placed 0 0 ⟨1, -1⟩)) :=
    h (.text ['a', 'b']) (.placed 0 0 ⟨1, -1⟩)
  rw [hr] at hb
  exact absurd hb.lineStart_le (by decide)

end Pinpoint
