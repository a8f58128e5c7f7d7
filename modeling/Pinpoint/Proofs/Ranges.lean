import Pinpoint.Proofs.Shapes
import Pinpoint.Proofs.Shown

/-!
# Ranges that end before they start

A range of offsets alone is refused if it ends before it starts. With a `loc` beside it nobody looks
at its order, so that such a range gets through whenever the `loc` can be read (`read_inverted_iff`,
`read_not_always_ordered`). No other value is read as a range that ends before it starts. -/

namespace Pinpoint

def Location.stop : Location → Int
  | .offset s => s
  | .span r => r.stop
  | .placed _ e _ => e
  | .ranged _ e _ _ => e

namespace Value

/-- The offsets that a value gives beside its `loc`: a position can stand for the start, and the
start for the end. -/
structure GivesRange (v : Value) (start stop : Int) : Prop where
  start_eq : v.field "start".toList = int start ∨
    v.field "start".toList = null ∧ v.field "pos".toList = int start
  stop_eq : v.field "end".toList = int stop ∨ v.field "end".toList = null ∧ stop = start

/-- What a `loc` makes of a range of offsets. -/
inductive Locates (loc : Value) (start stop : Int) : Location → Prop where
  /-- It holds the line and column itself. -/
  | placed {p : LineColumn} (carries : loc.Carries p)
      (flat : ((loc.field "start".toList).field "line".toList).isNull = true) :
      Locates loc start stop (.placed start stop p)
  /-- It holds those of both ends, of which the last can be left out. -/
  | ranged {p q : LineColumn} (first : (loc.field "start".toList).Carries p)
      (last : loc.field "end".toList = null ∧ q = p ∨ (loc.field "end".toList).Carries q) :
      Locates loc start stop (.ranged start stop p q)

theorem isNull_eq_true_iff {v : Value} : v.isNull = true ↔ v = null := by
  constructor
  · intro h
    unfold isNull at h
    split at h
    · rfl
    · cases h
  · rintro rfl
    rfl

end Value

/-! ## What is read -/

theorem readInteger_eq_ok_iff {name : Text} {v : Value} {n : Int} :
    readInteger name v = .ok n ↔ v = .int n := by
  constructor
  · intro h
    unfold readInteger Value.int? at h
    split at h
    · next heq =>
      split at heq
      · rw [← Except.ok.inj h, ← Option.some.inj heq]
        rfl
      · cases heq
    · cases h
  · rintro rfl
    rfl

theorem readStop_eq_ok_iff {start stop : Int} {v : Value} :
    readStop start v = .ok stop ↔ v = .int stop ∨ v = .null ∧ stop = start := by
  unfold readStop
  split
  next hnull =>
    rw [Value.isNull_eq_true_iff] at hnull
    subst hnull
    constructor
    · intro h
      exact .inr ⟨rfl, (Except.ok.inj h).symm⟩
    · rintro (h | ⟨-, rfl⟩)
      · cases h
      · rfl
  next hsome =>
    rw [readInteger_eq_ok_iff]
    constructor
    · exact .inl
    · rintro (h | ⟨h, -⟩)
      · exact h
      · exact absurd (Value.isNull_eq_true_iff.2 h) hsome

theorem LineColumn.read_eq_ok_iff {v : Value} {p : LineColumn} :
    LineColumn.read v = .ok p ↔ v.Carries p := by
  constructor
  · intro h
    obtain ⟨line, hline, h⟩ := bind_eq_ok.1 h
    obtain ⟨column, hcolumn, h⟩ := bind_eq_ok.1 h
    obtain rfl := Except.ok.inj h
    exact ⟨readInteger_eq_ok_iff.1 hline, readInteger_eq_ok_iff.1 hcolumn⟩
  · exact LineColumn.read_carries

theorem locates_of_readWithLoc {start stop loc : Value} {l : Location}
    (h : readWithLoc start stop loc = .ok l) : ∃ m n, start = .int m ∧
      (stop = .int n ∨ stop = .null ∧ n = m) ∧ loc.Locates m n l := by
  obtain ⟨m, hm, h⟩ := bind_eq_ok.1 h
  obtain ⟨n, hn, h⟩ := bind_eq_ok.1 h
  refine ⟨m, n, readInteger_eq_ok_iff.1 hm, readStop_eq_ok_iff.1 hn, ?_⟩
  dsimp only at h
  split at h
  next =>
    obtain ⟨p, hp, h⟩ := bind_eq_ok.1 h
    obtain ⟨q, hq, h⟩ := bind_eq_ok.1 h
    obtain rfl := Except.ok.inj h
    refine .ranged (LineColumn.read_eq_ok_iff.1 hp) ?_
    split at hq
    next hlast =>
      exact .inl ⟨Value.isNull_eq_true_iff.1 hlast, Except.ok.inj (hq.symm.trans hp)⟩
    next => exact .inr (LineColumn.read_eq_ok_iff.1 hq)
  next hflat =>
    split at h
    next => cases h
    next =>
      obtain ⟨line, hline, h⟩ := bind_eq_ok.1 h
      obtain ⟨column, hcolumn, h⟩ := bind_eq_ok.1 h
      obtain rfl := Except.ok.inj h
      refine .placed ⟨readInteger_eq_ok_iff.1 hline, readInteger_eq_ok_iff.1 hcolumn⟩ ?_
      rw [Bool.not_eq_true, Bool.and_eq_false_iff, Bool.not_eq_false', Bool.not_eq_false'] at hflat
      rcases hflat with hfirst | hfirst
      · rw [Value.isNull_eq_true_iff.1 hfirst]
        rfl
      · exact hfirst

theorem readWithLoc_of_locates {start stop : Int} {v loc : Value} {l : Location}
    (hstop : v = .int stop ∨ v = .null ∧ stop = start) (h : loc.Locates start stop l) :
    readWithLoc (.int start) v loc = .ok l := by
  have hread := readStop_eq_ok_iff.2 hstop
  cases h with
  | placed carries flat =>
    simp only [readWithLoc, flat, carries.line, carries.column, readInteger, Value.int?, Value.int,
      Bool.not_true, Bool.and_false, Bool.false_eq_true, if_false]
    simp only [bind, Except.bind, hread]
    rfl
  | ranged first last => exact readWithLoc_nested hread first last

/-! ## Which ranges get through -/

theorem start_le_stop_of_readSyntax {text? : Option Text} {line column : Value} {l : Location}
    (h : readSyntax text? line column = .ok l) : l.start ≤ l.stop := by
  unfold readSyntax at h
  split at h
  next => cases h
  next =>
    obtain ⟨c, -, h⟩ := bind_eq_ok.1 h
    obtain ⟨k, -, h⟩ := bind_eq_ok.1 h
    split at h
    next =>
      obtain rfl := Except.ok.inj h
      exact Int.le_refl _
    next => cases h

section
variable {v : Value} (text? : Option Text)

theorem readFields_of_loc (hloc : (v.field "loc".toList).isNull = false) {l : Location} :
    Location.readFields v text? = .ok l ↔
      ∃ m n, v.GivesRange m n ∧ (v.field "loc".toList).Locates m n l := by
  rw [readFields_loc text? hloc]
  constructor
  · intro h
    obtain ⟨m, n, hstart, hstop, hl⟩ := locates_of_readWithLoc h
    refine ⟨m, n, ⟨?_, hstop⟩, hl⟩
    split at hstart
    next hnull => exact .inr ⟨Value.isNull_eq_true_iff.1 hnull, hstart⟩
    next => exact .inl hstart
  · rintro ⟨m, n, ⟨hstart, hstop⟩, hl⟩
    have hgiven : (if (v.field "start".toList).isNull then v.field "pos".toList
        else v.field "start".toList) = .int m := by
      rcases hstart with hstart | ⟨hnull, hpos⟩
      · rw [hstart]
        rfl
      · rw [hnull]
        exact hpos
    rw [hgiven]
    exact readWithLoc_of_locates hstop hl

/-- Without a `loc` a range is checked for its order or made of one offset. -/
theorem start_le_stop_of_readFields (hloc : (v.field "loc".toList).isNull = true) {l : Location}
    (h : Location.readFields v text? = .ok l) : l.start ≤ l.stop := by
  simp only [Location.readFields, hloc, Bool.not_true, Bool.false_eq_true, if_false] at h
  split at h
  next =>
    obtain ⟨m, -, h⟩ := bind_eq_ok.1 h
    obtain ⟨n, -, h⟩ := bind_eq_ok.1 h
    obtain ⟨range, -, h⟩ := bind_eq_ok.1 h
    obtain rfl := Except.ok.inj h
    exact range.start_le_stop
  next =>
    split at h
    next =>
      obtain ⟨m, -, h⟩ := bind_eq_ok.1 h
      obtain rfl := Except.ok.inj h
      exact Int.le_refl m
    next =>
      split at h
      next => exact start_le_stop_of_readSyntax h
      next => cases h

theorem readFields_inverted (hloc : (v.field "loc".toList).isNull = true) {m n : Int}
    (hstart : v.field "start".toList = .int m) (hstop : v.field "end".toList = .int n)
    (hinverted : n < m) : Location.readFields v text? = .error (.invertedSpan m n) := by
  simp only [Location.readFields, hloc, hstart, hstop]
  simp only [Value.isNull, Value.int, Bool.not_true, Bool.not_false, if_true, Bool.false_eq_true,
    if_false, readInteger, Value.int?, readStop, bind, Except.bind, Span.read,
    dif_neg (Int.not_le.2 hinverted)]

end

theorem read_cases (v : Value) (text? : Option Text) :
    (∃ l, v = .located l ∧ Location.read v text? = .ok l) ∨
    (∃ n, v = .int n ∧ Location.read v text? = .ok (.offset n)) ∨
    (∀ l, v ≠ .located l) ∧ Location.read v text? = Location.readFields v text? := by
  unfold Location.read
  split
  next l => exact .inl ⟨l, rfl, rfl⟩
  next n => exact .inr (.inl ⟨n, rfl, rfl⟩)
  next hv _ => exact .inr (.inr ⟨hv, rfl⟩)

theorem isNull_loc_located (l : Location) :
    ((Value.located l).field "loc".toList).isNull = true := by
  cases l <;> rfl

/-- **A range that ends before it starts gets through exactly with a `loc` that can be read**, and
is then taken as it is. Without a `loc` it is refused. What is a location already is passed on
unseen. -/
theorem read_inverted_iff (v : Value) (text? : Option Text) :
    (∀ l, Location.read v text? = .ok l ∧ l.stop < l.start ↔
      v = .located l ∧ l.stop < l.start ∨
      (v.field "loc".toList).isNull = false ∧ ∃ start stop, stop < start ∧
        v.GivesRange start stop ∧ (v.field "loc".toList).Locates start stop l) ∧
    ((∀ l, v ≠ .located l) → ∀ start stop, (v.field "loc".toList).isNull = true →
      v.field "start".toList = .int start → v.field "end".toList = .int stop → stop < start →
      Location.read v text? = .error (.invertedSpan start stop)) := by
  rcases read_cases v text? with ⟨l', rfl, hread⟩ | ⟨n, rfl, hread⟩ | ⟨hv, hread⟩
  · refine ⟨fun l => ?_, fun hv => absurd rfl (hv l')⟩
    rw [hread, isNull_loc_located]
    simp only [Bool.true_eq_false, false_and, or_false, Except.ok.injEq, Value.located.injEq]
  · refine ⟨fun l => ⟨?_, ?_⟩, nofun⟩
    · rintro ⟨h, hinverted⟩
      obtain rfl := Except.ok.inj (hread.symm.trans h)
      exact absurd hinverted (Int.lt_irrefl n)
    · rintro (⟨h, -⟩ | ⟨h, -⟩) <;> cases h
  · rw [hread]
    refine ⟨fun l => ?_, fun _ _ _ hloc => readFields_inverted text? hloc⟩
    rw [or_iff_right fun h => hv l h.1]
    cases hloc : (v.field "loc".toList).isNull with
    | true =>
      refine ⟨fun ⟨h, hinverted⟩ => ?_, nofun⟩
      exact absurd hinverted (Int.not_lt.2 (start_le_stop_of_readFields text? hloc h))
    | false =>
      rw [readFields_of_loc text? hloc]
      constructor
      · rintro ⟨⟨start, stop, hrange, hl⟩, hinverted⟩
        refine ⟨rfl, start, stop, ?_, hrange, hl⟩
        cases hl <;> exact hinverted
      · rintro ⟨-, start, stop, hinverted, hrange, hl⟩
        refine ⟨⟨start, stop, hrange, hl⟩, ?_⟩
        cases hl <;> exact hinverted

/-- A parser's failure with a position for its start, and a `loc` whose last end is left out;
without the `loc`, a range like that is refused. -/
theorem read_inverted_iff_behind_position :
    let first : Value := .mapping [(.text "line".toList, .int 2), (.text "column".toList, .int 4)]
    let v : Value := .failure none [("pos".toList, .int 15), ("end".toList, .int 3),
      ("loc".toList, .object [("start".toList, first)])]
    let bare : Value := .object [("start".toList, .int 15), ("end".toList, .int 3)]
    Location.read v none = .ok (.ranged 15 3 ⟨2, 4⟩ ⟨2, 4⟩) ∧
    Location.read bare none = .error (.invertedSpan 15 3) := by
  intro first v bare
  have hbare : ∀ l, bare ≠ .located l := nofun
  have hfirst : first.Carries ⟨2, 4⟩ := ⟨rfl, rfl⟩
  have hrange : v.GivesRange 15 3 := ⟨.inr ⟨rfl, rfl⟩, .inl rfl⟩
  have hlocates : (v.field "loc".toList).Locates 15 3 (.ranged 15 3 ⟨2, 4⟩ ⟨2, 4⟩) :=
    .ranged hfirst (.inl ⟨rfl, rfl⟩)
  exact ⟨(((read_inverted_iff v none).1 _).2 (.inr ⟨rfl, 15, 3, by decide, hrange, hlocates⟩)).1,
    (read_inverted_iff bare none).2 hbare 15 3 rfl rfl rfl (by decide)⟩

/-- The check of spans is passed by where a `loc` stands beside the range. -/
theorem read_not_always_ordered :
    ¬∀ (v : Value) (text? : Option Text) (l : Location), v.isRecord = true →
      Location.read v text? = .ok l → l.start ≤ l.stop := by
  intro h
  have hle := h (.mapping [(.text "start".toList, .int 6), (.text "end".toList, .int 5),
    (.text "loc".toList, .ofLineColumn ⟨1, 6⟩)]) none (.placed 6 5 ⟨1, 6⟩) rfl rfl
  exact absurd hle (by decide)

end Pinpoint
