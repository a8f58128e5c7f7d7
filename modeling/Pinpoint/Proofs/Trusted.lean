import Pinpoint.Proofs.Shown

/-!
# Columns that are trusted

A location that carries its line and column is not looked up. Its column is taken as it is, if the
text has that many characters in front of the offset and none of them breaks a line (`Takes`). Held
against the column that a look-up gives, a trusted one may be smaller, but not larger
(`takes_iff_column_le`); strictly inside a pair the carriage return stands right in front of the
offset, and leaves column zero alone.
-/

namespace Pinpoint

namespace Text

/-- An offset takes a column if the text reaches up to the offset, and as many characters stand in
front of it, none of which breaks a line. -/
structure Takes (t : Text) (start column : Int) : Prop where
  start_nonneg : 0 ≤ start
  start_le : start ≤ t.length
  column_le : column ≤ start
  unbroken : ∀ c ∈ t.slice (start - column) start, isBreakChar c = false

/-- The first offset from `start` on where a break character stands, or else the end of the text. -/
structure FirstBreak (t : Text) (start stop : Nat) : Prop where
  start_le : start ≤ stop
  unbroken : ∀ k, start ≤ k → k < stop → t.hasBreakAt k = false
  stops : stop = t.length ∨ t.hasBreakAt stop = true

/-! ## Where the line goes on to -/

theorem firstBreak_lineEnd {t : Text} {n : Nat} (h : n ≤ t.length) :
    t.FirstBreak n (t.lineEnd n) := by
  refine ⟨le_lineEnd h, ?_, ?_⟩
  · intro k hk hlt
    rw [Bool.eq_false_iff]
    intro hbreak
    have := lineEnd_le_of_hasBreakAt hk hbreak
    omega
  · by_cases hend : t.lineEnd n = t.length
    · exact .inl hend
    · right
      by_contra hno
      -- without a break character there, the line would reach one character further
      have hlt := t.lineEnd_le_length n
      have hmore : t.lineEnd n + 1 ≤ t.lineEnd n := by
        apply le_lineEnd_of_forall (by have := le_lineEnd h; omega) (by omega)
        intro k hk hle
        rw [Bool.eq_false_iff]
        intro hbreak
        have hge := lineEnd_le_of_hasBreakAt hk hbreak
        obtain rfl : k = t.lineEnd n := by omega
        exact hno hbreak
      omega

theorem FirstBreak.eq_lineEnd {t : Text} {n m : Nat} (h : t.FirstBreak n m) :
    m = t.lineEnd n := by
  apply Nat.le_antisymm
  · apply le_lineEnd_of_forall h.start_le ?_ h.unbroken
    rcases h.stops with hend | hbreak
    · omega
    · exact Nat.le_of_lt (lt_length_of_hasBreakAt hbreak)
  · rcases h.stops with rfl | hbreak
    · exact t.lineEnd_le_length n
    · exact lineEnd_le_of_hasBreakAt h.start_le hbreak

/-- Inside a pair the carriage return in front of the offset ends the line, and the line feed behind
it stands right there. -/
theorem firstBreak_of_splitsPair {t : Text} {n : Nat} (h : t.SplitsPair n) :
    t.FirstBreak (t.lineStart n) (n - 1) ∧ t.FirstBreak n n := by
  have hlt := lineStart_lt_of_splitsPair h
  constructor
  · refine ⟨by omega, ?_, .inr h.hasBreakAt⟩
    intro m hm hmn
    rw [Bool.eq_false_iff]
    intro hbreak
    have := ((hasBreakAt_iff_of_lineStart_le hm (by omega)).1 hbreak).2
    omega
  · refine ⟨Nat.le_refl n, ?_, .inr ?_⟩
    · intro m hm hmn
      omega
    · rw [hasBreakAt_of_some h.2.2]
      rfl

/-- Outside of pairs, the same break is the first one from the start of the line and from the
offset. -/
theorem lineEnd_lineStart {t : Text} {n : Nat} (hn : n ≤ t.length) (hs : ¬t.SplitsPair n) :
    t.lineEnd (t.lineStart n) = t.lineEnd n := by
  have hend := (le_lineEnd_lineStart_iff hn).2 hs
  have hfirst := firstBreak_lineEnd (t.lineStart_le_length n)
  have hle := t.lineStart_le n
  have hsame : t.FirstBreak n (t.lineEnd (t.lineStart n)) :=
    ⟨hend, fun m hm hlt => hfirst.unbroken m (by omega) hlt, hfirst.stops⟩
  exact hsame.eq_lineEnd

/-! ## Which columns are taken -/

theorem hasBreakBetween_eq {t : Text} {a b : Nat} (ha : a ≤ t.length) (hb : b ≤ t.length) :
    t.hasBreakBetween a b = (t.slice a b).any isBreakChar := by
  rw [slice_natCast ha hb]
  rfl

theorem takes_iff {t : Text} {start column : Int} (hc : 0 ≤ column) :
    t.Takes start column ↔ 0 ≤ start ∧ start ≤ t.length ∧ column ≤ start ∧
      t.hasBreakBetween (start - column) start = false := by
  have hsame (h0 : 0 ≤ start) (hlen : start ≤ t.length) (hle : column ≤ start) :
      t.hasBreakBetween (start - column) start =
        (t.slice (start - column) start).any isBreakChar := by
    obtain ⟨a, ha⟩ := Int.eq_ofNat_of_zero_le (show 0 ≤ start - column by omega)
    obtain ⟨b, hb⟩ := Int.eq_ofNat_of_zero_le h0
    rw [ha, hb]
    exact hasBreakBetween_eq (by omega) (by omega)
  constructor
  · rintro ⟨h0, hlen, hle, hno⟩
    refine ⟨h0, hlen, hle, ?_⟩
    rw [hsame h0 hlen hle, List.any_eq_false]
    intro c hmem
    rw [hno c hmem]
    exact Bool.false_ne_true
  · rintro ⟨h0, hlen, hle, hno⟩
    refine ⟨h0, hlen, hle, ?_⟩
    rw [hsame h0 hlen hle, List.any_eq_false] at hno
    intro c hmem
    exact Bool.eq_false_iff.2 (hno c hmem)

theorem BreakAt.hasBreakAt_last {t : Text} {b : LineBreak} (h : t.BreakAt b) :
    t.hasBreakAt (b.stop - 1) = true := by
  cases h with
  | pair _ hlf => exact hasBreakAt_of_some hlf
  | single hn => exact hn

/-- Whatever reaches back over the start of its line meets a break character. -/
theorem hasBreakBetween_of_lt_lineStart {t : Text} {start : Int} {n : Nat} (h0 : 0 ≤ start)
    (h : start < t.lineStart n) : t.hasBreakBetween start n = true := by
  rcases t.lineStart_eq_zero_or n with hzero | ⟨b, hb, hstop, hle⟩
  · omega
  · have hat := breakAt_of_mem_breaks hb
    have hlt := hat.start_lt_stop
    rw [hasBreakBetween_iff]
    exact ⟨b.stop - 1, by omega, by omega, hat.hasBreakAt_last⟩

/-- **The columns that an offset takes are those up to the one that is looked up,** except strictly
inside a pair. -/
theorem takes_iff_column_le {t : Text} {n : Nat} (hn : n ≤ t.length) {column : Int}
    (hc : 0 ≤ column) :
    t.Takes n column ↔
      if t.SplitsPair n then column = 0 else column ≤ (t.position n).column := by
  have hstart := t.lineStart_le n
  rw [takes_iff hc, position_column, ← Bool.not_eq_true]
  split
  · next hs =>
    constructor
    · rintro ⟨_, _, _, hno⟩
      by_contra hne
      -- any other column reaches over the carriage return
      apply hno
      rw [hasBreakBetween_iff]
      have := hs.1
      exact ⟨n - 1, by omega, by omega, hs.hasBreakAt⟩
    · rintro rfl
      refine ⟨by omega, by omega, by omega, ?_⟩
      rw [hasBreakBetween_iff]
      rintro ⟨m, h1, h2, _⟩
      omega
  · next hs =>
    constructor
    · rintro ⟨_, _, hle, hno⟩
      by_contra hlarge
      exact hno (hasBreakBetween_of_lt_lineStart (by omega) (by omega))
    · intro hle
      refine ⟨by omega, by omega, by omega, ?_⟩
      rw [hasBreakBetween_iff]
      rintro ⟨m, h1, h2, hbreak⟩
      exact hs ((hasBreakAt_iff_of_lineStart_le (by omega) (by omega)).1 hbreak).1

end Text

/-! ## What a trusted column comes to -/

section
variable {l : Location} {p : LineColumn} (hl : l.trusted? = some p)
include hl

theorem resolve_line_of_trusted (t : Text) :
    (p.column ≤ l.start ∧ p.column ≤ t.length → resolve (.line t) l = .ok (lineInfo t l.start p)) ∧
      (¬(p.column ≤ l.start ∧ p.column ≤ t.length) →
        ∃ e, resolve (.line t) l = .error e ∧ e.kind = .wrongValue) := by
  simp only [resolve, hl]
  rw [resolveLine_eq]
  constructor
  · rintro ⟨hle, hlen⟩
    rw [if_neg (by omega), if_neg (by omega)]
  · intro h
    by_cases hle : l.start < p.column
    · rw [if_pos hle]
      exact ⟨_, rfl, rfl⟩
    · rw [if_neg hle, if_pos (by omega)]
      exact ⟨_, rfl, rfl⟩

variable (hp : 0 ≤ p.column)
include hp

theorem resolve_text_of_takes {t : Text} (h : t.Takes l.start p.column) :
    resolve (.text t) l = .ok (textInfo t l.start p) := by
  obtain ⟨h0, hlen, hle, hno⟩ := (Text.takes_iff hp).1 h
  simp only [resolve, hl]
  rw [resolveText_eq, if_neg (by omega), if_neg (by omega), if_neg (by omega), if_neg]
  rw [hno]
  exact fun h => Bool.false_ne_true h.2

/-- A column that is not taken is always refused as a wrong value: one that is not below zero leaves
no room for a line start outside the text. -/
theorem resolve_text_of_not_takes {t : Text} (h : ¬t.Takes l.start p.column) :
    ∃ e, resolve (.text t) l = .error e ∧ e.kind = .wrongValue := by
  rw [Text.takes_iff hp] at h
  simp only [resolve, hl]
  rw [resolveText_eq]
  by_cases hle : l.start < p.column
  · rw [if_pos hle]
    exact ⟨_, rfl, rfl⟩
  · rw [if_neg hle]
    by_cases hmem : 0 ≤ l.start ∧ l.start ≤ t.length
    · have hbreak : t.hasBreakBetween (l.start - p.column) l.start = true := by
        rw [← Bool.not_eq_false]
        exact fun hno => h ⟨hmem.1, hmem.2, by omega, hno⟩
      rw [if_neg (not_not_intro hmem), if_neg (by omega), if_pos ⟨rfl, hbreak⟩]
      exact ⟨_, rfl, rfl⟩
    · rw [if_pos hmem]
      exact ⟨_, rfl, rfl⟩

/-- **A text takes a trusted column exactly if its characters in front of the offset lie on one
line, which for an offset of the text are the columns up to the one that is looked up; a line that
stands alone takes it exactly if it is long enough.** All others are refused as wrong values. -/
theorem resolve_trusted :
    (∀ t : Text,
      (t.Takes l.start p.column → ∃ stop : Nat, t.FirstBreak l.start.toNat stop ∧
        resolve (.text t) l = .ok ⟨p.line, p.column, l.start - p.column, stop, t.length⟩) ∧
      (¬t.Takes l.start p.column →
        ∃ e, resolve (.text t) l = .error e ∧ e.kind = .wrongValue) ∧
      ∀ n : Nat, l.start = n → n ≤ t.length → (t.Takes l.start p.column ↔
        if t.SplitsPair n then p.column = 0 else p.column ≤ (t.position n).column)) ∧
    ∀ t : Text,
      (p.column ≤ l.start ∧ p.column ≤ t.length →
        resolve (.line t) l = .ok (lineInfo t l.start p)) ∧
      (¬(p.column ≤ l.start ∧ p.column ≤ t.length) →
        ∃ e, resolve (.line t) l = .error e ∧ e.kind = .wrongValue) := by
  refine ⟨fun t => ⟨?_, resolve_text_of_not_takes hl hp, ?_⟩, resolve_line_of_trusted hl⟩
  · intro h
    have hlen := h.start_le
    have h0 := h.start_nonneg
    exact ⟨_, Text.firstBreak_lineEnd (by omega), resolve_text_of_takes hl hp h⟩
  · intro n hstart hn
    rw [hstart]
    exact Text.takes_iff_column_le hn hp

end

/-- One location in three sources: the middle of a line, the inside of a pair, and a line that
stands alone. -/
theorem resolve_trusted_in_three_sources :
    let l := Location.ranged 2 9 ⟨7, 1⟩ ⟨9, 0⟩
    let t : Text := ['a', 'b', 'c', '\u2028', 'd']
    l.trusted? = some ⟨7, 1⟩ ∧ (0 : Int) ≤ 1 ∧
      (∃ stop, t.FirstBreak 2 stop ∧ resolve (.text t) l = .ok ⟨7, 1, 1, stop, 5⟩) ∧
      (∃ e, resolve (.text ['a', '\r', '\n', 'b']) l = .error e ∧ e.kind = .wrongValue) ∧
      resolve (.line ['b']) l = .ok ⟨7, 1, 1, 2, 2⟩ := by
  intro l t
  have hl : l.trusted? = some ⟨7, 1⟩ := rfl
  have hp : (0 : Int) ≤ (⟨7, 1⟩ : LineColumn).column := by decide
  obtain ⟨htext, hline⟩ := resolve_trusted hl hp
  refine ⟨hl, hp, ?_, ?_, (hline ['b']).1 (by decide)⟩
  · have hunbroken : ∀ c ∈ t.slice (2 - 1) 2, isBreakChar c = false :=
      List.forall_mem_singleton.2 (by decide)
    exact (htext t).1 ⟨by decide, by decide, by decide, hunbroken⟩
  · obtain ⟨_, hrefused, hcolumn⟩ := htext ['a', '\r', '\n', 'b']
    apply hrefused
    rw [hcolumn 2 rfl (by decide)]
    decide

end Pinpoint
