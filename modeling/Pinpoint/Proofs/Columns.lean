import Pinpoint.Proofs.Lines

/-!
# The columns of a text

`lines` cuts a text at its breaks and counts no offsets. Each line has a column in front of every
character and one behind the last (`HasColumn`), and these are exactly the lines and columns that
belong to an offset. Only an offset outside the text or inside a pair has none that leads back to it
(`offsetOf_position_inverse`).
-/

namespace Pinpoint

namespace Text

def lines : Text → List Text
  | [] => [[]]
  | '\r' :: '\n' :: rest => [] :: lines rest
  | c :: rest => if isBreakChar c then [] :: lines rest else (lines rest).modifyHead (c :: ·)

/-- What stands on the line that starts at an offset, up to its break. -/
def lineFrom (t : Text) (start : Nat) : Text := (t.drop start).takeWhile (!isBreakChar ·)

/-- The offsets where lines start: that of the first character, and those behind breaks. -/
def lineStarts (t : Text) : List Nat := 0 :: t.breaks.map LineBreak.stop

/-- A line of a text and a column on it, in front of one of its characters or behind the last. -/
def HasColumn (t : Text) (p : LineColumn) : Prop :=
  1 ≤ p.line ∧ ∃ l, t.lines[p.line.toNat - 1]? = some l ∧ 0 ≤ p.column ∧ p.column ≤ l.length

/-- An offset of a text that is not inside a pair. -/
def HasPlace (t : Text) (offset : Int) : Prop :=
  0 ≤ offset ∧ offset ≤ t.length ∧ ¬t.SplitsPair offset.toNat

/-! ## Where lines start -/

theorem lines_eq_of_breaksFrom (before rest : Text) :
    rest.lines = (before.length :: (breaksFrom before.length rest).map LineBreak.stop).map
      (lineFrom (before ++ rest)) := by
  generalize hk : before.length = k
  fun_induction breaksFrom k rest generalizing before with
  | case1 k => subst hk; simp [lines, lineFrom]
  | case2 k rest ih =>
    have := ih (before ++ ['\r', '\n']) (by simp [hk])
    subst hk
    simp [lines, this, lineFrom, isBreakChar]
  | case3 k c rest hpair hc ih =>
    have := ih (before ++ [c]) (by simp [hk])
    subst hk
    simp [lines, hc, this, lineFrom]
  | case4 k c rest hpair hc ih =>
    have := ih (before ++ [c]) (by simp [hk])
    subst hk
    simp [lines, hc, this, lineFrom]

theorem lines_eq (t : Text) : t.lines = t.lineStarts.map t.lineFrom :=
  lines_eq_of_breaksFrom [] t

example : lines "ab\r\n\nc\u2028".toList = ["ab".toList, [], "c".toList, []] := by decide

theorem getElem?_lineStarts (t : Text) {k : Nat} (h : k ≤ t.breaks.length) :
    t.lineStarts[k]? = some (startAfter (t.breaks.take k)) := by
  cases k with
  | zero => rfl
  | succ k =>
    have hk : k < t.breaks.length := h
    rw [lineStarts, List.getElem?_cons_succ, List.getElem?_map, List.getElem?_eq_getElem hk,
      startAfter, List.getLast?_take, if_neg (by omega)]
    simp [List.getElem?_eq_getElem hk]

theorem lineStart?_eq (t : Text) {line : Int} (h : 1 ≤ line) :
    t.lineStart? line = t.lineStarts[line.toNat - 1]? := by
  have hlen : t.lineStarts.length = t.breaks.length + 1 := by simp [lineStarts]
  simp only [lineStart?, Bool.or_eq_true, decide_eq_true_eq]
  by_cases hk : t.breaks.length < line.toNat - 1
  · rw [if_pos (.inr hk), List.getElem?_eq_none (by omega)]
  · rw [if_neg (by omega), getElem?_lineStarts t (by omega)]

theorem length_lineFrom {t : Text} {s : Nat} (h : s ≤ t.length) :
    (t.lineFrom s).length = t.lineEnd s - s := by
  rw [lineEnd, Nat.min_eq_left h, lineFrom]
  omega

theorem le_length_of_lineStarts {t : Text} {k s : Nat} (h : t.lineStarts[k]? = some s) :
    s ≤ t.length := by
  rcases List.mem_cons.1 (List.mem_of_getElem? h) with rfl | hs
  · exact Nat.zero_le _
  · obtain ⟨b, hb, rfl⟩ := List.mem_map.1 hs
    exact (breakAt_of_mem_breaks hb).stop_le_length

/-! ## From a line and a column to an offset -/

theorem hasColumn_iff {t : Text} {p : LineColumn} :
    t.HasColumn p ↔ 1 ≤ p.line ∧ ∃ s, t.lineStarts[p.line.toNat - 1]? = some s ∧
      0 ≤ p.column ∧ p.column ≤ (t.lineFrom s).length := by
  simp only [HasColumn, lines_eq, List.getElem?_map, Option.map_eq_some_iff]
  constructor
  · rintro ⟨hline, _, ⟨s, hs, rfl⟩, hcol⟩
    exact ⟨hline, s, hs, hcol⟩
  · rintro ⟨hline, s, hs, hcol⟩
    exact ⟨hline, _, ⟨s, hs, rfl⟩, hcol⟩

theorem offsetOf_of_hasColumn {t : Text} {p : LineColumn} (hline : 1 ≤ p.line) {s : Nat}
    (hs : t.lineStarts[p.line.toNat - 1]? = some s) (h0 : 0 ≤ p.column)
    (hle : p.column ≤ (t.lineFrom s).length) :
    t.offsetOf p.line p.column = .ok (s + p.column.toNat) := by
  rw [length_lineFrom (le_length_of_lineStarts hs)] at hle
  simp only [offsetOf, lineStart?_eq t hline, hs, Bool.and_eq_true, decide_eq_true_eq]
  rw [if_neg (by omega), if_pos ⟨h0, hle⟩]

theorem offsetOf_of_not_hasColumn {t : Text} {p : LineColumn} (h : ¬t.HasColumn p) :
    ∃ e, t.offsetOf p.line p.column = .error e := by
  by_cases hline : p.line < 1
  · simp only [offsetOf, if_pos hline]
    exact ⟨_, rfl⟩
  · cases hs : t.lineStarts[p.line.toNat - 1]? with
    | none =>
      simp only [offsetOf, if_neg hline, lineStart?_eq t (Int.not_lt.1 hline), hs]
      exact ⟨_, rfl⟩
    | some s =>
      have hlen := length_lineFrom (le_length_of_lineStarts hs)
      have hout : ¬(0 ≤ p.column ∧ p.column ≤ (t.lineEnd s - s : Nat)) := fun hcol =>
        h (hasColumn_iff.2 ⟨by omega, s, hs, hcol.1, by omega⟩)
      simp only [offsetOf, if_neg hline, lineStart?_eq t (Int.not_lt.1 hline), hs, Bool.and_eq_true,
        decide_eq_true_eq, if_neg hout]
      exact ⟨_, rfl⟩

/-- The break that ends a line lies behind all of its columns. -/
theorem lt_stop_of_mem_drop {t : Text} {k s c : Nat} (hs : t.lineStarts[k]? = some s)
    (hc : c ≤ (t.lineFrom s).length) {b : LineBreak} (hb : b ∈ t.breaks.drop k) :
    s + c < b.stop := by
  have hmem : b ∈ t.breaks := List.mem_of_mem_drop hb
  have hat := breakAt_of_mem_breaks hmem
  have hle := le_length_of_lineStarts hs
  have hstart : s ≤ b.start := by
    cases k with
    | zero => cases hs; exact Nat.zero_le _
    | succ k =>
      rw [lineStarts, List.getElem?_cons_succ, List.getElem?_map] at hs
      obtain ⟨a, ha, rfl⟩ := Option.map_eq_some_iff.1 hs
      have hpair := t.breaks_pairwise
      rw [← List.take_append_drop (k + 1) t.breaks] at hpair
      refine (List.pairwise_append.1 hpair).2.2 a ?_ b hb
      exact List.mem_of_getElem? (by rw [List.getElem?_take, if_pos (Nat.lt_succ_self k), ha])
  have hend := lineEnd_le_of_hasBreakAt hstart hat.hasBreakAt_start
  have hlt := hat.start_lt_stop
  rw [length_lineFrom hle] at hc
  have := le_lineEnd hle
  omega

theorem stop_le_of_mem_take {t : Text} {k s : Nat} (hk : k ≤ t.breaks.length)
    (hs : t.lineStarts[k]? = some s) {b : LineBreak} (hb : b ∈ t.breaks.take k) : b.stop ≤ s := by
  rw [getElem?_lineStarts t hk] at hs
  cases hs
  exact stop_le_startAfter (t.breaks_pairwise_stop.sublist (List.take_sublist _ _)) hb

theorem position_lineStart_add {t : Text} {k s c : Nat} (hs : t.lineStarts[k]? = some s)
    (hc : c ≤ (t.lineFrom s).length) : t.position (s + c : Nat) = ⟨k + 1, c⟩ := by
  have hk : k ≤ t.breaks.length := by
    have := (List.getElem?_eq_some_iff.1 hs).1
    simp only [lineStarts, List.length_cons, List.length_map] at this
    omega
  have hpassed : t.breaksBefore (s + c : Nat) = t.breaks.take k := by
    have htake : ∀ b ∈ t.breaks.take k, decide ((b.stop : Int) ≤ (s + c : Nat)) = true := by
      intro b hb
      have := stop_le_of_mem_take hk hs hb
      simp only [decide_eq_true_eq]
      omega
    have hdrop : (t.breaks.drop k).takeWhile
        (fun b => decide ((b.stop : Int) ≤ (s + c : Nat))) = [] := by
      cases hd : t.breaks.drop k with
      | nil => rfl
      | cons b rest =>
        have := lt_stop_of_mem_drop hs hc (hd ▸ List.mem_cons_self)
        exact List.takeWhile_cons_of_neg (by simp only [decide_eq_true_eq]; omega)
    rw [breaksBefore]
    conv => lhs; rw [← List.take_append_drop k t.breaks]
    rw [List.takeWhile_append_of_pos htake, hdrop, List.append_nil]
  have hstart := getElem?_lineStarts t hk
  rw [hs] at hstart
  simp only [position, hpassed, ← Option.some.inj hstart, List.length_take, Nat.min_eq_left hk]
  congr 1
  omega

/-! ## From an offset to a line and a column -/

theorem hasPlace_iff {t : Text} {offset : Int} :
    t.HasPlace offset ↔
      (t.lineStart offset : Int) ≤ offset ∧ offset ≤ t.lineEnd (t.lineStart offset) := by
  constructor
  · rintro ⟨h0, hlen, hs⟩
    obtain ⟨n, rfl⟩ := Int.eq_ofNat_of_zero_le h0
    have hstart := t.lineStart_le n
    have hend := (le_lineEnd_lineStart_iff (show n ≤ t.length by omega)).2 hs
    omega
  · rintro ⟨hstart, hend⟩
    have hlen := t.lineEnd_le_length (t.lineStart offset)
    obtain ⟨n, rfl⟩ := Int.eq_ofNat_of_zero_le (show 0 ≤ offset by omega)
    refine ⟨by omega, by omega, ?_⟩
    rw [Int.toNat_natCast]
    exact (le_lineEnd_lineStart_iff (by omega)).1 (by omega)

/-- **An offset leads to a line and column that lead back to it, exactly if it lies in the text and
not inside a pair; a line and column lead to an offset that leads back to them, exactly if the text
has them.** All others are refused as wrong values. -/
theorem offsetOf_position_inverse (t : Text) :
    (∀ offset : Int,
      (t.HasPlace offset ∧
        t.offsetOf (t.position offset).line (t.position offset).column = .ok offset.toNat) ∨
      (¬t.HasPlace offset ∧
        ∃ e, t.offsetOf (t.position offset).line (t.position offset).column = .error e ∧
          (LocationError.noOffset e).kind = .wrongValue)) ∧
    ∀ p : LineColumn,
      (t.HasColumn p ∧ ∃ n, t.offsetOf p.line p.column = .ok n ∧ t.position n = p) ∨
      (¬t.HasColumn p ∧ ∃ e, t.offsetOf p.line p.column = .error e ∧
        (LocationError.noOffset e).kind = .wrongValue) := by
  constructor
  · intro offset
    rw [offsetOf_position_eq]
    by_cases h : t.HasPlace offset
    · exact .inl ⟨h, if_pos (hasPlace_iff.1 h)⟩
    · exact .inr ⟨h, _, if_neg (mt hasPlace_iff.2 h), rfl⟩
  · intro p
    by_cases h : t.HasColumn p
    · obtain ⟨hline, s, hs, h0, hle⟩ := hasColumn_iff.1 h
      have hback : t.position (s + p.column.toNat : Nat) = p := by
        rw [position_lineStart_add hs (by omega), LineColumn.mk.injEq]
        omega
      exact .inl ⟨h, _, offsetOf_of_hasColumn hline hs h0 hle, hback⟩
    · obtain ⟨e, he⟩ := offsetOf_of_not_hasColumn h
      exact .inr ⟨h, e, he, rfl⟩

end Text

end Pinpoint
