import Pinpoint.Proofs.Breaks

/-!
# Where the line of an offset starts and ends

The breaks that lie wholly at or before an offset are those that a pass over all breaks meets before
the first other one, so the line of the offset starts where the last of them ends. From there up to
the offset no break character stands, except when the offset is strictly inside a pair: then the
carriage return in front of it does (`hasBreakBetween_lineStart`). Hence the line and column of any
other offset lead back to it (`offsetOf_position`).
-/

namespace Pinpoint

/-- What a prefix of a list has in common, if it never comes back once it fails. -/
theorem mem_takeWhile_iff {α : Type} {p : α → Bool} {l : List α}
    (h : l.Pairwise fun a b => p b = true → p a = true) {x : α} :
    x ∈ l.takeWhile p ↔ x ∈ l ∧ p x = true := by
  induction l with
  | nil => simp
  | cons a l ih =>
    obtain ⟨ha, hl⟩ := List.pairwise_cons.1 h
    cases hp : p a with
    | true =>
      rw [List.takeWhile_cons_of_pos hp, List.mem_cons, List.mem_cons, ih hl]
      constructor
      · rintro (rfl | ⟨hx, hpx⟩)
        · exact ⟨.inl rfl, hp⟩
        · exact ⟨.inr hx, hpx⟩
      · rintro ⟨rfl | hx, hpx⟩
        · exact .inl rfl
        · exact .inr ⟨hx, hpx⟩
    | false =>
      rw [List.takeWhile_cons_of_neg (by simp [hp])]
      constructor
      · intro hx; cases hx
      · rintro ⟨hx, hpx⟩
        rcases List.mem_cons.1 hx with rfl | hx
        · simp [hp] at hpx
        · simp [ha x hx hpx] at hp

namespace Text

/-! ## The start of a line -/

def lineStart (t : Text) (offset : Int) : Nat := startAfter (t.breaksBefore offset)

@[simp] theorem position_column (t : Text) (offset : Int) :
    (t.position offset).column = offset - t.lineStart offset := rfl

/-- Every line but the first takes a character to begin. -/
theorem position_line_le (t : Text) (offset : Int) : (t.position offset).line ≤ t.length + 1 := by
  have hbefore : (t.breaksBefore offset).length ≤ t.breaks.length :=
    (List.takeWhile_sublist _).length_le
  have hbreaks := length_breaksFrom_le 0 t
  simp only [position]
  exact Int.add_le_add_right (Int.ofNat_le.2 (Nat.le_trans hbefore hbreaks)) 1

theorem position_line_pos (t : Text) (offset : Int) : 0 < (t.position offset).line := by
  simp only [position]
  omega

theorem breaks_pairwise_stop (t : Text) : t.breaks.Pairwise fun a b => a.stop ≤ b.stop := by
  refine List.Pairwise.imp_of_mem ?_ t.breaks_pairwise
  intro a b _ hb h
  have := (breakAt_of_mem_breaks hb).start_lt_stop
  omega

theorem mem_breaksBefore {t : Text} {offset : Int} {b : LineBreak} :
    b ∈ t.breaksBefore offset ↔ b ∈ t.breaks ∧ b.stop ≤ offset := by
  rw [breaksBefore, mem_takeWhile_iff, decide_eq_true_iff]
  refine t.breaks_pairwise_stop.imp ?_
  intro a b h hb
  simp only [decide_eq_true_eq] at hb ⊢
  omega

theorem startAfter_eq_zero_or (passed : List LineBreak) :
    startAfter passed = 0 ∨ ∃ b ∈ passed, b.stop = startAfter passed := by
  unfold startAfter
  split
  · next b h => exact .inr ⟨b, List.mem_of_getLast? h, rfl⟩
  · exact .inl rfl

theorem stop_le_startAfter {passed : List LineBreak}
    (h : passed.Pairwise fun a b => a.stop ≤ b.stop) {b : LineBreak} (hb : b ∈ passed) :
    b.stop ≤ startAfter passed := by
  obtain ⟨before, last, rfl⟩ : ∃ before last, passed = before ++ [last] :=
    ⟨_, _, (List.dropLast_concat_getLast (List.ne_nil_of_mem hb)).symm⟩
  simp only [startAfter, List.getLast?_append, List.getLast?_singleton, Option.some_or]
  rcases List.mem_append.1 hb with hb | hb
  · exact (List.pairwise_append.1 h).2.2 b hb last List.mem_cons_self
  · exact Nat.le_of_eq (congrArg LineBreak.stop (List.mem_singleton.1 hb))

theorem lineStart_eq_zero_or (t : Text) (offset : Int) :
    t.lineStart offset = 0 ∨
      ∃ b ∈ t.breaks, b.stop = t.lineStart offset ∧ b.stop ≤ offset := by
  rcases startAfter_eq_zero_or (t.breaksBefore offset) with h | ⟨b, hb, h⟩
  · exact .inl h
  · obtain ⟨hb, hle⟩ := mem_breaksBefore.1 hb
    exact .inr ⟨b, hb, h, hle⟩

theorem stop_le_lineStart {t : Text} {offset : Int} {b : LineBreak} (hb : b ∈ t.breaks)
    (h : b.stop ≤ offset) : b.stop ≤ t.lineStart offset :=
  stop_le_startAfter (t.breaks_pairwise_stop.sublist (List.takeWhile_sublist _))
    (mem_breaksBefore.2 ⟨hb, h⟩)

theorem lineStart_le (t : Text) (n : Nat) : t.lineStart n ≤ n := by
  rcases t.lineStart_eq_zero_or n with h | ⟨b, _, h, hle⟩ <;> omega

theorem lineStart_le_length (t : Text) (offset : Int) : t.lineStart offset ≤ t.length := by
  rcases t.lineStart_eq_zero_or offset with h | ⟨b, hb, h, _⟩
  · omega
  · rw [← h]
    exact (breakAt_of_mem_breaks hb).stop_le_length

theorem lineStart_lt_of_splitsPair {t : Text} {n : Nat} (h : t.SplitsPair n) :
    t.lineStart n < n := by
  rcases t.lineStart_eq_zero_or n with h0 | ⟨b, hb, hs, hle⟩
  · rw [h0]; exact h.1
  · have hne : b.stop ≠ n := by
      rintro rfl
      exact (breakAt_of_mem_breaks hb).not_splitsPair h
    omega

/-- On the line of an offset, a break character stands before the offset only if the offset is
inside a pair, and then right before it. -/
theorem hasBreakAt_iff_of_lineStart_le {t : Text} {m n : Nat} (h1 : t.lineStart n ≤ m)
    (h2 : m < n) : t.hasBreakAt m = true ↔ t.SplitsPair n ∧ m + 1 = n := by
  constructor
  · intro h
    obtain ⟨b, hb, hstart, hstop⟩ := exists_mem_breaks h
    -- a break that ends at or before the offset would have started its line anew
    have hn : n < b.stop := by
      apply Nat.lt_of_not_le
      intro hle
      have : b.stop ≤ t.lineStart n := stop_le_lineStart hb (by omega)
      omega
    obtain ⟨hsplit, rfl⟩ := (breakAt_of_mem_breaks hb).splitsPair (by omega) hn
    exact ⟨hsplit, by omega⟩
  · rintro ⟨h, rfl⟩
    exact h.hasBreakAt

theorem hasBreakBetween_iff {t : Text} {start stop : Int} :
    t.hasBreakBetween start stop = true ↔
      ∃ n : Nat, start ≤ n ∧ n < stop ∧ t.hasBreakAt n = true := by
  rw [hasBreakBetween, List.any_eq_true]
  constructor
  · rintro ⟨c, hc, hbreak⟩
    obtain ⟨i, hi⟩ := List.mem_iff_getElem?.1 hc
    rw [List.getElem?_drop, List.getElem?_take] at hi
    split at hi
    · exact ⟨start.toNat + i, by omega, by omega, by rwa [hasBreakAt_of_some hi]⟩
    · cases hi
  · rintro ⟨n, h1, h2, hn⟩
    obtain ⟨c, hc, hbreak⟩ : ∃ c, t[n]? = some c ∧ isBreakChar c = true := by
      simpa [hasBreakAt, Option.any_eq_true] using hn
    refine ⟨c, List.mem_iff_getElem?.2 ⟨n - start.toNat, ?_⟩, hbreak⟩
    rw [List.getElem?_drop, List.getElem?_take, if_pos (by omega)]
    rwa [show start.toNat + (n - start.toNat) = n by omega]

/-- A column that was looked up reaches back over a break character only from inside a pair. -/
theorem hasBreakBetween_lineStart (t : Text) (n : Nat) :
    t.hasBreakBetween (t.lineStart n) n = true ↔ t.SplitsPair n := by
  rw [hasBreakBetween_iff]
  constructor
  · rintro ⟨m, h1, h2, h⟩
    exact ((hasBreakAt_iff_of_lineStart_le (by omega) (by omega)).1 h).1
  · intro h
    have := lineStart_lt_of_splitsPair h
    exact ⟨n - 1, by omega, by omega, h.hasBreakAt⟩

/-! ## The end of a line -/

theorem lineEnd_eq {t : Text} {n : Nat} (h : n ≤ t.length) :
    t.lineEnd n = n + (t.drop n).findIdx isBreakChar := by
  have hlen : ((t.drop n).takeWhile (!isBreakChar ·)).length = (t.drop n).findIdx isBreakChar := by
    rw [List.takeWhile_eq_take_findIdx_not, List.length_take]
    simp only [Bool.not_not]
    exact Nat.min_eq_left List.findIdx_le_length
  rw [lineEnd, hlen, Nat.min_eq_left h]

theorem lineEnd_le_of_hasBreakAt {t : Text} {n m : Nat} (h : n ≤ m)
    (hm : t.hasBreakAt m = true) : t.lineEnd n ≤ m := by
  obtain ⟨c, hc, hbreak⟩ : ∃ c, t[m]? = some c ∧ isBreakChar c = true := by
    simpa [hasBreakAt, Option.any_eq_true] using hm
  have hlt : m < t.length := (List.getElem?_eq_some_iff.1 hc).1
  rw [lineEnd_eq (by omega)]
  apply Nat.le_of_not_lt
  intro hlt'
  have hno := List.not_of_lt_findIdx (show m - n < (t.drop n).findIdx isBreakChar by omega)
  have heq : (t.drop n)[m - n]? = some c := by
    rw [List.getElem?_drop, show n + (m - n) = m by omega, hc]
  rw [(List.getElem?_eq_some_iff.1 heq).2, hbreak] at hno
  exact absurd hno (by simp)

/-- The end of a line lies at or after every offset up to which no break character stands. -/
theorem le_lineEnd_of_forall {t : Text} {n m : Nat} (h : n ≤ m) (hm : m ≤ t.length)
    (hno : ∀ k, n ≤ k → k < m → t.hasBreakAt k = false) : m ≤ t.lineEnd n := by
  rw [lineEnd_eq (by omega)]
  apply Nat.le_of_not_lt
  intro hlt
  have hi : (t.drop n).findIdx isBreakChar < (t.drop n).length := by
    rw [List.length_drop]; omega
  have hbreak : isBreakChar (t.drop n)[(t.drop n).findIdx isBreakChar] = true :=
    List.findIdx_getElem
  have hat := hno (n + (t.drop n).findIdx isBreakChar) (by omega) (by omega)
  rw [hasBreakAt, ← List.getElem?_drop, List.getElem?_eq_getElem hi, Option.any_some, hbreak] at hat
  cases hat

/-! ## Back from a line and a column -/

theorem lineStart?_position (t : Text) (offset : Int) :
    t.lineStart? (t.position offset).line = some (t.lineStart offset) := by
  have hprefix : t.breaksBefore offset <+: t.breaks := List.takeWhile_prefix _
  have htake := List.prefix_iff_eq_take.1 hprefix
  have hlen := hprefix.length_le
  have hline : (t.position offset).line = (t.breaksBefore offset).length + 1 := rfl
  have hpassed : (t.position offset).line.toNat - 1 = (t.breaksBefore offset).length := by omega
  simp only [lineStart?, hpassed, ← htake]
  rw [if_neg]
  · rfl
  · simp only [Bool.or_eq_true, decide_eq_true_eq]
    omega

theorem offsetOf_position_eq (t : Text) (offset : Int) :
    t.offsetOf (t.position offset).line (t.position offset).column =
      if (t.lineStart offset : Int) ≤ offset ∧ offset ≤ t.lineEnd (t.lineStart offset)
      then .ok offset.toNat
      else .error (.columnOutsideLine (t.position offset).line (t.position offset).column
        (t.lineEnd (t.lineStart offset) - t.lineStart offset)) := by
  have hline : (t.position offset).line = (t.breaksBefore offset).length + 1 := rfl
  have hle := le_lineEnd (t.lineStart_le_length offset)
  simp only [offsetOf, lineStart?_position, Bool.and_eq_true, decide_eq_true_eq]
  rw [if_neg (by omega)]
  by_cases h : (t.lineStart offset : Int) ≤ offset ∧ offset ≤ t.lineEnd (t.lineStart offset)
  · rw [if_pos h, if_pos (by rw [position_column]; omega)]
    congr 1
    rw [position_column]
    omega
  · rw [if_neg h, if_neg (by rw [position_column]; omega)]

/-- The line of an offset reaches up to the offset, unless the offset is inside a pair: then the
carriage return in front of it already ends the line. -/
theorem le_lineEnd_lineStart_iff {t : Text} {n : Nat} (h : n ≤ t.length) :
    n ≤ t.lineEnd (t.lineStart n) ↔ ¬t.SplitsPair n := by
  constructor
  · intro hend hs
    have hstart := lineStart_lt_of_splitsPair hs
    have := lineEnd_le_of_hasBreakAt (Nat.le_sub_one_of_lt hstart) hs.hasBreakAt
    omega
  · intro hs
    refine le_lineEnd_of_forall (t.lineStart_le n) h fun k h1 h2 => ?_
    rw [Bool.eq_false_iff]
    exact fun hk => hs ((hasBreakAt_iff_of_lineStart_le h1 h2).1 hk).1

theorem SplitsPair.le_length {t : Text} {n : Nat} (h : t.SplitsPair n) : n ≤ t.length :=
  Nat.le_of_lt (List.getElem?_eq_some_iff.1 h.2.2).1

theorem offsetOf_position {t : Text} {n : Nat} (h : n ≤ t.length) (hs : ¬t.SplitsPair n) :
    t.offsetOf (t.position n).line (t.position n).column = .ok n := by
  have hstart := t.lineStart_le n
  have hend := (le_lineEnd_lineStart_iff h).2 hs
  rw [offsetOf_position_eq, if_pos (by omega)]
  rfl

/-- No line has a column strictly inside a pair. -/
theorem offsetOf_position_of_splitsPair {t : Text} {n : Nat} (hs : t.SplitsPair n) :
    ∃ e, t.offsetOf (t.position n).line (t.position n).column = .error e := by
  have hend := mt (le_lineEnd_lineStart_iff hs.le_length).1 (not_not_intro hs)
  rw [offsetOf_position_eq, if_neg (by omega)]
  exact ⟨_, rfl⟩

end Text

end Pinpoint
