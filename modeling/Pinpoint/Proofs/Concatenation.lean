import Mathlib.Data.List.Induction
import Mathlib.Data.List.TakeWhile
import Pinpoint.Proofs.Lines

/-!
# Texts one behind the other

The breaks of two texts one behind the other are those of the first and, moved behind it, those of
the second, unless a carriage return at the end of the first takes along a line feed at the start of
the second (`breaksFrom_append`). So the places of the second text go on from the end of the first,
and those of the first are not touched by what is put behind it (`position_append`). -/

namespace Pinpoint

/-- The place that is reached by going on from a place: on the same line the columns add up, and
behind a break they count anew. -/
def LineColumn.advance (p q : LineColumn) : LineColumn :=
  if q.line = 1 then ⟨p.line, p.column + q.column⟩ else ⟨p.line + q.line - 1, q.column⟩

/-- A break with a number of characters put in front of it. -/
def LineBreak.shift (b : LineBreak) (n : Nat) : LineBreak := ⟨b.start + n, b.stop + n⟩

@[simp] theorem LineBreak.shift_stop (b : LineBreak) (n : Nat) : (b.shift n).stop = b.stop + n := rfl

namespace Text

/-- The end of a text and the start of another one make a pair. -/
def MakePair (s t : Text) : Prop := s.getLast? = some '\r' ∧ t.head? = some '\n'

instance (s t : Text) : Decidable (MakePair s t) := inferInstanceAs (Decidable (_ ∧ _))

/-! ## The breaks of both -/

theorem MakePair.cons {s t : Text} (h : MakePair s t) (c : Char) : MakePair (c :: s) t := by
  refine ⟨?_, h.2⟩
  rw [List.getLast?_cons, h.1, Option.getD_some]

/-- What the pass over a text asks of a character that it passes alone. -/
theorem not_pair_of_forall {c : Char} {rest : Text}
    (h : ∀ more : Text, c = '\r' → rest = '\n' :: more → False) :
    ¬(c = '\r' ∧ rest.head? = some '\n') := by
  rintro ⟨hc, hlf⟩
  obtain ⟨more, hmore⟩ := List.head?_eq_some_iff.1 hlf
  exact h more hc hmore

/-- A character that is passed alone still is with a text put behind, if it makes no pair with it.
-/
theorem not_pair_append {c : Char} {rest t : Text}
    (hrest : ∀ more : Text, c = '\r' → rest = '\n' :: more → False) (h : ¬MakePair (c :: rest) t) :
    ¬(c = '\r' ∧ (rest ++ t).head? = some '\n') := by
  cases rest with
  | nil =>
    rintro ⟨rfl, hlf⟩
    exact h ⟨rfl, hlf⟩
  | cons d rest =>
    have halone : ¬(c = '\r' ∧ (d :: rest).head? = some '\n') := not_pair_of_forall hrest
    exact halone

theorem breaksFrom_append {s t : Text} (h : ¬MakePair s t) (k : Nat) :
    breaksFrom k (s ++ t) = breaksFrom k s ++ breaksFrom (k + s.length) t := by
  fun_induction breaksFrom k s with
  | case1 k => rfl
  | case2 k rest ih =>
    have hrest : ¬MakePair rest t := fun hp => h ((hp.cons _).cons _)
    have hlen : k + ('\r' :: '\n' :: rest).length = k + 2 + rest.length := by
      simp only [List.length_cons]
      omega
    rw [hlen, List.cons_append, List.cons_append, breaksFrom, ih hrest, List.cons_append]
  | case3 k c rest hpair hc ih =>
    have hrest : ¬MakePair rest t := fun hp => h (hp.cons _)
    rw [List.cons_append, breaksFrom_cons (not_pair_append hpair h), if_pos hc, ih hrest,
      List.length_cons, Nat.add_assoc, Nat.add_comm 1, List.cons_append]
  | case4 k c rest hpair hc ih =>
    have hrest : ¬MakePair rest t := fun hp => h (hp.cons _)
    rw [List.cons_append, breaksFrom_cons (not_pair_append hpair h), if_neg hc, ih hrest,
      List.length_cons, Nat.add_assoc, Nat.add_comm 1]

theorem breaksFrom_add (k n : Nat) (t : Text) :
    breaksFrom (k + n) t = (breaksFrom k t).map (·.shift n) := by
  fun_induction breaksFrom k t with
  | case1 k => rfl
  | case2 k rest ih =>
    rw [List.map_cons, ← ih, breaksFrom, LineBreak.shift, Nat.add_right_comm]
  | case3 k c rest hpair hc ih =>
    rw [List.map_cons, ← ih, breaksFrom_cons (not_pair_of_forall hpair), if_pos hc,
      LineBreak.shift, Nat.add_right_comm]
  | case4 k c rest hpair hc ih =>
    rw [← ih, breaksFrom_cons (not_pair_of_forall hpair), if_neg hc, Nat.add_right_comm]

/-! ## The breaks in front of an offset -/

theorem lt_stop_of_mem_breaksFrom {b : LineBreak} {k : Nat} {t : Text} (h : b ∈ breaksFrom k t) :
    k < b.stop := by
  have hstart := le_start_of_mem_breaksFrom h
  have hbreak := breakAt_of_mem_breaksFrom (List.replicate k ' ')
    (by rwa [List.length_replicate])
  have := hbreak.start_lt_stop
  omega

/-- No break has passed at the offset where a text starts. -/
theorem takeWhile_breaksFrom_of_le {offset : Int} {k : Nat} (h : offset ≤ k) (t : Text) :
    (breaksFrom k t).takeWhile (fun b => b.stop ≤ offset) = [] := by
  cases hbreaks : breaksFrom k t with
  | nil => rfl
  | cons b rest =>
    have hstop := lt_stop_of_mem_breaksFrom (hbreaks ▸ List.mem_cons_self : b ∈ breaksFrom k t)
    apply List.takeWhile_cons_of_neg
    rw [decide_eq_true_eq]
    omega

/-- What is put behind a text without making a pair does not count for the offsets up to its end. -/
theorem breaksBefore_append_of_le {s t : Text} (h : ¬MakePair s t) {offset : Int}
    (hle : offset ≤ s.length) : (s ++ t).breaksBefore offset = s.breaksBefore offset := by
  have hbehind := takeWhile_breaksFrom_of_le (show offset ≤ (0 + s.length : Nat) by omega) t
  rw [breaksBefore, breaksBefore, breaks, breaksFrom_append h, List.takeWhile_append, hbehind,
    List.append_nil]
  split
  next hall => exact ((List.takeWhile_prefix _).eq_of_length hall).symm
  next => rfl

theorem breaksBefore_append_of_lt {s : Text} {offset : Int} (h : offset < s.length) (t : Text) :
    (s ++ t).breaksBefore offset = s.breaksBefore offset := by
  by_cases hpair : MakePair s t
  · -- the pair ends behind the offset, as the carriage return alone does
    obtain ⟨front, rfl⟩ := List.getLast?_eq_some_iff.1 hpair.1
    have hfront : offset ≤ front.length := by
      rw [List.length_append, List.length_singleton] at h
      omega
    have hreturn (u : Text) : ¬MakePair front ('\r' :: u) := fun hp => absurd hp.2 (by simp)
    rw [List.append_assoc, List.singleton_append, breaksBefore_append_of_le (hreturn t) hfront,
      breaksBefore_append_of_le (hreturn []) hfront]
  · exact breaksBefore_append_of_le hpair (Int.le_of_lt h)

theorem breaksBefore_length (s : Text) : s.breaksBefore s.length = s.breaks := by
  rw [breaksBefore, List.takeWhile_eq_self_iff]
  intro b hb
  have := (breakAt_of_mem_breaks hb).stop_le_length
  rw [decide_eq_true_eq]
  omega

/-- For an offset of the second text all breaks of the first one have passed. -/
theorem breaksBefore_append_add {s t : Text} (h : ¬MakePair s t) {offset : Int} (h0 : 0 ≤ offset) :
    (s ++ t).breaksBefore (s.length + offset) =
      s.breaks ++ (t.breaksBefore offset).map (·.shift s.length) := by
  have hpassed : ∀ b ∈ s.breaks, decide ((b.stop : Int) ≤ s.length + offset) = true := by
    intro b hb
    have := (breakAt_of_mem_breaks hb).stop_le_length
    rw [decide_eq_true_eq]
    omega
  have hshift (b : LineBreak) : decide (((b.shift s.length).stop : Int) ≤ s.length + offset) =
      decide ((b.stop : Int) ≤ offset) := by
    rw [decide_eq_decide, LineBreak.shift_stop]
    omega
  have hbreaks : (s ++ t).breaks = s.breaks ++ t.breaks.map (·.shift s.length) := by
    rw [breaks, breaksFrom_append h, breaksFrom_add]
    rfl
  rw [breaksBefore, hbreaks, List.takeWhile_append_of_pos hpassed, List.takeWhile_map]
  simp only [Function.comp_def, hshift]
  rfl

/-! ## Places -/

theorem startAfter_append_map_shift (passed more : List LineBreak) (n : Nat) :
    startAfter (passed ++ more.map (·.shift n)) =
      if more = [] then startAfter passed else startAfter more + n := by
  cases more using List.reverseRecOn with
  | nil => rw [List.map_nil, List.append_nil, if_pos rfl]
  | append_singleton more b =>
    simp [startAfter]

/-- **Places go on from the end of a text in the text behind it,** unless the two make a pair. The
offsets in front of that end keep their places, whatever is put behind. -/
theorem position_append (s t : Text) :
    (¬MakePair s t → ∀ offset : Int, 0 ≤ offset →
      (s ++ t).position (s.length + offset) = (s.position s.length).advance (t.position offset)) ∧
    ∀ offset : Int, offset < s.length → (s ++ t).position offset = s.position offset := by
  constructor
  · intro h offset h0
    simp only [position, breaksBefore_append_add h h0, breaksBefore_length,
      startAfter_append_map_shift, LineColumn.advance, List.length_append, List.length_map]
    -- whether a break of the second text has passed decides what the column is counted from
    by_cases hsame : t.breaksBefore offset = []
    · have hnone : startAfter [] = 0 := rfl
      rw [hsame, if_pos rfl, List.length_nil, if_pos (by omega), hnone, LineColumn.mk.injEq]
      omega
    · have hline : 0 < (t.breaksBefore offset).length := List.length_pos_iff.2 hsame
      rw [if_neg hsame, if_neg (by omega), LineColumn.mk.injEq]
      omega
  · intro offset h
    rw [position, position, breaksBefore_append_of_lt h]

/-- Three lines with two more behind them, and with a line feed behind them that makes a pair. -/
theorem position_append_makes_pair :
    let s : Text := ['a', '\r', '\n', 'b', '\r']
    let t : Text := ['c', '\u2028', 'd', 'e']
    ¬MakePair s t ∧ (0 : Int) ≤ 3 ∧
      (s ++ t).position (s.length + 3) = (s.position s.length).advance (t.position 3) ∧
      (s.position s.length).advance (t.position 3) = ⟨4, 1⟩ ∧
      MakePair s ['\n'] ∧ (4 : Int) < s.length ∧
      (s ++ ['\n']).position 4 = s.position 4 := by
  intro s t
  have hno : ¬MakePair s t := by decide
  have h0 : (0 : Int) ≤ 3 := by decide
  have hlt : (4 : Int) < s.length := by decide
  exact ⟨hno, h0, (position_append s t).1 hno 3 h0, by decide, by decide, hlt,
    (position_append s ['\n']).2 4 hlt⟩

end Text

end Pinpoint
