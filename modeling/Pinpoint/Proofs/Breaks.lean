import Pinpoint.Line.Position
import Pinpoint.Location.Resolve

/-!
# Where the breaks of a text lie

`breaks` finds the breaks in one pass over the characters. Seen from the outside, each of them is a
break by the characters at its place (`breakAt_of_mem_breaks`), they follow each other from left to
right (`breaks_pairwise`), and none of the break characters is left out (`exists_mem_breaks`).
-/

namespace Pinpoint

namespace Text

def hasBreakAt (t : Text) (n : Nat) : Bool := t[n]?.any isBreakChar

/-- An offset strictly inside a break of two characters. -/
def SplitsPair (t : Text) (n : Nat) : Prop :=
  0 < n ∧ t[n - 1]? = some '\r' ∧ t[n]? = some '\n'

instance (t : Text) (n : Nat) : Decidable (t.SplitsPair n) :=
  inferInstanceAs (Decidable (_ ∧ _ ∧ _))

/-- A break by the characters at its place: a carriage return with a line feed behind it, or any
other break character alone. -/
inductive BreakAt (t : Text) : LineBreak → Prop where
  | pair {n : Nat} : t[n]? = some '\r' → t[n + 1]? = some '\n' → BreakAt t ⟨n, n + 2⟩
  | single {n : Nat} : t.hasBreakAt n = true →
      ¬(t[n]? = some '\r' ∧ t[n + 1]? = some '\n') → BreakAt t ⟨n, n + 1⟩

theorem hasBreakAt_of_some {t : Text} {n : Nat} {c : Char} (h : t[n]? = some c) :
    t.hasBreakAt n = isBreakChar c := by
  simp [hasBreakAt, h]

theorem SplitsPair.hasBreakAt {t : Text} {n : Nat} (h : t.SplitsPair n) :
    t.hasBreakAt (n - 1) = true := by
  rw [hasBreakAt_of_some h.2.1]
  rfl

/-! ## One pass over the characters -/

/-- A character that does not begin a pair is passed alone. -/
theorem breaksFrom_cons {c : Char} {rest : Text} (h : ¬(c = '\r' ∧ rest.head? = some '\n'))
    (k : Nat) : breaksFrom k (c :: rest) =
      if isBreakChar c then ⟨k, k + 1⟩ :: breaksFrom (k + 1) rest
      else breaksFrom (k + 1) rest := by
  apply breaksFrom.eq_3
  rintro more rfl rfl
  exact h ⟨rfl, rfl⟩

theorem breakAt_of_mem_breaksFrom {b : LineBreak} {t : Text} (before : Text)
    (h : b ∈ breaksFrom before.length t) : BreakAt (before ++ t) b := by
  generalize hk : before.length = k at h
  -- whatever is passed moves from the rest to `before`, so that places keep counting from the start
  fun_induction breaksFrom k t generalizing before with
  | case1 => simp at h
  | case2 k rest ih =>
    rcases List.mem_cons.1 h with rfl | h
    · subst hk
      exact .pair (by simp) (by simp)
    · have := ih (before ++ ['\r', '\n']) (by simp [hk]) h
      simpa using this
  | case3 k c rest hpair hc ih =>
    rcases List.mem_cons.1 h with rfl | h
    · subst hk
      refine .single (by simp [hasBreakAt, hc]) ?_
      -- a carriage return with a line feed behind it is the case before
      rintro ⟨h1, h2⟩
      cases rest with
      | nil => simp at h2
      | cons d rest => exact hpair rest (by simpa using h1) (by simpa using h2)
    · have := ih (before ++ [c]) (by simp [hk]) h
      simpa using this
  | case4 k c rest hpair hc ih =>
    have := ih (before ++ [c]) (by simp [hk]) h
    simpa using this

theorem le_start_of_mem_breaksFrom {b : LineBreak} {k : Nat} {t : Text}
    (h : b ∈ breaksFrom k t) : k ≤ b.start := by
  fun_induction breaksFrom k t with
  | case1 => simp at h
  | case2 k rest ih =>
    rcases List.mem_cons.1 h with rfl | h
    · exact Nat.le_refl _
    · have := ih h; omega
  | case3 k c rest _ _ ih =>
    rcases List.mem_cons.1 h with rfl | h
    · exact Nat.le_refl _
    · have := ih h; omega
  | case4 k c rest _ _ ih => have := ih h; omega

theorem breaksFrom_pairwise (k : Nat) (t : Text) :
    (breaksFrom k t).Pairwise fun a b => a.stop ≤ b.start := by
  fun_induction breaksFrom k t with
  | case1 => exact .nil
  | case2 k rest ih => exact .cons (fun b hb => le_start_of_mem_breaksFrom hb) ih
  | case3 k c rest _ _ ih => exact .cons (fun b hb => le_start_of_mem_breaksFrom hb) ih
  | case4 k c rest _ _ ih => exact ih

theorem exists_mem_breaksFrom {k : Nat} {t : Text} {n : Nat} (h : t.hasBreakAt n = true) :
    ∃ b ∈ breaksFrom k t, b.start ≤ k + n ∧ k + n < b.stop := by
  fun_induction breaksFrom k t generalizing n with
  | case1 => simp [hasBreakAt] at h
  | case2 k rest ih =>
    match n with
    | 0 => exact ⟨_, List.mem_cons_self, by simp, by simp⟩
    | 1 => exact ⟨_, List.mem_cons_self, by simp, by simp⟩
    | n + 2 =>
      obtain ⟨b, hb, h1, h2⟩ := ih (n := n) (by simpa [hasBreakAt] using h)
      exact ⟨b, List.mem_cons_of_mem _ hb, by omega, by omega⟩
  | case3 k c rest _ hc ih =>
    match n with
    | 0 => exact ⟨_, List.mem_cons_self, by simp, by simp⟩
    | n + 1 =>
      obtain ⟨b, hb, h1, h2⟩ := ih (n := n) (by simpa [hasBreakAt] using h)
      exact ⟨b, List.mem_cons_of_mem _ hb, by omega, by omega⟩
  | case4 k c rest _ hc ih =>
    match n with
    | 0 => exact absurd h (by simp [hasBreakAt, hc])
    | n + 1 =>
      obtain ⟨b, hb, h1, h2⟩ := ih (n := n) (by simpa [hasBreakAt] using h)
      exact ⟨b, hb, by omega, by omega⟩

theorem length_breaksFrom_le (k : Nat) (t : Text) : (breaksFrom k t).length ≤ t.length := by
  fun_induction breaksFrom k t with
  | case1 => exact Nat.le_refl _
  | case2 k rest ih =>
    simp only [List.length_cons]
    omega
  | case3 k c rest _ _ ih => exact Nat.succ_le_succ ih
  | case4 k c rest _ _ ih => exact Nat.le_succ_of_le ih

/-! ## The breaks of a whole text -/

theorem breakAt_of_mem_breaks {t : Text} {b : LineBreak} (h : b ∈ t.breaks) : t.BreakAt b :=
  breakAt_of_mem_breaksFrom [] h

theorem breaks_pairwise (t : Text) : t.breaks.Pairwise fun a b => a.stop ≤ b.start :=
  breaksFrom_pairwise 0 t

/-- Every break character belongs to a break. -/
theorem exists_mem_breaks {t : Text} {n : Nat} (h : t.hasBreakAt n = true) :
    ∃ b ∈ t.breaks, b.start ≤ n ∧ n < b.stop := by
  simpa [breaks] using exists_mem_breaksFrom (k := 0) h

theorem BreakAt.start_lt_stop {t : Text} {b : LineBreak} (h : t.BreakAt b) : b.start < b.stop := by
  cases h <;> simp

theorem BreakAt.hasBreakAt_start {t : Text} {b : LineBreak} (h : t.BreakAt b) :
    t.hasBreakAt b.start = true := by
  cases h with
  | pair hcr _ => exact hasBreakAt_of_some hcr
  | single hn => exact hn

theorem lt_length_of_hasBreakAt {t : Text} {n : Nat} (h : t.hasBreakAt n = true) :
    n < t.length := by
  apply Nat.lt_of_not_le
  intro hle
  rw [hasBreakAt, List.getElem?_eq_none hle] at h
  cases h

theorem BreakAt.stop_le_length {t : Text} {b : LineBreak} (h : t.BreakAt b) :
    b.stop ≤ t.length := by
  cases h with
  | pair _ hlf => exact (List.getElem?_eq_some_iff.1 hlf).1
  | single hn => exact lt_length_of_hasBreakAt hn

theorem BreakAt.not_splitsPair {t : Text} {b : LineBreak} (h : t.BreakAt b) :
    ¬t.SplitsPair b.stop := by
  rintro ⟨_, hcr, hlf⟩
  cases h with
  | pair _ h2 => simp [h2] at hcr
  | single _ hn => exact hn ⟨by simpa using hcr, hlf⟩

/-- A break that leaves an offset strictly inside it is the pair around the offset. -/
theorem BreakAt.splitsPair {t : Text} {b : LineBreak} (h : t.BreakAt b) {n : Nat}
    (h1 : b.start < n) (h2 : n < b.stop) : t.SplitsPair n ∧ n = b.start + 1 := by
  cases h with
  | @pair m hcr hlf =>
    simp only at h1 h2
    obtain rfl : n = m + 1 := by omega
    exact ⟨⟨by omega, hcr, hlf⟩, rfl⟩
  | single => simp only at h1 h2; omega

end Text

end Pinpoint
