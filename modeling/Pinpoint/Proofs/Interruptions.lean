import Pinpoint.Proofs.Sequences

/-!
# What stripping leaves

Stripping goes over a text once and takes out the sequences that stand in it. What was in front of a
sequence and what was behind it become neighbours then, and may turn out to be the halves of another
sequence that this one interrupted. It takes such an interruption, and nothing else, for what is
left to hold a sequence (`stripStyles_settled_iff`). -/

namespace Pinpoint

/-- The second text is the first one with style sequences put between its characters, any number of
them at each place. -/
inductive Interleaves : Text → Text → Prop where
  | last (c : Char) : Interleaves [c] [c]
  | cons (c : Char) {between s u : Text} (sequences : Sequences between) (rest : Interleaves s u) :
      Interleaves (c :: s) (c :: (between ++ u))

/-- Whether a style sequence stands somewhere in a text that others interrupt, one at least. -/
def Text.HasInterrupted (t : Text) : Prop :=
  ∃ s u, IsSequence s ∧ Interleaves s u ∧ u ≠ s ∧ u <:+: t

/-! ## Interrupted sequences -/

theorem IsSequence.escape_not_mem_tail {s : Text} (h : IsSequence s) : escape ∉ s.tail := by
  intro hc
  have := h.continues hc
  exact absurd this (by decide)

/-- A sequence goes on with none of the characters behind it. -/
theorem IsSequence.eq_nil_of_append {s rest : Text} (h : IsSequence s)
    (happend : IsSequence (s ++ rest)) : rest = [] := by
  have hshort := sequenceLength?_append h rest
  have hlong := sequenceLength?_append happend []
  rw [List.append_nil, hshort, Option.some.injEq, List.length_append] at hlong
  exact List.length_eq_zero_iff.1 (by omega)

/-- What is interrupted breaks off in front of an escape character. -/
theorem Interleaves.eq_or_breaksOff {s u : Text} (h : Interleaves s u) :
    u = s ∨ ∃ first more rest, first ≠ [] ∧ more ≠ [] ∧ s = first ++ more ∧
      u = first ++ escape :: rest := by
  induction h with
  | last c => exact .inl rfl
  | @cons c between s u hbetween h ih =>
    cases hbetween with
    | nil =>
      rcases ih with rfl | ⟨first, more, rest, -, hmore, rfl, rfl⟩
      · exact .inl rfl
      · exact .inr ⟨c :: first, more, rest, List.cons_ne_nil _ _, hmore, rfl, rfl⟩
    | @cons q qs hq _ =>
      have hs : s ≠ [] := by cases h <;> exact List.cons_ne_nil _ _
      obtain ⟨params, -, rfl⟩ := hq
      exact .inr ⟨[c], s, _, List.cons_ne_nil _ _, hs, rfl, rfl⟩

/-- An interrupted sequence begins none that stands there as a whole. -/
theorem sequenceLength?_interrupted {s u : Text} (hs : IsSequence s) (h : Interleaves s u)
    (hne : u ≠ s) (rest : Text) : sequenceLength? (u ++ rest) = none := by
  rcases h.eq_or_breaksOff with heq | ⟨first, more, tail, hfirst, hmore, rfl, rfl⟩
  · exact absurd heq hne
  cases hn : sequenceLength? (first ++ escape :: tail ++ rest) with
  | none => rfl
  | some n =>
    obtain ⟨q, others, hq, -, heq⟩ := exists_sequence_of_sequenceLength? hn
    rw [List.append_assoc] at heq
    rcases List.append_eq_append_iff.1 heq with ⟨d, rfl, hd⟩ | ⟨d, rfl, -⟩
    · -- the sequence at the front reaches the break, and so ends there or goes on with an escape
      cases d with
      | nil =>
        rw [List.append_nil] at hq
        exact absurd (hq.eq_nil_of_append hs) hmore
      | cons c d =>
        obtain rfl : escape = c := (List.cons.inj hd).1
        refine absurd ?_ hq.escape_not_mem_tail
        rw [List.tail_append_of_ne_nil hfirst]
        exact List.mem_append_right _ List.mem_cons_self
    · rw [List.append_assoc] at hs
      have := hq.eq_nil_of_append hs
      exact absurd (List.append_eq_nil_iff.1 this).2 hmore

/-! ## From the text to what is left -/

theorem Interleaves.stripStyles_append {s u : Text} (h : Interleaves s u) (hs : escape ∉ s)
    (rest : Text) : stripStyles (u ++ rest) = s ++ stripStyles rest := by
  induction h with
  | last c => exact stripStyles_append_of_not_mem hs rest
  | cons c hbetween _ ih =>
    rw [List.mem_cons, not_or] at hs
    rw [List.cons_append, stripStyles_cons (sequenceLength?_cons_eq_none (Ne.symm hs.1) _),
      List.append_assoc, hbetween.stripStyles_append, ih hs.2, List.cons_append]

/-- Stripping closes the gaps of an interrupted sequence. -/
theorem stripStyles_interrupted {s u : Text} (hs : IsSequence s) (h : Interleaves s u)
    (hne : u ≠ s) (rest : Text) : stripStyles (u ++ rest) = s ++ stripStyles rest := by
  have hnone := sequenceLength?_interrupted hs h hne rest
  cases h with
  | last c => exact absurd rfl hne
  | cons c hbetween h =>
    rw [List.cons_append] at hnone ⊢
    rw [stripStyles_cons hnone, List.append_assoc, hbetween.stripStyles_append,
      h.stripStyles_append hs.escape_not_mem_tail, List.cons_append]

theorem hasSequence_stripStyles {t : Text} (h : t.HasInterrupted) :
    (stripStyles t).HasSequence := by
  obtain ⟨s, u, hs, hu, hne, front, back, rfl⟩ := h
  have hapart : (u ++ back).StandsApart := by
    intro c hc
    have hhead : u.head? = some escape := by
      rw [← hs.head?]
      cases hu <;> rfl
    rw [List.head?_append, hhead, Option.some_or] at hc
    rw [← Option.some.inj hc]
    decide
  refine ⟨s, hs, stripStyles front, stripStyles back, ?_⟩
  rw [List.append_assoc front u back, stripStyles_append front hapart,
    stripStyles_interrupted hs hu hne, List.append_assoc]

/-! ## From what is left to the text -/

/-- The characters at the front of what is left come from the text, where only sequences stand in
front of them and between them. -/
theorem exists_interleaves {t s b : Text} (hs : s ≠ []) (h : stripStyles t = s ++ b) :
    ∃ front u rest, Sequences front ∧ Interleaves s u ∧ t = front ++ (u ++ rest) ∧
      stripStyles rest = b := by
  induction t using Text.passInduction generalizing s with
  | nil => exact absurd (List.append_eq_nil_iff.1 h.symm).1 hs
  | sequence q t hq ih =>
    rw [stripStyles_sequence_append hq] at h
    obtain ⟨front, u, rest, hfront, hu, rfl, hrest⟩ := ih hs h
    exact ⟨q ++ front, u, rest, .cons hq hfront, hu, (List.append_assoc q front _).symm, hrest⟩
  | char c t hc ih =>
    rw [stripStyles_cons hc] at h
    cases s with
    | nil => exact absurd rfl hs
    | cons d s =>
      obtain ⟨rfl, htail⟩ := List.cons.inj h
      by_cases hnil : s = []
      · subst hnil
        exact ⟨[], [c], t, .nil, .last c, rfl, htail⟩
      · obtain ⟨front, u, rest, hfront, hu, rfl, hrest⟩ := ih hnil htail
        refine ⟨[], c :: (front ++ u), rest, .nil, .cons c hfront hu, ?_, hrest⟩
        rw [List.nil_append, List.cons_append, List.append_assoc]

theorem exists_suffix_of_stripStyles {t a b : Text} (h : stripStyles t = a ++ b) :
    ∃ rest, rest <:+ t ∧ stripStyles rest = b := by
  by_cases ha : a = []
  · subst ha
    exact ⟨t, List.suffix_rfl, h⟩
  · obtain ⟨front, u, rest, -, -, rfl, hrest⟩ := exists_interleaves ha h
    exact ⟨rest, ⟨front ++ u, List.append_assoc front u rest⟩, hrest⟩

theorem hasInterrupted_of_stripStyles {t : Text} (h : (stripStyles t).HasSequence) :
    t.HasInterrupted := by
  obtain ⟨s, hs, a, b, hinfix⟩ := h
  rw [List.append_assoc] at hinfix
  obtain ⟨t', hsuffix, hstrip⟩ := exists_suffix_of_stripStyles hinfix.symm
  obtain ⟨front, u, rest, hfront, hu, rfl, hrest⟩ := exists_interleaves hs.ne_nil hstrip
  refine ⟨s, u, hs, hu, ?_, List.IsInfix.trans ⟨front, rest, ?_⟩ hsuffix.isInfix⟩
  · -- uninterrupted, the sequence would have been taken out
    rintro rfl
    rw [hfront.stripStyles_append, stripStyles_sequence_append hs, hrest,
      List.self_eq_append_left] at hstrip
    exact hs.ne_nil hstrip
  · exact List.append_assoc front u rest

/-- **What stripping leaves holds a sequence exactly if the text holds one that others interrupt.**
In all other texts there is nothing left to strip, and stripping again changes nothing. -/
theorem stripStyles_settled_iff (t : Text) :
    (¬(stripStyles t).HasSequence ↔ ¬t.HasInterrupted) ∧
      (stripStyles (stripStyles t) = stripStyles t ↔ ¬t.HasInterrupted) := by
  have hleft : (stripStyles t).HasSequence ↔ t.HasInterrupted :=
    ⟨hasInterrupted_of_stripStyles, hasSequence_stripStyles⟩
  rw [stripStyles_eq_self_iff, hleft]
  exact ⟨Iff.rfl, Iff.rfl⟩

/-- Two halves of a sequence around a whole one: the second pass takes out what the first one made.
-/
theorem stripStyles_not_settled :
    ¬∀ t : Text, ¬(stripStyles t).HasSequence ∧ stripStyles (stripStyles t) = stripStyles t := by
  intro h
  have htwice := (h "\x1b[3\x1b[1m1mx".toList).2
  exact absurd htwice (by decide)

end Pinpoint
