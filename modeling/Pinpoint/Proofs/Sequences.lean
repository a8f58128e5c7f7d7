import Pinpoint.Style.Basic

/-!
# What stripping takes out of a text

Stripping goes over a text once, drops every style sequence that it meets and keeps every other
character (`passInduction`). A sequence that a text merely begins can only be completed by what a
sequence goes on with, so stripping falls apart where a text stands apart from what is in front of
it (`stripStyles_append`). Sequences that are put around a text leave no trace, whatever unfinished
sequences the text itself begins or ends with (`Wraps.stripStyles_append`).
-/

namespace Pinpoint

def IsSequence (t : Text) : Prop :=
  ∃ params : Text,
    (∀ c ∈ params, isStyleParameter c = true) ∧ t = escape :: '[' :: (params ++ ['m'])

def Text.HasSequence (t : Text) : Prop := ∃ s, IsSequence s ∧ s <:+: t

/-- A character that may follow the first one of a style sequence. -/
def continuesSequence (c : Char) : Bool := c == '[' || isStyleParameter c || c == 'm'

/-- A text that cannot complete a style sequence begun in front of it. -/
def Text.StandsApart (t : Text) : Prop := ∀ c, t.head? = some c → continuesSequence c = false

/-! ## Sequences at the front of a text -/

theorem IsSequence.ne_nil {s : Text} (h : IsSequence s) : s ≠ [] := by
  obtain ⟨params, _, rfl⟩ := h
  exact List.cons_ne_nil _ _

theorem IsSequence.head? {s : Text} (h : IsSequence s) : s.head? = some escape := by
  obtain ⟨params, _, rfl⟩ := h
  rfl

theorem IsSequence.continues {s : Text} (h : IsSequence s) {c : Char} (hc : c ∈ s.tail) :
    continuesSequence c = true := by
  obtain ⟨params, hparams, rfl⟩ := h
  simp only [List.tail_cons, List.mem_cons, List.mem_append, List.not_mem_nil, or_false] at hc
  rcases hc with rfl | hc | rfl
  · decide
  · simp [continuesSequence, hparams c hc]
  · decide

theorem sequenceLength?_append {s : Text} (h : IsSequence s) (rest : Text) :
    sequenceLength? (s ++ rest) = some s.length := by
  obtain ⟨params, hparams, rfl⟩ := h
  have hstop : isStyleParameter 'm' = false := by decide
  have hdrop : (params ++ 'm' :: rest).dropWhile isStyleParameter = 'm' :: rest := by
    rw [List.dropWhile_append_of_pos hparams, List.dropWhile_cons_of_neg (by simp [hstop])]
  have htake : (params ++ 'm' :: rest).takeWhile isStyleParameter = params := by
    rw [List.takeWhile_append_of_pos hparams, List.takeWhile_cons_of_neg (by simp [hstop]),
      List.append_nil]
  simp [sequenceLength?, hdrop, htake]

theorem exists_sequence_of_sequenceLength? {t : Text} {n : Nat} (h : sequenceLength? t = some n) :
    ∃ s rest, IsSequence s ∧ s.length = n ∧ t = s ++ rest := by
  unfold sequenceLength? at h
  split at h
  · next c rest =>
    split at h
    · next hc =>
      split at h
      · next more hdrop =>
        have hsplit := List.takeWhile_append_dropWhile (p := isStyleParameter) (l := rest)
        rw [hdrop] at hsplit
        refine ⟨escape :: '[' :: (rest.takeWhile isStyleParameter ++ ['m']), more,
          ⟨_, List.all_eq_true.1 List.all_takeWhile, rfl⟩, ?_, ?_⟩
        · simpa using Option.some.inj h
        · conv => lhs; rw [← hsplit, beq_iff_eq.1 hc]
          simp
      · cases h
    · cases h
  · cases h

/-- A text that begins no sequence still begins none when something that stands apart follows it. -/
theorem sequenceLength?_append_eq_none {a b : Text} (ha : a ≠ []) (h : sequenceLength? a = none)
    (hb : b.StandsApart) : sequenceLength? (a ++ b) = none := by
  cases hn : sequenceLength? (a ++ b) with
  | none => rfl
  | some n =>
    obtain ⟨s, rest, hs, _, heq⟩ := exists_sequence_of_sequenceLength? hn
    rcases List.append_eq_append_iff.1 heq with ⟨d, rfl, rfl⟩ | ⟨d, rfl, _⟩
    · -- the sequence reaches into what follows, so that goes on with a character of a sequence
      cases d with
      | nil =>
        rw [List.append_nil] at hs
        have := sequenceLength?_append hs []
        rw [List.append_nil, h] at this
        cases this
      | cons c d =>
        have hmem : c ∈ (a ++ c :: d).tail := by
          rw [List.tail_append_of_ne_nil ha]
          exact List.mem_append_right _ List.mem_cons_self
        have := hb c rfl
        rw [hs.continues hmem] at this
        cases this
    · rw [sequenceLength?_append hs] at h
      cases h

theorem sequenceLength?_cons_eq_none {c : Char} (hc : c ≠ escape) (t : Text) :
    sequenceLength? (c :: t) = none := by
  cases hn : sequenceLength? (c :: t) with
  | none => rfl
  | some n =>
    obtain ⟨s, rest, hs, _, heq⟩ := exists_sequence_of_sequenceLength? hn
    have hhead := congrArg List.head? heq
    rw [List.head?_append, hs.head?, List.head?_cons] at hhead
    exact absurd (Option.some.inj hhead) hc

/-! ## One pass -/

theorem stripAfter_eq_drop (n : Nat) (t : Text) : stripAfter n t = stripStyles (t.drop n) := by
  induction t generalizing n with
  | nil => cases n <;> simp [stripAfter, stripStyles]
  | cons c t ih =>
    cases n with
    | zero => rfl
    | succ n => rw [stripAfter, ih, List.drop_succ_cons]

@[simp] theorem stripStyles_nil : stripStyles [] = [] := rfl

theorem stripStyles_sequence_append {s : Text} (h : IsSequence s) (rest : Text) :
    stripStyles (s ++ rest) = stripStyles rest := by
  have hlen := sequenceLength?_append h rest
  cases s with
  | nil => exact absurd rfl h.ne_nil
  | cons c s =>
    rw [List.cons_append] at hlen ⊢
    simp only [stripStyles, stripAfter, hlen, List.length_cons, Nat.add_one_sub_one]
    rw [stripAfter_eq_drop, List.drop_left]
    rfl

theorem stripStyles_cons {c : Char} {t : Text} (h : sequenceLength? (c :: t) = none) :
    stripStyles (c :: t) = c :: stripStyles t := by
  simp [stripStyles, stripAfter, h]

/-- Goes over a text as stripping does: a sequence is taken at once, anything else by character. -/
@[elab_as_elim]
theorem Text.passInduction {motive : Text → Prop} (nil : motive [])
    (sequence : ∀ s rest, IsSequence s → motive rest → motive (s ++ rest))
    (char : ∀ c rest, sequenceLength? (c :: rest) = none → motive rest → motive (c :: rest))
    (t : Text) : motive t := by
  induction hlen : t.length using Nat.strongRecOn generalizing t with
  | ind len ih =>
    subst hlen
    cases t with
    | nil => exact nil
    | cons c t =>
      cases hn : sequenceLength? (c :: t) with
      | none => exact char c t hn (ih _ (Nat.lt_succ_self _) t rfl)
      | some n =>
        obtain ⟨s, rest, hs, _, heq⟩ := exists_sequence_of_sequenceLength? hn
        have hpos := List.length_pos_iff.2 hs.ne_nil
        have hlt : rest.length < (c :: t).length := by
          rw [heq, List.length_append]
          omega
        rw [heq]
        exact sequence s rest hs (ih _ hlt rest rfl)

/-- Where a text stands apart from what is in front of it, both are stripped by themselves. -/
theorem stripStyles_append (a : Text) {b : Text} (hb : b.StandsApart) :
    stripStyles (a ++ b) = stripStyles a ++ stripStyles b := by
  induction a using Text.passInduction with
  | nil => rfl
  | sequence s rest hs ih =>
    rw [List.append_assoc, stripStyles_sequence_append hs, stripStyles_sequence_append hs, ih]
  | char c rest h ih =>
    have h' := sequenceLength?_append_eq_none (List.cons_ne_nil c rest) h hb
    rw [List.cons_append] at h' ⊢
    rw [stripStyles_cons h', stripStyles_cons h, ih, List.cons_append]

/-- What holds no escape character stays, whatever follows it. -/
theorem stripStyles_append_of_not_mem {a : Text} (ha : escape ∉ a) (b : Text) :
    stripStyles (a ++ b) = a ++ stripStyles b := by
  induction a with
  | nil => rfl
  | cons c a ih =>
    rw [List.mem_cons, not_or] at ha
    rw [List.cons_append, stripStyles_cons (sequenceLength?_cons_eq_none (Ne.symm ha.1) _),
      ih ha.2, List.cons_append]

theorem stripStyles_of_not_mem {t : Text} (h : escape ∉ t) : stripStyles t = t := by
  simpa using stripStyles_append_of_not_mem h []

theorem length_stripStyles_le (t : Text) : (stripStyles t).length ≤ t.length := by
  induction t using Text.passInduction with
  | nil => exact Nat.le_refl 0
  | sequence s rest hs ih =>
    rw [stripStyles_sequence_append hs, List.length_append]
    omega
  | char c rest hc ih =>
    rw [stripStyles_cons hc, List.length_cons, List.length_cons]
    omega

/-- Stripping leaves exactly those texts as they are that hold no style sequence. -/
theorem stripStyles_eq_self_iff {t : Text} : stripStyles t = t ↔ ¬t.HasSequence := by
  induction t using Text.passInduction with
  | nil => exact iff_of_true rfl fun ⟨s, hs, h⟩ => hs.ne_nil (List.infix_nil.1 h)
  | sequence s rest hs _ =>
    refine iff_of_false (fun h => ?_) (not_not_intro ⟨s, hs, (List.prefix_append s rest).isInfix⟩)
    have hlen := congrArg List.length h
    have hle := length_stripStyles_le rest
    have hpos := List.length_pos_iff.2 hs.ne_nil
    rw [stripStyles_sequence_append hs, List.length_append] at hlen
    omega
  | char c rest hc ih =>
    rw [stripStyles_cons hc, List.cons_inj_right, ih]
    apply not_congr
    constructor
    · rintro ⟨s, hs, h⟩
      exact ⟨s, hs, h.trans (List.suffix_cons c rest).isInfix⟩
    · rintro ⟨s, hs, h⟩
      rcases List.infix_cons_iff.1 h with ⟨more, heq⟩ | h
      · rw [← heq, sequenceLength?_append hs] at hc
        cases hc
      · exact ⟨s, hs, h⟩

instance (t : Text) : Decidable t.HasSequence :=
  decidable_of_iff (stripStyles t ≠ t) ((not_congr stripStyles_eq_self_iff).trans Classical.not_not)

theorem stripStyles_of_not_hasSequence {t : Text} (h : ¬t.HasSequence) : stripStyles t = t :=
  stripStyles_eq_self_iff.2 h

/-! ## Sequences around a text -/

/-- A text of nothing but style sequences. -/
inductive Sequences : Text → Prop where
  | nil : Sequences []
  | cons {s t : Text} : IsSequence s → Sequences t → Sequences (s ++ t)

theorem Sequences.stripStyles_append {s : Text} (h : Sequences s) (rest : Text) :
    stripStyles (s ++ rest) = stripStyles rest := by
  induction h with
  | nil => rfl
  | cons hs _ ih => rw [List.append_assoc, stripStyles_sequence_append hs, ih]

theorem Sequences.standsApart {s : Text} (h : Sequences s) {rest : Text} (hr : rest.StandsApart) :
    (s ++ rest).StandsApart := by
  cases h with
  | nil => exact hr
  | cons hs _ =>
    intro c hc
    rw [List.append_assoc, List.head?_append, hs.head?, Option.some_or] at hc
    rw [← Option.some.inj hc]
    decide

/-- A text with nothing but style sequences put around another one. -/
def Wraps (u t : Text) : Prop :=
  ∃ opening closing, Sequences opening ∧ Sequences closing ∧ u = opening ++ t ++ closing

theorem Wraps.refl (t : Text) : Wraps t t := ⟨[], [], .nil, .nil, by simp⟩

theorem Wraps.standsApart {u t : Text} (h : Wraps u t) (hne : t ≠ []) (ht : t.StandsApart)
    (rest : Text) : (u ++ rest).StandsApart := by
  obtain ⟨opening, closing, hopening, _, rfl⟩ := h
  cases t with
  | nil => exact absurd rfl hne
  | cons d t =>
    rw [List.append_assoc, List.append_assoc]
    exact hopening.standsApart ht

theorem Wraps.stripStyles_append {u t rest : Text} (h : Wraps u t) (hr : rest.StandsApart) :
    stripStyles (u ++ rest) = stripStyles t ++ stripStyles rest := by
  obtain ⟨opening, closing, hopening, hclosing, rfl⟩ := h
  rw [List.append_assoc, List.append_assoc, hopening.stripStyles_append,
    Pinpoint.stripStyles_append t (hclosing.standsApart hr), hclosing.stripStyles_append]

theorem Wraps.stripStyles_append_of_not_mem {u t : Text} (h : Wraps u t) (ht : escape ∉ t)
    (rest : Text) : stripStyles (u ++ rest) = t ++ stripStyles rest := by
  obtain ⟨opening, closing, hopening, hclosing, rfl⟩ := h
  rw [List.append_assoc, List.append_assoc, hopening.stripStyles_append,
    Pinpoint.stripStyles_append_of_not_mem ht, hclosing.stripStyles_append]

/-! ## Styles of the registry -/

theorem isStyleParameter_of_isDigit {c : Char} (h : c.isDigit = true) :
    isStyleParameter c = true := by
  simp only [Char.isDigit, ge_iff_le, Bool.and_eq_true, decide_eq_true_eq] at h
  simp only [isStyleParameter, Bool.or_eq_true, Bool.and_eq_true, decide_eq_true_eq]
  exact .inl h

theorem isSequence_styleSequence (code : Nat) : IsSequence (styleSequence code) := by
  refine ⟨Nat.toDigits 10 code, fun c hc => ?_, rfl⟩
  exact isStyleParameter_of_isDigit (Nat.isDigit_of_mem_toDigits (by decide) (by decide) hc)

theorem sequences_flatMap (codes : List StyleCode) (number : StyleCode → Nat) :
    Sequences (codes.flatMap fun c => styleSequence (number c)) := by
  induction codes with
  | nil => exact .nil
  | cons c codes ih => exact .cons (isSequence_styleSequence _) ih

theorem Style.wraps_wrap (codes : List StyleCode) (t : Text) : Wraps (Style.wrap codes t) t := by
  unfold Style.wrap
  split
  · exact .refl t
  · exact ⟨_, _, sequences_flatMap codes StyleCode.opening,
      sequences_flatMap codes.reverse StyleCode.closing, rfl⟩

end Pinpoint
