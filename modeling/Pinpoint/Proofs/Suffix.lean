import Mathlib.Data.List.TakeWhile
import Pinpoint.Issue.Suffix

/-!
# Messages with a place behind them

Parsers put a line and a column between parentheses behind their messages. A text may tell several
messages in this way, since a message may end in blanks itself, and of these the longest is left
when the place is cut off (`stripLocation_longest`). However it ends, in blanks or in another such
place, it comes back whole from behind a single blank (`stripLocation_append`). -/

namespace Pinpoint

/-- One or more decimal digits of any script. -/
structure IsNumeral (t : Text) : Prop where
  nonempty : t ≠ []
  digits : ∀ c ∈ t, isDecimalDigit c = true

def locationGroup (a b : Text) : Text := '(' :: (a ++ ':' :: (b ++ [')']))

/-- A numeral is read from its end to its start as far as another character. -/
theorem IsNumeral.reverse_span {a : Text} (ha : IsNumeral a) {c : Char}
    (hc : isDecimalDigit c = false) (rest : Text) :
    (∃ d ds, (a.reverse ++ c :: rest).takeWhile isDecimalDigit = d :: ds) ∧
      (a.reverse ++ c :: rest).dropWhile isDecimalDigit = c :: rest := by
  have hdigits : ∀ d ∈ a.reverse, isDecimalDigit d = true := by
    intro d hd
    exact ha.digits d (List.mem_reverse.1 hd)
  have hc' : ¬isDecimalDigit c = true := by
    rw [hc]
    exact Bool.false_ne_true
  constructor
  · apply List.exists_cons_of_ne_nil
    rw [List.takeWhile_append_of_pos hdigits]
    intro h
    exact ha.nonempty (List.reverse_eq_nil_iff.1 (List.append_eq_nil_iff.1 h).1)
  · rw [List.dropWhile_append_of_pos hdigits, List.dropWhile_cons_of_neg hc']

theorem beforeGroup?_append {a b : Text} (ha : IsNumeral a) (hb : IsNumeral b) (t : Text) :
    beforeGroup? (t ++ locationGroup a b) = some t := by
  have hreverse : (t ++ locationGroup a b).reverse =
      ')' :: (b.reverse ++ ':' :: (a.reverse ++ '(' :: t.reverse)) := by
    simp [locationGroup]
  obtain ⟨⟨d, ds, hcolumn⟩, hcolon⟩ :=
    hb.reverse_span (show isDecimalDigit ':' = false by decide) (a.reverse ++ '(' :: t.reverse)
  obtain ⟨⟨e, es, hline⟩, hopen⟩ :=
    ha.reverse_span (show isDecimalDigit '(' = false by decide) t.reverse
  simp only [beforeGroup?, hreverse, hcolumn, hcolon, hline, hopen, List.reverse_reverse]

/-- What is read as digits in front of another character is a numeral, if it is not empty. -/
theorem isNumeral_of_span {t : Text} {d c : Char} {ds rest : Text}
    (htake : t.takeWhile isDecimalDigit = d :: ds) (hdrop : t.dropWhile isDecimalDigit = c :: rest) :
    IsNumeral (d :: ds).reverse ∧ t = d :: ds ++ c :: rest := by
  constructor
  · refine ⟨by simp, ?_⟩
    intro e he
    rw [List.mem_reverse, ← htake] at he
    exact List.mem_takeWhile_imp he
  · rw [← htake, ← hdrop, List.takeWhile_append_dropWhile]

theorem exists_of_beforeGroup? {t u : Text} (h : beforeGroup? t = some u) :
    ∃ a b, IsNumeral a ∧ IsNumeral b ∧ t = u ++ locationGroup a b := by
  unfold beforeGroup? at h
  split at h
  next rest hclose =>
    split at h
    next d ds more hcolumn hcolon =>
      split at h
      next e es front hline hopen =>
        cases h
        obtain ⟨hb, hrest⟩ := isNumeral_of_span hcolumn hcolon
        obtain ⟨ha, hmore⟩ := isNumeral_of_span hline hopen
        refine ⟨_, _, ha, hb, ?_⟩
        rw [← List.reverse_inj, hclose, hrest, hmore]
        simp [locationGroup]
      next => cases h
    next => cases h
  next => cases h

/-! ## Where a text is cut -/

/-- A cut of a text into a message and blanks. -/
structure CutsBlanks (u m w : Text) : Prop where
  nonempty : m ≠ []
  no_lineFeed : '\n' ∉ m
  apart : w ≠ []
  blanks : ∀ c ∈ w, isBlank c = true
  append_eq : u = m ++ w

theorem cutsBlanks_of_splitBlanks? {u m w : Text} (h : splitBlanks? u = some (m, w)) :
    CutsBlanks u m w := by
  simp only [splitBlanks?] at h
  generalize hn : min (u.takeWhile (· != '\n')).length (u.length - 1) = n at h
  split at h
  next hcut =>
    cases h
    simp only [Bool.and_eq_true, decide_eq_true_eq, List.all_eq_true] at hcut
    have hlength : (u.take n).length = n := by
      rw [List.length_take]
      omega
    have hfirst : u.take n <+: u.takeWhile (· != '\n') :=
      List.prefix_of_prefix_length_le (List.take_prefix n u) (List.takeWhile_prefix _) (by omega)
    refine ⟨?_, ?_, ?_, hcut.2, (List.take_append_drop n u).symm⟩
    · rw [← List.length_pos_iff]
      omega
    · intro hlf
      have := List.mem_takeWhile_imp (hfirst.subset hlf)
      exact absurd this (by decide)
    · rw [← List.length_pos_iff, List.length_drop]
      omega
  next => cases h

/-- A text that can be cut is cut, and nowhere could its message have been longer. -/
theorem CutsBlanks.splitBlanks? {u m w : Text} (h : CutsBlanks u m w) :
    ∃ m' w', splitBlanks? u = some (m', w') ∧ m.length ≤ m'.length := by
  obtain ⟨hm, hlf, hw, hblanks, rfl⟩ := h
  have hm' := List.length_pos_iff.2 hm
  have hw' := List.length_pos_iff.2 hw
  have hline : ∀ c ∈ m, (c != '\n') = true := by
    intro c hc
    rw [bne_iff_ne]
    exact ne_of_mem_of_not_mem hc hlf
  have htake : m.length ≤ ((m ++ w).takeWhile (· != '\n')).length := by
    rw [List.takeWhile_append_of_pos hline, List.length_append]
    omega
  have hlength : (m ++ w).length = m.length + w.length := List.length_append
  simp only [Pinpoint.splitBlanks?]
  generalize hn : min ((m ++ w).takeWhile (· != '\n')).length ((m ++ w).length - 1) = n
  have hle : m.length ≤ n := by omega
  have hrest : ∀ c ∈ (m ++ w).drop n, isBlank c = true := by
    intro c hc
    rw [List.drop_append, List.drop_eq_nil_of_le hle, List.nil_append] at hc
    exact hblanks c (List.mem_of_mem_drop hc)
  refine ⟨(m ++ w).take n, (m ++ w).drop n, if_pos ?_, ?_⟩
  · rw [Bool.and_eq_true, decide_eq_true_eq, List.all_eq_true]
    exact ⟨by omega, hrest⟩
  · rw [List.length_take]
    omega

/-- A single blank is cut off alone, also behind a message that ends in blanks. -/
theorem splitBlanks?_append_blank {m : Text} (hm : m ≠ []) (hlf : '\n' ∉ m) {c : Char}
    (hblank : isBlank c = true) : splitBlanks? (m ++ [c]) = some (m, [c]) := by
  have hcut : CutsBlanks (m ++ [c]) m [c] :=
    ⟨hm, hlf, List.cons_ne_nil c [], List.forall_mem_singleton.2 hblank, rfl⟩
  obtain ⟨m', w', hsplit, hle⟩ := hcut.splitBlanks?
  obtain ⟨_, _, hapart, _, heq⟩ := cutsBlanks_of_splitBlanks? hsplit
  have hlength := congrArg List.length heq
  have hw' := List.length_pos_iff.2 hapart
  simp only [List.length_append, List.length_singleton] at hlength
  obtain ⟨rfl, rfl⟩ := List.append_inj heq (by omega)
  exact hsplit

/-- What stands in front of a blank and a place comes back as it is. -/
theorem stripLocation_append {m a b : Text} (hm : m ≠ []) (hlf : '\n' ∉ m) (ha : IsNumeral a)
    (hb : IsNumeral b) : stripLocation (m ++ ' ' :: locationGroup a b) = m := by
  have hgroup : beforeGroup? (m ++ ' ' :: locationGroup a b) = some (m ++ [' ']) := by
    rw [List.append_cons]
    exact beforeGroup?_append ha hb _
  have hsplit : splitBlanks? (m ++ [' ']) = some (m, [' ']) :=
    splitBlanks?_append_blank hm hlf (by decide)
  simp only [stripLocation, hgroup, Option.bind_some, hsplit]

/-! ## The texts that tell a place -/

/-- A text that tells a message with a place behind it: the message is not empty and holds no line
feed, and blanks stand between it and the place. -/
inductive TellsWithPlace (m : Text) : Text → Prop where
  | intro {w a b : Text} (nonempty : m ≠ []) (no_lineFeed : '\n' ∉ m) (apart : w ≠ [])
      (blanks : ∀ c ∈ w, isBlank c = true) (line : IsNumeral a) (column : IsNumeral b) :
      TellsWithPlace m (m ++ w ++ locationGroup a b)

theorem tellsWithPlace_iff {t m : Text} :
    TellsWithPlace m t ↔ ∃ u w, beforeGroup? t = some u ∧ CutsBlanks u m w := by
  constructor
  · intro h
    cases h with
    | intro nonempty no_lineFeed apart blanks line column =>
      exact ⟨_, _, beforeGroup?_append line column _, nonempty, no_lineFeed, apart, blanks, rfl⟩
  · rintro ⟨u, w, hu, nonempty, no_lineFeed, apart, blanks, rfl⟩
    obtain ⟨a, b, line, column, rfl⟩ := exists_of_beforeGroup? hu
    exact .intro nonempty no_lineFeed apart blanks line column

/-- **A place is cut off a text exactly if the text tells a message with a place behind it, and of
all messages that it tells so the longest is left.** A message that one blank parts from the place
is left whole, whatever it ends in. -/
theorem stripLocation_longest :
    (∀ t : Text,
      (∀ m, TellsWithPlace m t →
        TellsWithPlace (stripLocation t) t ∧ m.length ≤ (stripLocation t).length) ∧
      ((¬∃ m, TellsWithPlace m t) → stripLocation t = t)) ∧
    ∀ m a b : Text, m ≠ [] → '\n' ∉ m → IsNumeral a → IsNumeral b →
      stripLocation (m ++ ' ' :: locationGroup a b) = m := by
  refine ⟨fun t => ⟨?_, ?_⟩, fun m a b => stripLocation_append⟩
  · intro m h
    obtain ⟨u, w, hu, hcut⟩ := tellsWithPlace_iff.1 h
    obtain ⟨m', w', hsplit, hle⟩ := hcut.splitBlanks?
    have hstrip : stripLocation t = m' := by
      simp only [stripLocation, hu, Option.bind_some, hsplit]
    rw [hstrip]
    exact ⟨tellsWithPlace_iff.2 ⟨u, w', hu, cutsBlanks_of_splitBlanks? hsplit⟩, hle⟩
  · intro hnone
    unfold stripLocation
    split
    next m w hsome =>
      obtain ⟨u, hu, hsplit⟩ := Option.bind_eq_some_iff.1 hsome
      exact absurd ⟨m, tellsWithPlace_iff.2 ⟨u, w, hu, cutsBlanks_of_splitBlanks? hsplit⟩⟩ hnone
    next => rfl

/-- A message with an earlier place at its end, blanks behind it that go over a line feed, and a
place with nothing in front of it. -/
theorem stripLocation_longest_over_line_feed :
    let m : Text := "No (1:2)".toList
    let t : Text := m ++ [' ', '\n', '\t'] ++ locationGroup ['3'] ['1', '\u0664']
    TellsWithPlace m t ∧ TellsWithPlace (stripLocation t) t ∧ m.length ≤ (stripLocation t).length ∧
      stripLocation t = m ++ [' '] ∧
      (¬∃ m, TellsWithPlace m (' ' :: locationGroup ['3'] ['4'])) ∧
      stripLocation (' ' :: locationGroup ['3'] ['4']) = ' ' :: locationGroup ['3'] ['4'] ∧
      stripLocation (m ++ ' ' :: locationGroup ['3'] ['4']) = m := by
  intro m t
  have hm : m ≠ [] := by decide
  have hlf : '\n' ∉ m := by decide
  have hthree : IsNumeral ['3'] := ⟨by decide, List.all_eq_true.1 (by decide)⟩
  have hfour : IsNumeral ['4'] := ⟨by decide, List.all_eq_true.1 (by decide)⟩
  have hfourteen : IsNumeral ['1', '\u0664'] := ⟨by decide, List.all_eq_true.1 (by decide)⟩
  have htells : TellsWithPlace m t :=
    .intro hm hlf (by decide) (List.all_eq_true.1 (by decide)) hthree hfourteen
  have hnone : ¬∃ m, TellsWithPlace m (' ' :: locationGroup ['3'] ['4']) := by
    rintro ⟨m, h⟩
    obtain ⟨u, w, hu, hcut⟩ := tellsWithPlace_iff.1 h
    have hblank : beforeGroup? ([' '] ++ locationGroup ['3'] ['4']) = some [' '] :=
      beforeGroup?_append hthree hfour [' ']
    cases hu.symm.trans hblank
    obtain ⟨m', w', hsplit, _⟩ := hcut.splitBlanks?
    have hno : splitBlanks? [' '] = none := by decide
    cases hno.symm.trans hsplit
  obtain ⟨hlongest, hwhole⟩ := stripLocation_longest
  obtain ⟨hleft, hle⟩ := (hlongest t).1 m htells
  exact ⟨htells, hleft, hle, by decide +kernel, hnone, (hlongest _).2 hnone,
    hwhole m ['3'] ['4'] hm hlf hthree hfour⟩

end Pinpoint
