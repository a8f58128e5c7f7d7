import Pinpoint.Proofs.Columns
import Pinpoint.Proofs.Trusted

/-!
# Texts as lines and breaks

A text is one line after the other, each but the last with the break that ends it. There is exactly
one way to cut it up so, if no carriage return is cut off from the line feed behind it
(`Segmentation.Proper`). Offsets are resolved without cutting anything up: the breaks in front of
the offset are counted from the left, and the end of the line is looked for from the offset on. Both
together come to the line of the segmentation that the offset lies on (`resolve_segmentation`). -/

namespace Pinpoint

/-- The five breaks. -/
def breakTexts : List Text := [['\r', '\n'], ['\r'], ['\n'], ['\u2028'], ['\u2029']]

structure Segmentation where
  /-- The lines that a break ends, each with its break. -/
  ended : List (Text × Text)
  /-- The line that the text ends with. -/
  last : Text

/-- A text without break characters. -/
def Text.Unbroken (t : Text) : Prop := ∀ c ∈ t, isBreakChar c = false

namespace Segmentation

def text (s : Segmentation) : Text := s.ended.flatMap (fun e => e.1 ++ e.2) ++ s.last

def lines (s : Segmentation) : List Text := s.ended.map Prod.fst ++ [s.last]

/-- The offset where a line starts: that many lines and their breaks stand in front of it. -/
def start (s : Segmentation) (k : Nat) : Nat :=
  ((s.ended.take k).flatMap fun e => e.1 ++ e.2).length

/-- The lines hold no break characters, they are ended by breaks, and no carriage return that ends a
line has a line feed behind it. -/
structure Proper (s : Segmentation) : Prop where
  unbroken : ∀ l ∈ s.lines, l.Unbroken
  breaks : ∀ e ∈ s.ended, e.2 ∈ breakTexts
  whole : ∀ k l, s.ended[k]? = some (l, ['\r']) → s.text[s.start (k + 1)]? ≠ some '\n'

/-- The line with the last start at or before an offset. -/
structure IsLineOf (s : Segmentation) (n : Int) (k : Nat) (l : Text) : Prop where
  getElem?_lines : s.lines[k]? = some l
  start_le : s.start k ≤ n
  last_start : ∀ j, j < s.lines.length → s.start j ≤ n → j ≤ k

/-! ## A segmentation without its first line -/

theorem text_cons (l b : Text) (r : List (Text × Text)) (last : Text) :
    text ⟨(l, b) :: r, last⟩ = l ++ (b ++ text ⟨r, last⟩) := by
  simp only [text, List.flatMap_cons, List.append_assoc]

theorem start_zero (s : Segmentation) : s.start 0 = 0 := rfl

theorem start_cons (l b : Text) (r : List (Text × Text)) (last : Text) (k : Nat) :
    start ⟨(l, b) :: r, last⟩ (k + 1) = l.length + b.length + start ⟨r, last⟩ k := by
  simp only [start, List.take_succ_cons, List.flatMap_cons, List.length_append]

theorem start_succ {s : Segmentation} {k : Nat} {l b : Text} (h : s.ended[k]? = some (l, b)) :
    s.start (k + 1) = s.start k + l.length + b.length := by
  rw [start, List.take_add_one, h, Option.toList_some, List.flatMap_append, List.length_append,
    List.flatMap_singleton, List.length_append, Nat.add_assoc]
  rfl

theorem getElem?_text_cons (l b : Text) (r : List (Text × Text)) (last : Text) (n : Nat) :
    (text ⟨(l, b) :: r, last⟩)[l.length + b.length + n]? = (text ⟨r, last⟩)[n]? := by
  rw [text_cons, ← List.append_assoc, ← List.length_append,
    List.getElem?_append_right (Nat.le_add_right _ _), Nat.add_sub_cancel_left]

theorem proper_nil {last : Text} : Proper ⟨[], last⟩ ↔ last.Unbroken := by
  constructor
  · intro h
    exact h.unbroken last List.mem_cons_self
  · intro h
    refine ⟨?_, nofun, ?_⟩
    · intro l hl
      rwa [List.mem_singleton.1 hl]
    · intro k l hk
      cases hk

theorem proper_cons {l b : Text} {r : List (Text × Text)} {last : Text} :
    Proper ⟨(l, b) :: r, last⟩ ↔ l.Unbroken ∧ b ∈ breakTexts ∧
      ¬(b = ['\r'] ∧ (text ⟨r, last⟩).head? = some '\n') ∧ Proper ⟨r, last⟩ := by
  have hsecond (k : Nat) : (text ⟨(l, b) :: r, last⟩)[start ⟨(l, b) :: r, last⟩ (k + 1)]? =
      (text ⟨r, last⟩)[start ⟨r, last⟩ k]? := by
    rw [start_cons, getElem?_text_cons]
  constructor
  · intro h
    refine ⟨h.unbroken l List.mem_cons_self, h.breaks _ List.mem_cons_self, ?_, ?_, ?_, ?_⟩
    · rintro ⟨rfl, hlf⟩
      apply h.whole 0 l rfl
      rwa [hsecond, start_zero, ← List.head?_eq_getElem?]
    · exact fun m hm => h.unbroken m (List.mem_cons_of_mem _ hm)
    · exact fun e he => h.breaks e (List.mem_cons_of_mem _ he)
    · intro k m hk
      have := h.whole (k + 1) m hk
      rwa [hsecond] at this
  · rintro ⟨hl, hb, hwhole, h⟩
    refine ⟨?_, ?_, ?_⟩
    · intro m hm
      rcases List.mem_cons.1 hm with rfl | hm
      · exact hl
      · exact h.unbroken m hm
    · intro e he
      rcases List.mem_cons.1 he with rfl | he
      · exact hb
      · exact h.breaks e he
    · intro k m hk
      rw [hsecond]
      cases k with
      | zero =>
        rw [List.getElem?_cons_zero, Option.some.injEq, Prod.mk.injEq] at hk
        rw [start_zero, ← List.head?_eq_getElem?]
        exact fun hlf => hwhole ⟨hk.2, hlf⟩
      | succ k => exact h.whole k m hk

/-! ## The breaks of a text that is cut up -/

theorem breaksFrom_unbroken_append {l : Text} (hl : l.Unbroken) (k : Nat) (rest : Text) :
    Text.breaksFrom k (l ++ rest) = Text.breaksFrom (k + l.length) rest := by
  induction l generalizing k with
  | nil => rfl
  | cons c l ih =>
    have hc : isBreakChar c = false := hl c List.mem_cons_self
    have hcr : ¬(c = '\r' ∧ (l ++ rest).head? = some '\n') := by
      rintro ⟨rfl, _⟩
      cases hc
    rw [List.cons_append, Text.breaksFrom_cons hcr, hc, if_neg Bool.false_ne_true,
      ih (fun d hd => hl d (List.mem_cons_of_mem _ hd)), List.length_cons, Nat.add_assoc,
      Nat.add_comm 1]

theorem breaksFrom_break_append {b rest : Text} (hb : b ∈ breakTexts)
    (hwhole : ¬(b = ['\r'] ∧ rest.head? = some '\n')) (k : Nat) :
    Text.breaksFrom k (b ++ rest) = ⟨k, k + b.length⟩ :: Text.breaksFrom (k + b.length) rest := by
  simp only [breakTexts, List.mem_cons, List.not_mem_nil, or_false] at hb
  rcases hb with rfl | rfl | rfl | rfl | rfl
  · rfl
  · exact Text.breaksFrom_cons (fun h => hwhole ⟨rfl, h.2⟩) k
  · rfl
  · rfl
  · rfl

theorem breaksFrom_last {s : Segmentation} (hs : s.Proper) (h : s.ended = []) (k : Nat) :
    Text.breaksFrom k s.text = [] := by
  obtain ⟨ended, last⟩ := s
  subst h
  have := breaksFrom_unbroken_append (proper_nil.1 hs) k []
  rwa [List.append_nil] at this

theorem breaksFrom_text_cons {l b : Text} {r : List (Text × Text)} {last : Text}
    (hs : Proper ⟨(l, b) :: r, last⟩) (k : Nat) :
    Text.breaksFrom k (text ⟨(l, b) :: r, last⟩) =
      ⟨k + l.length, k + l.length + b.length⟩ ::
        Text.breaksFrom (k + l.length + b.length) (text ⟨r, last⟩) := by
  obtain ⟨hl, hb, hwhole, _⟩ := proper_cons.1 hs
  rw [text_cons, breaksFrom_unbroken_append hl, breaksFrom_break_append hb hwhole]

/-- The breaks of the text are those of the segmentation. -/
theorem stops_breaksFrom {s : Segmentation} (hs : s.Proper) (k : Nat) :
    (Text.breaksFrom k s.text).map LineBreak.stop =
      (List.range s.ended.length).map fun j => k + s.start (j + 1) := by
  obtain ⟨ended, last⟩ := s
  induction ended generalizing k with
  | nil => rw [breaksFrom_last hs rfl]; rfl
  | cons e r ih =>
    obtain ⟨l, b⟩ := e
    rw [breaksFrom_text_cons hs, List.map_cons, ih _ (proper_cons.1 hs).2.2.2, List.length_cons,
      List.range_succ_eq_map, List.map_cons, List.map_map]
    simp only [Function.comp_def, Nat.succ_eq_add_one, start_cons, start_zero, Nat.add_assoc,
      Nat.add_zero]

theorem getElem?_lineStarts_text {s : Segmentation} (hs : s.Proper) {k : Nat}
    (hk : k ≤ s.ended.length) : s.text.lineStarts[k]? = some (s.start k) := by
  have hstops := stops_breaksFrom hs 0
  cases k with
  | zero => rfl
  | succ k =>
    rw [Text.lineStarts, List.getElem?_cons_succ, Text.breaks, hstops, List.getElem?_map,
      List.getElem?_range (by omega), Option.map_some, Nat.zero_add]

theorem length_breaks {s : Segmentation} (hs : s.Proper) :
    s.text.breaks.length = s.ended.length := by
  have := congrArg List.length (stops_breaksFrom hs 0)
  rwa [List.length_map, List.length_map, List.length_range] at this

/-! ## Every text is cut up in one way -/

theorem exists_proper (t : Text) : ∃ s : Segmentation, s.Proper ∧ s.text = t := by
  induction t using Text.lines.induct with
  | case1 => exact ⟨⟨[], []⟩, proper_nil.2 nofun, rfl⟩
  | case2 rest ih =>
    obtain ⟨s, hs, rfl⟩ := ih
    have hpair : ['\r', '\n'] ∈ breakTexts := List.mem_cons_self
    exact ⟨⟨([], ['\r', '\n']) :: s.ended, s.last⟩,
      proper_cons.2 ⟨nofun, hpair, fun h => (by cases h.1), hs⟩, text_cons ..⟩
  | case3 c rest hpair hc ih =>
    obtain ⟨s, hs, rfl⟩ := ih
    have hmem : [c] ∈ breakTexts := by
      simp only [isBreakChar, Bool.or_eq_true, beq_iff_eq] at hc
      simp only [breakTexts, List.mem_cons, List.cons.injEq, and_true, List.not_mem_nil, or_false]
      simpa [or_assoc] using hc
    refine ⟨⟨([], [c]) :: s.ended, s.last⟩, proper_cons.2 ⟨nofun, hmem, ?_, hs⟩, text_cons ..⟩
    rintro ⟨hcr, hlf⟩
    obtain ⟨more, hmore⟩ := List.head?_eq_some_iff.1 hlf
    exact hpair more (List.singleton_inj.1 hcr) hmore
  | case4 c rest hpair hc ih =>
    obtain ⟨⟨ended, last⟩, hs, rfl⟩ := ih
    have hc' : isBreakChar c = false := Bool.eq_false_iff.2 hc
    have hgrow {l : Text} (hl : l.Unbroken) : Text.Unbroken (c :: l) := by
      intro d hd
      rcases List.mem_cons.1 hd with rfl | hd
      · exact hc'
      · exact hl d hd
    -- the character joins the first line, whether a break ends it or the text does
    cases ended with
    | nil => exact ⟨⟨[], c :: last⟩, proper_nil.2 (hgrow (proper_nil.1 hs)), rfl⟩
    | cons e r =>
      obtain ⟨l, b⟩ := e
      obtain ⟨hl, hrest⟩ := proper_cons.1 hs
      exact ⟨⟨(c :: l, b) :: r, last⟩, proper_cons.2 ⟨hgrow hl, hrest⟩, rfl⟩

theorem eq_of_text_eq {s s' : Segmentation} (hs : s.Proper) (hs' : s'.Proper)
    (h : s.text = s'.text) : s = s' := by
  obtain ⟨ended, last⟩ := s
  obtain ⟨ended', last'⟩ := s'
  have hfirst : Text.breaksFrom 0 (text ⟨ended, last⟩) = Text.breaksFrom 0 (text ⟨ended', last'⟩) :=
    congrArg _ h
  -- the first break of the text says where the first line ends and the second one starts
  induction ended generalizing ended' with
  | nil =>
    cases ended' with
    | nil => rw [show last = last' from h]
    | cons e' r' =>
      rw [breaksFrom_last hs rfl, breaksFrom_text_cons hs'] at hfirst
      cases hfirst
  | cons e r ih =>
    cases ended' with
    | nil =>
      rw [breaksFrom_last hs' rfl, breaksFrom_text_cons hs] at hfirst
      cases hfirst
    | cons e' r' =>
      obtain ⟨l, b⟩ := e
      obtain ⟨l', b'⟩ := e'
      rw [breaksFrom_text_cons hs, breaksFrom_text_cons hs', List.cons.injEq,
        LineBreak.mk.injEq] at hfirst
      obtain ⟨⟨hl, hb⟩, _⟩ := hfirst
      rw [text_cons, text_cons] at h
      obtain ⟨rfl, hbehind⟩ := List.append_inj h (by omega)
      obtain ⟨rfl, hrest⟩ := List.append_inj hbehind (by omega)
      cases ih (proper_cons.1 hs).2.2.2 r' (proper_cons.1 hs').2.2.2 hrest (congrArg _ hrest)
      rfl

/-! ## What stands behind the start of a line -/

theorem drop_start (s : Segmentation) (k : Nat) :
    s.text.drop (s.start k) = text ⟨s.ended.drop k, s.last⟩ := by
  have hsplit : s.text =
      (s.ended.take k).flatMap (fun e => e.1 ++ e.2) ++ text ⟨s.ended.drop k, s.last⟩ := by
    rw [text, text, ← List.append_assoc, ← List.flatMap_append, List.take_append_drop]
  rw [hsplit, start, List.drop_left]

theorem drop_start_of_ended {s : Segmentation} {k : Nat} {l b : Text}
    (h : s.ended[k]? = some (l, b)) :
    s.text.drop (s.start k) = l ++ (b ++ text ⟨s.ended.drop (k + 1), s.last⟩) := by
  obtain ⟨hk, hget⟩ := List.getElem?_eq_some_iff.1 h
  rw [drop_start, List.drop_eq_getElem_cons hk, hget, text_cons]

theorem drop_start_of_last (s : Segmentation) :
    s.text.drop (s.start s.ended.length) = s.last := by
  rw [drop_start, List.drop_length]
  rfl

/-- A line is ended by a break or by the text. -/
theorem ended_or_last {s : Segmentation} {k : Nat} {l : Text} (h : s.lines[k]? = some l) :
    (∃ b, s.ended[k]? = some (l, b)) ∨ k = s.ended.length ∧ l = s.last := by
  have hlen : (s.ended.map Prod.fst).length = s.ended.length := List.length_map _
  have hlines := (List.getElem?_eq_some_iff.1 h).1
  rw [lines, List.length_append, hlen, List.length_singleton] at hlines
  by_cases hk : k < s.ended.length
  · left
    rw [lines, List.getElem?_append_left (by omega), List.getElem?_map] at h
    obtain ⟨⟨m, b⟩, hb, rfl⟩ := Option.map_eq_some_iff.1 h
    exact ⟨b, hb⟩
  · right
    have hlast : k = s.ended.length := by omega
    subst hlast
    rw [lines, List.getElem?_append_right (by omega), hlen, Nat.sub_self,
      List.getElem?_cons_zero] at h
    exact ⟨rfl, (Option.some.inj h).symm⟩

theorem exists_cons_of_mem_breakTexts {b : Text} (hb : b ∈ breakTexts) :
    ∃ c more, b = c :: more ∧ isBreakChar c = true := by
  simp only [breakTexts, List.mem_cons, List.not_mem_nil, or_false] at hb
  rcases hb with rfl | rfl | rfl | rfl | rfl <;> exact ⟨_, _, rfl, by decide⟩

section
variable {s : Segmentation} (hs : s.Proper) {k : Nat} {l : Text} (hl : s.lines[k]? = some l)
include hs hl

theorem lineFrom_start : s.text.lineFrom (s.start k) = l := by
  have hunbroken : ∀ c ∈ l, (!isBreakChar c) = true := by
    intro c hc
    rw [hs.unbroken l (List.mem_of_getElem? hl) c hc, Bool.not_false]
  rw [Text.lineFrom]
  rcases ended_or_last hl with ⟨b, hb⟩ | ⟨rfl, rfl⟩
  · obtain ⟨c, more, rfl, hc⟩ := exists_cons_of_mem_breakTexts (hs.breaks _ (List.mem_of_getElem? hb))
    rw [drop_start_of_ended hb, List.takeWhile_append_of_pos hunbroken, List.cons_append,
      List.takeWhile_cons_of_neg (by rw [hc]; exact Bool.false_ne_true), List.append_nil]
  · rw [drop_start_of_last, List.takeWhile_eq_self_iff]
    exact hunbroken

theorem start_le_length : s.start k ≤ s.text.length := by
  have hk := (List.getElem?_eq_some_iff.1 hl).1
  rw [lines, List.length_append, List.length_map, List.length_singleton] at hk
  exact Text.le_length_of_lineStarts (getElem?_lineStarts_text hs (show k ≤ s.ended.length by omega))

/-- A line ends where the library looks for its end, if it starts from the start of the line. -/
theorem lineEnd_start : s.text.lineEnd (s.start k) = s.start k + l.length := by
  have hstart := start_le_length hs hl
  have hend := Text.le_lineEnd hstart
  have hlength := Text.length_lineFrom hstart
  rw [lineFrom_start hs hl] at hlength
  omega

end

/-! ## The line of an offset -/

theorem exists_isLineOf {s : Segmentation} (hs : s.Proper) (n : Nat) :
    ∃ k l, s.IsLineOf n k l ∧ (s.text.position n).line = k + 1 ∧ s.text.lineStart n = s.start k := by
  have hprefix : s.text.breaksBefore n <+: s.text.breaks := List.takeWhile_prefix _
  have hlen := hprefix.length_le
  have hbreaks := length_breaks hs
  have hlines : s.lines.length = s.ended.length + 1 := by
    rw [lines, List.length_append, List.length_map, List.length_singleton]
  have hstart : s.text.lineStart n = s.start (s.text.breaksBefore n).length := by
    have hfound := Text.getElem?_lineStarts s.text hlen
    rw [getElem?_lineStarts_text hs (by omega), ← List.prefix_iff_eq_take.1 hprefix] at hfound
    exact (Option.some.inj hfound).symm
  have hk : (s.text.breaksBefore n).length < s.lines.length := by omega
  refine ⟨_, _, ⟨List.getElem?_eq_getElem hk, ?_, ?_⟩, rfl, hstart⟩
  · have := s.text.lineStart_le n
    omega
  · intro j hj hle
    -- the breaks in front of a line that starts at or before the offset all count for the offset
    have hstop := getElem?_lineStarts_text hs (show j ≤ s.ended.length by omega)
    have hpassed : ∀ b ∈ s.text.breaks.take j, decide ((b.stop : Int) ≤ n) = true := by
      intro b hb
      have := Text.stop_le_of_mem_take (by omega) hstop hb
      simp only [decide_eq_true_eq]
      omega
    have hsplit : s.text.breaksBefore n = s.text.breaks.take j ++
        (s.text.breaks.drop j).takeWhile fun b => decide ((b.stop : Int) ≤ n) := by
      rw [Text.breaksBefore, ← List.takeWhile_append_of_pos hpassed, List.take_append_drop]
    rw [hsplit, List.length_append, List.length_take]
    omega

/-- From the start of a line that a break ends, the text goes on with the line and its break. -/
theorem getElem?_text_of_ended {s : Segmentation} {k : Nat} {l b : Text}
    (h : s.ended[k]? = some (l, b)) (m : Nat) :
    s.text[s.start k + l.length + m]? = (b ++ text ⟨s.ended.drop (k + 1), s.last⟩)[m]? := by
  rw [Nat.add_assoc, ← List.getElem?_drop, drop_start_of_ended h,
    List.getElem?_append_right (Nat.le_add_right _ _), Nat.add_sub_cancel_left]

/-- Behind a line with a carriage return stands a break that begins with it. -/
theorem ended_of_carriageReturn {s : Segmentation} (hs : s.Proper) {k : Nat} {l : Text}
    (hl : s.lines[k]? = some l) (hcr : s.text[s.start k + l.length]? = some '\r') :
    s.ended[k]? = some (l, ['\r', '\n']) ∨ s.ended[k]? = some (l, ['\r']) := by
  rcases ended_or_last hl with ⟨b, hb⟩ | ⟨rfl, rfl⟩
  · have hmem := hs.breaks _ (List.mem_of_getElem? hb)
    rw [← Nat.add_zero (s.start k + l.length), getElem?_text_of_ended hb] at hcr
    simp only [breakTexts, List.mem_cons, List.not_mem_nil, or_false] at hmem
    rcases hmem with rfl | rfl | rfl | rfl | rfl
    · exact .inl hb
    · exact .inr hb
    · cases hcr
    · cases hcr
    · cases hcr
  · rw [← List.getElem?_drop, drop_start_of_last, List.getElem?_eq_none (Nat.le_refl _)] at hcr
    cases hcr

section
variable {s : Segmentation} (hs : s.Proper) {n k : Nat} {l : Text} (hl : s.lines[k]? = some l)
  (hstart : s.text.lineStart n = s.start k)
include hs hl hstart

theorem splitsPair_iff :
    s.text.SplitsPair n ↔ s.ended[k]? = some (l, ['\r', '\n']) ∧ n = s.start k + l.length + 1 := by
  constructor
  · intro h
    have hend := (Text.firstBreak_of_splitsPair h).1.eq_lineEnd
    rw [hstart, lineEnd_start hs hl] at hend
    have hn : n = s.start k + l.length + 1 := by
      have := h.1
      omega
    obtain ⟨_, hcr, hlf⟩ := h
    rw [hend] at hcr
    rcases ended_of_carriageReturn hs hl hcr with hb | hb
    · exact ⟨hb, hn⟩
    · -- a carriage return alone has no line feed behind it
      have hnext : s.start (k + 1) = n := by
        rw [start_succ hb, hn]
        rfl
      rw [← hnext] at hlf
      exact absurd hlf (hs.whole k l hb)
  · rintro ⟨hb, rfl⟩
    refine ⟨Nat.succ_pos _, ?_, ?_⟩
    · exact getElem?_text_of_ended hb 0
    · exact getElem?_text_of_ended hb 1

/-- From the offset on, the end of its line is found, unless a pair lies around the offset. -/
theorem lineEnd_eq (hn : n ≤ s.text.length) :
    (s.text.lineEnd n : Int) =
      if s.ended[k]? = some (l, ['\r', '\n']) ∧ (n : Int) = s.start k + l.length + 1 then (n : Int)
      else s.start k + l.length := by
  have hiff : s.text.SplitsPair n ↔
      s.ended[k]? = some (l, ['\r', '\n']) ∧ (n : Int) = s.start k + l.length + 1 := by
    rw [splitsPair_iff hs hl hstart]
    exact and_congr_right fun _ => by omega
  by_cases hsplit : s.text.SplitsPair n
  · rw [if_pos (hiff.1 hsplit), ← (Text.firstBreak_of_splitsPair hsplit).2.eq_lineEnd]
  · rw [if_neg (mt hiff.2 hsplit)]
    rw [← Text.lineEnd_lineStart hn hsplit, hstart, lineEnd_start hs hl]
    exact Int.natCast_add _ _

end

/-! ## What a range of offsets comes to -/

/-- A range is looked up by its first offset alone. -/
theorem resolve_span (t : Text) (r : Span) :
    resolve (.text t) (.span r) = resolve (.text t) (.offset r.start) := rfl

/-- **Every text is cut up into lines and breaks in exactly one way, and a range of offsets comes to
the line of its first offset**, with the offsets where that line starts and ends; only strictly
inside a pair it ends at the offset. An offset outside the text is refused. -/
theorem resolve_segmentation (t : Text) :
    (∃! s : Segmentation, s.Proper ∧ s.text = t) ∧
    ∀ s : Segmentation, s.Proper → s.text = t → ∀ n : Int,
      (0 ≤ n ∧ n ≤ t.length → ∃ k l, s.IsLineOf n k l ∧
        ∀ (stop : Int) (h : n ≤ stop), resolve (.text t) (.span ⟨n, stop, h⟩) = .ok {
          line := k + 1
          column := n - s.start k
          lineStart := s.start k
          lineEnd := if s.ended[k]? = some (l, ['\r', '\n']) ∧ n = s.start k + l.length + 1
            then n else s.start k + l.length
          sourceLength := t.length }) ∧
      (¬(0 ≤ n ∧ n ≤ t.length) → ∀ (stop : Int) (h : n ≤ stop),
        ∃ e, resolve (.text t) (.span ⟨n, stop, h⟩) = .error e ∧ e.kind = .wrongValue) := by
  constructor
  · obtain ⟨s, hs, rfl⟩ := exists_proper t
    exact ⟨s, ⟨hs, rfl⟩, fun s' hs' => eq_of_text_eq hs'.1 hs hs'.2⟩
  · rintro s hs rfl n
    constructor
    · intro hn
      obtain ⟨m, rfl⟩ := Int.eq_ofNat_of_zero_le hn.1
      obtain ⟨k, l, hline, hk, hstart⟩ := exists_isLineOf hs m
      have hend := lineEnd_eq hs hline.getElem?_lines hstart (show m ≤ s.text.length by omega)
      refine ⟨k, l, hline, fun stop h => ?_⟩
      rw [resolve_span, resolve_offset_eq, if_pos hn]
      simp only [textInfo, hk, Text.position_column, hstart, Int.toNat_natCast, hend,
        Int.sub_sub_self]
    · intro hn stop h
      rw [resolve_span, resolve_offset_eq, if_neg hn]
      exact ⟨_, rfl, rfl⟩

/-- The one way to cut up two lines with a pair between them, and what the middle of the pair comes
to. -/
theorem resolve_segmentation_inside_pair :
    let t : Text := ['a', '\r', '\n', 'b']
    let s : Segmentation := ⟨[(['a'], ['\r', '\n'])], ['b']⟩
    s.Proper ∧ s.text = t ∧ (∀ s' : Segmentation, s'.Proper → s'.text = t → s' = s) ∧
      ∀ (stop : Int) (h : 2 ≤ stop), resolve (.text t) (.span ⟨2, stop, h⟩) = .ok ⟨1, 2, 0, 2, 4⟩ := by
  intro t s
  have hs : s.Proper := by
    have hfirst : Text.Unbroken ['a'] := List.forall_mem_singleton.2 (by decide)
    have hlast : Text.Unbroken ['b'] := List.forall_mem_singleton.2 (by decide)
    exact proper_cons.2 ⟨hfirst, List.mem_cons_self, fun h => (by cases h.1), proper_nil.2 hlast⟩
  obtain ⟨hunique, hresolve⟩ := resolve_segmentation t
  obtain ⟨k, l, hline, hinfo⟩ := (hresolve s hs rfl 2).1 (by decide)
  have hk : k < 2 := (List.getElem?_eq_some_iff.1 hline.getElem?_lines).1
  obtain rfl | rfl : k = 0 ∨ k = 1 := by omega
  · cases hline.getElem?_lines
    exact ⟨hs, rfl, fun s' hs' h => hunique.unique ⟨hs', h⟩ ⟨hs, rfl⟩, hinfo⟩
  · exact absurd hline.start_le (by decide)

end Segmentation

end Pinpoint
