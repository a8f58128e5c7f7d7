import Pinpoint.Proofs.LineText
import Pinpoint.Proofs.Segments

/-!
# What a block tells

The source of an issue lies on one line of its text, whichever way its location was resolved, and
ends in no blank. So a block has three lines, and the first of them can be read from the left:
behind the file, which is given, colons part the numerals of line and column and the word of the
severity from each other, and neither numerals nor words hold colons; what is left is the message.
Issues of one file that differ in anything that is shown differ in their blocks. Only a line that a
location brought along can have too many digits to be printed, and then there is no block
(`issueBlock_faithful`). -/

namespace Pinpoint

/-! ## The line that is shown -/

theorem Text.mem_of_mem_trimEnd {t : Text} {c : Char} (h : c ∈ t.trimEnd) : c ∈ t :=
  (List.rdropWhile_prefix isBlank t).subset h

theorem Text.isBlank_getLast?_trimEnd {t : Text} {c : Char} (h : t.trimEnd.getLast? = some c) :
    isBlank c = false := by
  rw [trimEnd_eq] at h
  have hne : t.rdropWhile isBlank ≠ [] := by
    intro hnil
    rw [hnil] at h
    cases h
  rw [List.getLast?_eq_some_getLast hne, Option.some.injEq] at h
  rw [← h]
  exact Bool.eq_false_iff.2 (List.rdropWhile_last_not isBlank t hne)

theorem Text.exists_of_mem_slice {t : Text} {a b : Int} (ha : 0 ≤ a) (hb : 0 ≤ b) {c : Char}
    (h : c ∈ t.slice a b) : ∃ k : Nat, a ≤ k ∧ k < b ∧ t[k]? = some c := by
  obtain ⟨i, hi⟩ := List.mem_iff_getElem?.1 h
  rw [slice, List.getElem?_drop, List.getElem?_take, bound_of_nonneg ha, bound_of_nonneg hb] at hi
  split at hi
  next hlt =>
    have hlen := (List.getElem?_eq_some_iff.1 hi).1
    exact ⟨_, by omega, by omega, hi⟩
  next => cases hi

/-- A location that brings its column along is refused if the column reaches over a break. -/
theorem hasBreakBetween_of_resolve {t : Text} {l : Location} {p : LineColumn}
    (hp : l.trusted? = some p) {info : LineInfo} (h : resolve (.text t) l = .ok info) :
    t.hasBreakBetween (l.start - p.column) l.start = false := by
  simp only [resolve, hp] at h
  rw [resolveText_eq] at h
  split at h
  · cases h
  · split at h
    · cases h
    · split at h
      · cases h
      · split at h
        · cases h
        next hno => simpa using hno

theorem extractLine_unbroken {t : Text} {l : Location} {info : LineInfo}
    (h : resolve (.text t) l = .ok info) : (extractLine (.text t) info).Unbroken := by
  obtain ⟨hle, h0, hlen, rfl⟩ := resolve_text_eq_ok h
  obtain ⟨n, hn⟩ := Int.eq_ofNat_of_zero_le h0
  intro c hc
  cases hp : l.trusted? with
  | none =>
    have hplace : l.placeIn t = t.position n := by rw [Location.placeIn, hp, hn]; rfl
    rw [hplace, hn, extractLine_position (by omega)] at hc
    have := List.mem_takeWhile_imp (Text.mem_of_mem_trimEnd hc)
    simpa using this
  | some p =>
    have hplace : l.placeIn t = p := by rw [Location.placeIn, hp]; rfl
    rw [hplace] at hc hle
    have hbefore := hasBreakBetween_of_resolve hp h
    obtain ⟨k, hstart, hstop, hk⟩ :=
      Text.exists_of_mem_slice (by simp only [textInfo]; omega) (Int.natCast_nonneg _)
        (Text.mem_of_mem_trimEnd hc)
    simp only [textInfo] at hstart hstop
    rw [← Text.hasBreakAt_of_some hk]
    -- in front of the offset the column was checked, and behind it the line ends at the first break
    by_cases hlt : (k : Int) < l.start
    · rw [Bool.eq_false_iff]
      intro hbreak
      rw [← Bool.not_eq_true, Text.hasBreakBetween_iff] at hbefore
      exact hbefore ⟨k, hstart, hlt, hbreak⟩
    · have hfirst := Text.firstBreak_lineEnd (show l.start.toNat ≤ t.length by omega)
      exact hfirst.unbroken k (by omega) (by omega)

/-! ## The lines of a block -/

/-- A separator parts what is in front of its first occurrence from the rest. -/
theorem append_cons_inj {c : Char} {a b s t : Text} (ha : c ∉ a) (hb : c ∉ b)
    (h : a ++ c :: s = b ++ c :: t) : a = b ∧ s = t := by
  induction a generalizing b with
  | nil =>
    cases b with
    | nil => exact ⟨rfl, (List.cons.inj h).2⟩
    | cons d b =>
      obtain ⟨rfl, -⟩ := List.cons.inj h
      exact absurd List.mem_cons_self hb
  | cons d a ih =>
    cases b with
    | nil =>
      obtain ⟨rfl, -⟩ := List.cons.inj h
      exact absurd List.mem_cons_self ha
    | cons e b =>
      obtain ⟨rfl, htail⟩ := List.cons.inj h
      obtain ⟨rfl, rfl⟩ :=
        ih (List.not_mem_of_not_mem_cons ha) (List.not_mem_of_not_mem_cons hb) htail
      exact ⟨rfl, rfl⟩

namespace Issue

def header (i : Issue) : Text :=
  i.file ++ ':' :: (positionNumerals i.info ++
    ':' :: ' ' :: (i.severity.word ++ ':' :: ' ' :: displayedMessage i.message))

/-- What the first line tells is read from the left, once the file is known. -/
theorem header_inj {i j : Issue} (hfile : i.file = j.file) (h : i.header = j.header) :
    i.info.line = j.info.line ∧ i.info.column = j.info.column ∧ i.severity = j.severity ∧
      displayedMessage i.message = displayedMessage j.message := by
  have hnumeral : ∀ n : Int, ':' ∉ decimal n := not_mem_decimal (by decide) (by decide)
  have hword : ∀ s : Severity, ':' ∉ s.word := Severity.not_mem_word (by decide)
  rw [header, header, hfile] at h
  have hplace := (List.cons.inj (List.append_cancel_left h)).2
  simp only [positionNumerals, List.append_assoc, List.cons_append] at hplace
  obtain ⟨hline, hrest⟩ := append_cons_inj (hnumeral _) (hnumeral _) hplace
  obtain ⟨hcolumn, hrest⟩ := append_cons_inj (hnumeral _) (hnumeral _) hrest
  obtain ⟨hseverity, hrest⟩ := append_cons_inj (hword _) (hword _) (List.cons.inj hrest).2
  have hnext := decimal_inj hcolumn
  exact ⟨decimal_inj hline, by omega, Severity.word_inj hseverity, (List.cons.inj hrest).2⟩

theorem lineFeed_not_mem_header {i : Issue} (hfile : '\n' ∉ i.file) (hmessage : '\n' ∉ i.message) :
    '\n' ∉ i.header := by
  have hposition := not_mem_positionNumerals (c := '\n') (by decide) (by decide) (by decide) i.info
  have hword := Severity.not_mem_word (c := '\n') (by decide) i.severity
  have hdisplayed := not_mem_displayedMessage (by decide) (by decide) hmessage
  simp only [header, List.mem_append, List.mem_cons, not_or]
  exact ⟨hfile, by decide, hposition, by decide, by decide, hword, by decide, by decide, hdisplayed⟩

def blockOver (i : Issue) (caret : Text) : Text :=
  List.intercalate ['\n'] [i.header, i.source, caret, []]

theorem blockOver_eq (i : Issue) (caret : Text) :
    i.blockOver caret = i.header ++ '\n' :: (i.source ++ '\n' :: (caret ++ ['\n'])) := by
  simp [blockOver, List.intercalate]

theorem blockOver_addHighlights (i : Issue) (hs : List Highlight) (caret : Text) :
    (i.addHighlights hs).blockOver caret = i.blockOver caret := by
  rw [addHighlights_eq]
  rfl

section
variable {i : Issue} (hheader : '\n' ∉ i.header) (hsource : '\n' ∉ i.source) {caret : Text}
  (hcaret : '\n' ∉ caret)
include hheader hsource hcaret

theorem splitOn_blockOver : (i.blockOver caret).splitOn '\n' = [i.header, i.source, caret, []] := by
  refine List.splitOn_intercalate '\n' ?_ (List.cons_ne_nil _ _)
  simp only [List.forall_mem_cons]
  exact ⟨hheader, hsource, hcaret, List.not_mem_nil, nofun⟩

theorem count_blockOver : (i.blockOver caret).count '\n' = 3 := by
  rw [blockOver_eq]
  simp only [List.count_append, List.count_cons_self, List.count_nil,
    List.count_eq_zero.2 hheader, List.count_eq_zero.2 hsource, List.count_eq_zero.2 hcaret]

end

end Issue

section
variable (p : Policy) {i : Issue}

theorem headerLine_plain (h : i.info.Printable) : headerLine (p.paint false) i = .ok i.header := by
  have hleft : headerLine (p.paint false) i =
      .ok (i.file ++ [':'] ++ positionNumerals i.info ++ [':'] ++ ' ' :: i.severity.word ++ [':'] ++
        ' ' :: displayedMessage i.message) := by
    simp only [headerLine, displayedPosition_of_printable h, Except.mapError, bind, Except.bind]
    rfl
  rw [hleft, Issue.header]
  simp only [List.append_assoc, List.cons_append, List.nil_append]

theorem issueBlock_plain (hposition : i.info.Printable) {marks : List Mark}
    (h : i.marks = .ok marks) :
    issueBlock (p.paint false) i = .ok (i.blockOver ((trimMarks marks).map Mark.char)) := by
  have hleft : issueBlock (p.paint false) i =
      .ok (i.header ++ '\n' :: i.source ++ '\n' :: (trimMarks marks).map Mark.char ++ ['\n']) := by
    simp only [issueBlock, headerLine_plain p hposition, caretLine_plain p h]
    rfl
  rw [hleft, Issue.blockOver_eq]
  simp only [List.append_assoc, List.cons_append]

theorem issueBlock_plain_eq_ok {block : Text} (h : issueBlock (p.paint false) i = .ok block) :
    ∃ caret, '\n' ∉ caret ∧ block = i.blockOver caret := by
  have hp : NeverFails (p.paint false) := fun _ t => ⟨t, rfl⟩
  rcases issueBlock_cases hp i with ⟨marks, t, hposition, hmarks, -⟩ | ⟨-, herror⟩ | ⟨e, -, herror⟩
  · rw [issueBlock_plain p hposition hmarks] at h
    refine ⟨_, ?_, (Except.ok.inj h).symm⟩
    exact not_mem_map_char (fun m => by cases m <;> decide) _
  · rw [herror] at h
    cases h
  · rw [herror] at h
    cases h

end

/-! ## Issues in a text -/

/-- An issue was made from a text, whatever its location was read from. -/
def Issue.MadeFrom (i : Issue) (t : Text) : Prop :=
  ∃ file location message severity, create (.text t) file location message severity = .ok i

namespace Issue.MadeFrom

variable {i : Issue} {t : Text} (hi : i.MadeFrom t)
include hi

theorem exists_resolve :
    ∃ l info, resolve (.text t) l = .ok info ∧ i.source = extractLine (.text t) info := by
  obtain ⟨file, location, message, severity, hi⟩ := hi
  obtain ⟨s, l, info, hs, -, hinfo, rfl⟩ := create_eq_ok hi
  cases hs
  exact ⟨l, info, hinfo, rfl⟩

theorem source_unbroken : i.source.Unbroken := by
  obtain ⟨l, info, hinfo, hsource⟩ := hi.exists_resolve
  rw [hsource]
  exact extractLine_unbroken hinfo

theorem isBlank_getLast? {c : Char} (h : i.source.getLast? = some c) : isBlank c = false := by
  obtain ⟨l, info, -, hsource⟩ := hi.exists_resolve
  rw [hsource] at h
  exact Text.isBlank_getLast?_trimEnd h

theorem lineFeed_not_mem_source : '\n' ∉ i.source := fun h =>
  absurd (hi.source_unbroken _ h) (by decide)

theorem exists_block_iff (ht : t.Addressable) (hcolumn : 0 ≤ i.info.column) (hs : List Highlight)
    (p : Policy) :
    (∃ block, issueBlock (p.paint false) (i.addHighlights hs) = .ok block) ↔
      FewDigits i.info.line := by
  obtain ⟨file, location, message, severity, hi⟩ := hi
  have hw : (i.addHighlights hs).width < markLimit := by
    rw [addHighlights_eq]
    exact (create_width_lt (fitsMemory_text ht) hi : i.width < markLimit)
  have hp : NeverFails (p.paint false) := fun _ t => ⟨t, rfl⟩
  rw [issueBlock_ok_iff hw hp, addHighlights_eq]
  exact ⟨fun h => h.line, fun h => ⟨Int.le_trans (by omega) hcolumn, h⟩⟩

end Issue.MadeFrom

end Pinpoint
