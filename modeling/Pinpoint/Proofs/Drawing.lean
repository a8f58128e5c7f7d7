import Pinpoint.Proofs.BareLine
import Pinpoint.Proofs.CaretLine

/-!
# The caret line, mark by mark

Marks can be set one at a time: a tilde at each index that a highlight is drawn at, one highlight
after the other, and the caret at last. Every index that a highlight is drawn at is that of a mark
(`drawTildes?_eq`), so that only the caret can fall outside, and where it does not, the result are
the marks of the issue (`drawMarks?_eq`). Character by character the line is then a caret at the
column, tildes where a highlight and the line meet, and blanks elsewhere (`caretLine_drawn`): all
that a highlight leaves behind is which offsets of the line it covers.
-/

namespace Pinpoint

/-! ## Offsets that are covered -/

/-- An offset that a highlight reaches over. One that ends before it starts reaches over none. -/
def Highlight.Holds (h : Highlight) (offset : Int) : Prop := h.start ≤ offset ∧ offset < h.stop

def Held (hs : List Highlight) (offset : Int) : Prop := ∃ h ∈ hs, h.Holds offset

/-- Highlights that differ in their order, in repetitions, in a highlight that is given in two
parts, or in one that ends where it starts or before. -/
inductive Rearranged : List Highlight → List Highlight → Prop where
  | reordered {hs hs' : List Highlight} : hs.Perm hs' → Rearranged hs hs'
  | repeated {h : Highlight} {hs : List Highlight} : h ∈ hs → Rearranged (h :: hs) hs
  | split {h : Highlight} {hs : List Highlight} {m : Int} :
      h.start ≤ m → m ≤ h.stop → Rearranged (h :: hs) (⟨h.start, m⟩ :: ⟨m, h.stop⟩ :: hs)
  | empty {h : Highlight} {hs : List Highlight} : h.stop ≤ h.start → Rearranged (h :: hs) hs

theorem held_cons {h : Highlight} {hs : List Highlight} {offset : Int} :
    Held (h :: hs) offset ↔ h.Holds offset ∨ Held hs offset := by
  simp only [Held, List.mem_cons, exists_eq_or_imp]

theorem Rearranged.held_iff {hs hs' : List Highlight} (h : Rearranged hs hs') (offset : Int) :
    Held hs offset ↔ Held hs' offset := by
  cases h with
  | reordered hperm => simp only [Held, hperm.mem_iff]
  | @repeated h hs hmem =>
    rw [held_cons]
    constructor
    · rintro (hh | hhs)
      · exact ⟨h, hmem, hh⟩
      · exact hhs
    · exact .inr
  | split hstart hstop =>
    rw [held_cons, held_cons, held_cons, ← or_assoc]
    refine or_congr_left ?_
    simp only [Highlight.Holds]
    omega
  | empty hempty =>
    rw [held_cons]
    refine or_iff_right ?_
    simp only [Highlight.Holds]
    omega

/-! ## One mark at a time -/

/-- Sets the mark at an index, which counts from the end if it is below zero. There may be none. -/
def assign? (marks : List Mark) (index : Int) (m : Mark) : Option (List Mark) :=
  let place := if index < 0 then index + marks.length else index
  if 0 ≤ place && place < marks.length then some (marks.set place.toNat m) else none

/-- The indexes that a highlight is drawn at among a number of marks, from left to right: those of
the line, as far as there are marks. -/
def Highlight.indexes (h : Highlight) (info : LineInfo) (width : Nat) : List Int :=
  if h.misses info then []
  else
    let first := max h.start info.lineStart - info.lineStart
    let stop := min (min h.stop info.lineEnd - info.lineStart) width
    (List.range (stop - first).toNat).map fun k : Nat => first + k

/-- Sets tildes at indexes, one after the other. -/
def drawAt? (marks : List Mark) (indexes : List Int) : Option (List Mark) :=
  indexes.foldlM (fun marks index => assign? marks index .tilde) marks

def Issue.drawTildes? (i : Issue) : Option (List Mark) :=
  i.highlights.foldlM (fun marks h => drawAt? marks (h.indexes i.info i.width))
    (List.replicate i.width .blank)

/-- Draws the highlights of an issue, and the caret over them. -/
def Issue.drawMarks? (i : Issue) : Option (List Mark) := do
  let marks ← i.drawTildes?
  assign? marks i.info.column .caret

/-- Tildes where a test says so, and blanks elsewhere. -/
def tildesWhere (width : Nat) (p : Nat → Bool) : List Mark :=
  (List.range width).map fun n => if p n then .tilde else .blank

theorem length_tildesWhere (width : Nat) (p : Nat → Bool) : (tildesWhere width p).length = width := by
  rw [tildesWhere, List.length_map, List.length_range]

theorem getElem?_tildesWhere {width n : Nat} (hn : n < width) (p : Nat → Bool) :
    (tildesWhere width p)[n]? = some (if p n then .tilde else .blank) := by
  rw [tildesWhere, List.getElem?_map, List.getElem?_range hn, Option.map_some]

theorem tildesWhere_congr {width : Nat} {p q : Nat → Bool} (h : ∀ n, n < width → p n = q n) :
    tildesWhere width p = tildesWhere width q := by
  apply List.map_congr_left
  intro n hn
  rw [h n (List.mem_range.1 hn)]

theorem assign?_tildesWhere {width n : Nat} (hn : n < width) (p : Nat → Bool) :
    assign? (tildesWhere width p) n .tilde = some (tildesWhere width fun m => p m || m == n) := by
  have hlen := length_tildesWhere width p
  have hset : (tildesWhere width p).set n .tilde = tildesWhere width fun m => p m || m == n := by
    apply List.ext_getElem?
    intro m
    rw [List.getElem?_set, hlen, if_pos hn]
    by_cases hm : m < width
    · rw [getElem?_tildesWhere hm, getElem?_tildesWhere hm]
      by_cases hmn : n = m
      · rw [if_pos hmn, hmn, beq_self_eq_true, Bool.or_true, if_pos rfl]
      · rw [if_neg hmn, beq_eq_false_iff_ne.2 (Ne.symm hmn), Bool.or_false]
    · rw [if_neg (by omega), List.getElem?_eq_none (by rw [hlen]; omega),
        List.getElem?_eq_none (by rw [length_tildesWhere]; omega)]
  have hneg : ¬(n : Int) < 0 := by omega
  simp only [assign?, hlen, if_neg hneg, Bool.and_eq_true, decide_eq_true_eq]
  rw [if_pos (by omega), Int.toNat_natCast, hset]

theorem drawAt?_tildesWhere {width : Nat} {indexes : List Int}
    (h : ∀ index ∈ indexes, 0 ≤ index ∧ index < width) (p : Nat → Bool) :
    drawAt? (tildesWhere width p) indexes =
      some (tildesWhere width fun m => p m || indexes.contains (m : Int)) := by
  induction indexes generalizing p with
  | nil => simp only [drawAt?, List.foldlM_nil, List.contains_nil, Bool.or_false]; rfl
  | cons index rest ih =>
    obtain ⟨h0, hlt⟩ := h index List.mem_cons_self
    obtain ⟨n, rfl⟩ := Int.eq_ofNat_of_zero_le h0
    have hstep := assign?_tildesWhere (show n < width by omega) p
    have hrest := ih (fun m hm => h m (List.mem_cons_of_mem _ hm)) fun m => p m || m == n
    simp only [drawAt?, List.foldlM_cons, hstep] at hrest ⊢
    refine Eq.trans hrest (congrArg some (tildesWhere_congr fun m _ => ?_))
    have hcast : ((m : Int) == (n : Int)) = (m == n) := by
      rw [Bool.eq_iff_iff, beq_iff_eq, beq_iff_eq]
      exact Int.ofNat_inj
    rw [List.contains_cons, hcast, Bool.or_assoc]

/-! ## One highlight at a time -/

theorem Highlight.mem_indexes {h : Highlight} {info : LineInfo} {width : Nat} {index : Int} :
    index ∈ h.indexes info width ↔
      ∃ n : Nat, index = n ∧ n < width ∧ h.covers info n = true := by
  unfold indexes covers
  cases h.misses info with
  | true => simp
  | false =>
    simp only [Bool.false_eq_true, if_false, List.mem_map, List.mem_range, Bool.not_false,
      Bool.true_and, Bool.and_eq_true, decide_eq_true_eq]
    constructor
    · rintro ⟨k, hk, rfl⟩
      exact ⟨(max h.start info.lineStart - info.lineStart + k).toNat, by omega, by omega, by omega,
        by omega⟩
    · rintro ⟨n, rfl, hn, hfirst, hstop⟩
      exact ⟨(n - (max h.start info.lineStart - info.lineStart)).toNat, by omega, by omega⟩

theorem Highlight.contains_indexes {h : Highlight} {info : LineInfo} {width n : Nat}
    (hn : n < width) : (h.indexes info width).contains (n : Int) = h.covers info n := by
  rw [Bool.eq_iff_iff, List.contains_iff_mem, mem_indexes]
  constructor
  · rintro ⟨m, hm, _, hcovers⟩
    rwa [Int.ofNat_inj.1 hm]
  · exact fun hcovers => ⟨n, rfl, hn, hcovers⟩

theorem drawTildes?_eq (i : Issue) : i.drawTildes? = some i.tildes := by
  have hdraw (hs : List Highlight) (p : Nat → Bool) :
      hs.foldlM (fun marks h => drawAt? marks (h.indexes i.info i.width))
        (tildesWhere i.width p) =
          some (tildesWhere i.width fun n => p n || hs.any (·.covers i.info n)) := by
    induction hs generalizing p with
    | nil => simp only [List.foldlM_nil, List.any_nil, Bool.or_false]; rfl
    | cons h hs ih =>
      have hinside : ∀ index ∈ h.indexes i.info i.width, 0 ≤ index ∧ index < i.width := by
        intro index hindex
        obtain ⟨n, rfl, hn, _⟩ := Highlight.mem_indexes.1 hindex
        omega
      rw [List.foldlM_cons, drawAt?_tildesWhere hinside]
      refine Eq.trans (ih _) (congrArg some (tildesWhere_congr fun n hn => ?_))
      rw [Highlight.contains_indexes hn, List.any_cons, Bool.or_assoc]
  have hblank : List.replicate i.width Mark.blank = tildesWhere i.width fun _ => false := by
    simp [tildesWhere, List.map_const']
  rw [Issue.drawTildes?, hblank, hdraw]
  simp only [Bool.false_or]
  rfl

/-- Drawn one mark at a time, the marks are those of the issue. -/
theorem drawMarks?_eq (i : Issue) :
    i.drawMarks? = i.caretIndex?.map fun n => i.tildes.set n .caret := by
  simp only [Issue.drawMarks?, drawTildes?_eq, Issue.caretIndex?, bind, Option.bind_some, assign?,
    Issue.length_tildes, apply_ite (Option.map _), Option.map_some, Option.map_none]

/-! ## Character by character -/

namespace Issue

/-- The character that stands in a column: the caret in the issue's own, and a tilde where a
highlight and the line meet. -/
def charAt (i : Issue) (n : Nat) : Char :=
  if (n : Int) = i.info.column then '^'
  else if ∃ h ∈ i.highlights, h.start ≤ i.info.lineStart + n ∧
    i.info.lineStart + n < min h.stop i.info.lineEnd then '~'
  else ' '

/-- The characters of all columns up to the end of the line, or of the caret if it stands behind. -/
def drawn (i : Issue) : Text := (List.range i.width).map i.charAt

variable {i : Issue} (hend : i.info.lineEnd ≤ i.info.lineStart + i.info.sourceLength)
include hend

theorem any_covers_iff (hs : List Highlight) (n : Nat) :
    hs.any (·.covers i.info n) = true ↔
      Held hs (i.info.lineStart + n) ∧ i.info.lineStart + n < i.info.lineEnd := by
  simp only [List.any_eq_true, Highlight.covers_iff hend, Held, Highlight.Holds]
  constructor
  · rintro ⟨h, hmem, hstart, hstop, hlast⟩
    exact ⟨⟨h, hmem, hstart, hstop⟩, hlast⟩
  · rintro ⟨⟨h, hmem, hstart, hstop⟩, hlast⟩
    exact ⟨h, hmem, hstart, hstop, hlast⟩

/-- Beside the caret, the character of a column is that of its mark. -/
theorem charAt_of_ne {n : Nat} (h : (n : Int) ≠ i.info.column) :
    i.charAt n =
      (if i.highlights.any (·.covers i.info n) then Mark.tilde else Mark.blank).char := by
  have hmeet : (∃ h ∈ i.highlights, h.start ≤ i.info.lineStart + n ∧
      i.info.lineStart + n < min h.stop i.info.lineEnd) ↔
        i.highlights.any (·.covers i.info n) = true := by
    rw [any_covers_iff hend]
    constructor
    · rintro ⟨h, hmem, hstart, hstop⟩
      exact ⟨⟨h, hmem, hstart, by omega⟩, by omega⟩
    · rintro ⟨⟨h, hmem, hstart, hstop⟩, hlast⟩
      exact ⟨h, hmem, hstart, by omega⟩
  rw [charAt, if_neg h]
  simp only [hmeet]
  split <;> rfl

theorem map_char_set_tildes {c : Nat} (hc : i.info.column = c) :
    (i.tildes.set c .caret).map Mark.char = i.drawn := by
  have hwidth : c < i.width := by
    rw [width_of_nonneg hc]
    omega
  have hdrawn : i.drawn.length = i.width := by
    rw [drawn, List.length_map, List.length_range]
  apply List.ext_getElem?
  intro n
  rw [List.getElem?_map, List.getElem?_set, length_tildes, if_pos hwidth]
  by_cases hn : n < i.width
  · have htilde : i.tildes[n]? =
        some (if i.highlights.any (·.covers i.info n) then .tilde else .blank) :=
      getElem?_tildesWhere hn _
    rw [drawn, List.getElem?_map, List.getElem?_range hn, Option.map_some, htilde]
    by_cases hcn : c = n
    · rw [if_pos hcn, charAt, if_pos (by omega)]
      rfl
    · rw [if_neg hcn, charAt_of_ne hend (by omega)]
      rfl
  · rw [if_neg (by omega), List.getElem?_eq_none (by rw [length_tildes]; omega),
      List.getElem?_eq_none (by omega), Option.map_none]

/-- Of highlights, the marks show which offsets of the line they cover, and nothing else. -/
theorem marks_congr {hs hs' : List Highlight}
    (h : ∀ offset, i.info.lineStart ≤ offset → offset < i.info.lineEnd →
      (Held hs offset ↔ Held hs' offset)) :
    ({ i with highlights := hs } : Issue).marks = ({ i with highlights := hs' } : Issue).marks := by
  have hany (n : Nat) : hs.any (·.covers i.info n) = hs'.any (·.covers i.info n) := by
    rw [Bool.eq_iff_iff, any_covers_iff hend, any_covers_iff hend]
    exact and_congr_left fun hlast => h _ (by omega) hlast
  have htildes : ({ i with highlights := hs } : Issue).tildes =
      ({ i with highlights := hs' } : Issue).tildes :=
    tildesWhere_congr fun n _ => hany n
  simp only [marks, htildes]
  rfl

end Issue

theorem map_char_trimMarks (marks : List Mark) :
    (trimMarks marks).map Mark.char = (marks.map Mark.char).rdropWhile (· == ' ') := by
  have hblank : (fun m : Mark => m.char == ' ') = fun m => m == .blank := by
    funext m
    cases m <;> rfl
  rw [trimMarks, List.rdropWhile, ← List.map_reverse, List.dropWhile_map, List.map_reverse]
  simp only [Function.comp_def, hblank]

theorem Issue.marks_of_not_fitsWord {i : Issue} (h : fitsWord i.width = false) :
    i.marks = .error .tooWide := by
  rw [marks, h, Bool.not_false, if_pos rfl]

theorem Issue.marks_of_markLimit_le {i : Issue} (hw : fitsWord i.width = true)
    (h : markLimit ≤ i.width) : i.marks = .error .outOfMemory := by
  rw [marks, hw, Bool.not_true, if_neg Bool.false_ne_true, if_pos h]

theorem caretLine_of_marks_eq_error {i : Issue} {e : RenderError} (h : i.marks = .error e)
    (paint : Role → Text → Except Text Text) : caretLine paint i = .error e := by
  simp only [caretLine, h]
  rfl

/-- **The caret line of an issue is drawn character by character**, as far as memory holds a line of
marks that wide, and it stays the same for all highlights that cover the same offsets of the line.
-/
theorem caretLine_drawn {i : Issue} (hcolumn : 0 ≤ i.info.column)
    (hend : i.info.lineEnd ≤ i.info.lineStart + i.info.sourceLength) (p : Policy) :
    (∃ marks, i.drawMarks? = some marks ∧ marks.map Mark.char = i.drawn) ∧
    (i.width < markLimit →
      caretLine (p.paint false) i = .ok (i.drawn.rdropWhile (· == ' '))) ∧
    (markLimit ≤ i.width → fitsWord i.width = true →
      caretLine (p.paint false) i = .error .outOfMemory) ∧
    (fitsWord i.width = false → caretLine (p.paint false) i = .error .tooWide) ∧
    ∀ hs hs' : List Highlight,
      (Rearranged hs hs' ∨ ∀ offset, i.info.lineStart ≤ offset → offset < i.info.lineEnd →
        (Held hs offset ↔ Held hs' offset)) →
      ∀ enabled : Bool, caretLine (p.paint enabled) { i with highlights := hs } =
        caretLine (p.paint enabled) { i with highlights := hs' } := by
  obtain ⟨c, hc⟩ := Int.eq_ofNat_of_zero_le hcolumn
  have hindex := Issue.caretIndex?_of_nonneg hc
  have hdrawn := Issue.map_char_set_tildes hend hc
  refine ⟨⟨_, by rw [drawMarks?_eq, hindex, Option.map_some], hdrawn⟩, ?_, ?_, ?_, ?_⟩
  · intro hwide
    rw [caretLine_plain p (Issue.marks_of_caretIndex? hwide hindex), map_char_trimMarks, hdrawn]
  · exact fun hlimit hw => caretLine_of_marks_eq_error (Issue.marks_of_markLimit_le hw hlimit) _
  · exact fun hwide => caretLine_of_marks_eq_error (Issue.marks_of_not_fitsWord hwide) _
  · intro hs hs' h enabled
    have hheld : ∀ offset, i.info.lineStart ≤ offset → offset < i.info.lineEnd →
        (Held hs offset ↔ Held hs' offset) := by
      rcases h with hsame | hheld
      · exact fun offset _ _ => hsame.held_iff offset
      · exact hheld
    simp only [caretLine, Issue.marks_congr hend hheld]

/-- A caret behind the shown part of its line, and highlights that begin in front of the line, end
behind the source, and end before they start. -/
theorem caretLine_drawn_behind_shown_line :
    let i : Issue := ⟨.error, [], [], "abc".toList, ⟨2, 4, 10, 15, 40⟩, [⟨5, 12⟩, ⟨13, 99⟩, ⟨14, 11⟩]⟩
    0 ≤ i.info.column ∧ i.info.lineEnd ≤ i.info.lineStart + i.info.sourceLength ∧
      i.width < markLimit ∧ i.drawn = "~~ ~^".toList ∧
      caretLine (Policy.default.paint false) i = .ok "~~ ~^".toList := by
  intro i
  have hcolumn : 0 ≤ i.info.column := by decide
  have hend : i.info.lineEnd ≤ i.info.lineStart + i.info.sourceLength := by decide
  have hwide : i.width < markLimit := by decide
  have hdrawn : i.drawn = "~~ ~^".toList := by decide
  refine ⟨hcolumn, hend, hwide, hdrawn, ?_⟩
  rw [(caretLine_drawn hcolumn hend Policy.default).2.1 hwide, hdrawn]
  rfl

/-- A column that no line of marks reaches. -/
theorem caretLine_not_always_drawn :
    ¬∀ (i : Issue) (p : Policy), 0 ≤ i.info.column →
      i.info.lineEnd ≤ i.info.lineStart + i.info.sourceLength →
      caretLine (p.paint false) i = .ok (i.drawn.rdropWhile (· == ' ')) := by
  intro h
  have hdrawn := h ⟨.error, [], [], [], ⟨1, 0x7fffffffffffffff, 0, 0, 0⟩, []⟩ .default (by decide)
    (by decide)
  rw [caretLine_of_marks_eq_error (Issue.marks_of_not_fitsWord (by decide))] at hdrawn
  cases hdrawn

end Pinpoint
