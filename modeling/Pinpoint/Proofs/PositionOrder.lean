import Mathlib.Data.List.TakeWhile
import Mathlib.Data.Prod.Lex
import Pinpoint.Issue.Basic
import Pinpoint.Proofs.Bounds

/-!
# The order of positions

Columns start again behind every break, so a later offset may well have a smaller column; then it is
on a later line. By line first and column second, positions are in the order of their offsets, also
between the two characters of a pair and outside the text. So no two offsets share a position, and
issues may be sorted by either (`position_strictMono`).
-/

namespace Pinpoint

/-- A line and column as they are compared: by line, and on one line by column. -/
def LineColumn.key (p : LineColumn) : Int ×ₗ Int := toLex (p.line, p.column)

theorem LineColumn.key_lt_key {p q : LineColumn} :
    p.key < q.key ↔ p.line < q.line ∨ p.line = q.line ∧ p.column < q.column :=
  Prod.Lex.toLex_lt_toLex

namespace Issue

def position (i : Issue) : LineColumn := ⟨i.info.line, i.info.column⟩

def offset (i : Issue) : Int := i.info.lineStart + i.info.column

/-- Whether an issue may stand before another one in the order of lines and columns. -/
def positionLE (i j : Issue) : Bool := i.position.key ≤ j.position.key

/-- Whether an issue may stand before another one in the order of offsets. -/
def offsetLE (i j : Issue) : Bool := i.offset ≤ j.offset

/-- An issue that was placed at an offset tells the offset and its position. -/
theorem eq_of_resolve {t : Text} {o : Int} {i : Issue}
    (h : resolve (.text t) (.offset o) = .ok i.info) :
    i.offset = o ∧ i.position = t.position o := by
  rw [resolve_offset_eq] at h
  split at h
  · have hinfo := Except.ok.inj h
    rw [offset, position, ← hinfo]
    exact ⟨Int.sub_add_cancel o _, rfl⟩
  · cases h

end Issue

namespace Text

theorem breaksBefore_prefix (t : Text) {m n : Int} (h : m ≤ n) :
    t.breaksBefore m <+: t.breaksBefore n := by
  have hboth : t.breaksBefore m = (t.breaksBefore n).takeWhile fun b => b.stop ≤ m := by
    rw [breaksBefore, breaksBefore, List.takeWhile_takeWhile]
    congr 1
    funext b
    simp only [decide_eq_true_eq, decide_eq_decide]
    omega
  rw [hboth]
  exact List.takeWhile_prefix _

theorem key_position_lt (t : Text) {m n : Int} (h : m < n) :
    (t.position m).key < (t.position n).key := by
  have hprefix := t.breaksBefore_prefix (Int.le_of_lt h)
  have hline (offset : Int) : (t.position offset).line = (t.breaksBefore offset).length + 1 := rfl
  rw [LineColumn.key_lt_key, hline, hline]
  -- either a break lies in between, or both offsets are on the line behind the same breaks
  rcases Nat.lt_or_eq_of_le hprefix.length_le with hlt | heq
  · left
    omega
  · right
    refine ⟨by omega, ?_⟩
    rw [position_column, position_column, lineStart, lineStart, hprefix.eq_of_length heq]
    omega

/-- **Positions are in the order of their offsets**, whatever the breaks of the text and wherever
the offsets lie. No two offsets share a position, and to sort issues of the text by line and column
is to sort them by offset. -/
theorem position_strictMono (t : Text) :
    (∀ m n : Int, m < n → (t.position m).line < (t.position n).line ∨
      (t.position m).line = (t.position n).line ∧ (t.position m).column < (t.position n).column) ∧
    Function.Injective t.position ∧
    ∀ issues : List Issue, (∀ i ∈ issues, ∃ o, resolve (.text t) (.offset o) = .ok i.info) →
      issues.mergeSort Issue.positionLE = issues.mergeSort Issue.offsetLE := by
  have hmono : StrictMono fun o : Int => (t.position o).key := fun _ _ h => t.key_position_lt h
  refine ⟨fun m n h => LineColumn.key_lt_key.1 (hmono h), ?_, ?_⟩
  · intro m n h
    exact hmono.injective (congrArg LineColumn.key h)
  · intro issues hissues
    have hsame : ∀ i ∈ issues, ∀ j ∈ issues, i.positionLE j = (id i).offsetLE (id j) := by
      intro i hi j hj
      obtain ⟨m, hm⟩ := hissues i hi
      obtain ⟨n, hn⟩ := hissues j hj
      obtain ⟨hioffset, hiposition⟩ := Issue.eq_of_resolve hm
      obtain ⟨hjoffset, hjposition⟩ := Issue.eq_of_resolve hn
      rw [Issue.positionLE, Issue.offsetLE, id, id, hioffset, hjoffset, hiposition, hjposition]
      exact decide_eq_decide.2 hmono.le_iff_le
    simpa only [List.map_id] using List.map_mergeSort hsame

/-- Four issues around a pair, one of them inside it: the columns alone would be in another order.
-/
theorem position_strictMono_around_pair :
    let t : Text := ['a', '\r', '\n', 'b']
    let issue (o : Int) : Issue := ⟨.error, ['f'], ['m'], [], textInfo t o (t.position o), []⟩
    let issues := [issue 3, issue 2, issue 4, issue 0]
    (∀ i ∈ issues, ∃ o, resolve (.text t) (.offset o) = .ok i.info) ∧
      issues.mergeSort Issue.positionLE = [issue 0, issue 2, issue 3, issue 4] := by
  intro t issue issues
  have hissues : ∀ i ∈ issues, ∃ o, resolve (.text t) (.offset o) = .ok i.info := by
    intro i hi
    simp only [issues, List.mem_cons, List.not_mem_nil, or_false] at hi
    rcases hi with rfl | rfl | rfl | rfl
    · exact ⟨3, rfl⟩
    · exact ⟨2, rfl⟩
    · exact ⟨4, rfl⟩
    · exact ⟨0, rfl⟩
  have hle (m n : Int) : (issue m).offsetLE (issue n) = decide (m ≤ n) := by
    simp [Issue.offsetLE, Issue.offset, issue, textInfo]
  have hsort : issues.mergeSort Issue.offsetLE = [issue 0, issue 2, issue 3, issue 4] := by
    simp [issues, List.mergeSort, List.MergeSort.Internal.splitInTwo, hle]
  exact ⟨hissues, ((position_strictMono t).2.2 issues hissues).trans hsort⟩

end Text

end Pinpoint
