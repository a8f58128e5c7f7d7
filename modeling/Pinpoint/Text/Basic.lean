/-!
# Texts

A text is its list of code points, so every offset, column and length of this library counts code
points. This module holds the few operations on texts that the rest is written with: slices whose
bounds may be given from the end, joining, and what stands between separators.
-/

namespace Pinpoint

/-- A text is its code points in order. -/
abbrev Text := List Char

namespace Text

/-- The offset that a slice bound stands for in a text of the given length: a negative bound counts
from the end, and a bound outside the text is moved to its nearest end. -/
def bound (length : Nat) (i : Int) : Nat :=
  if i < 0 then (i + length).toNat else min i.toNat length

/-- The part of a text from one bound up to another, empty when the bounds are the wrong way round.
-/
def slice (t : Text) (start stop : Int) : Text :=
  (t.take (bound t.length stop)).drop (bound t.length start)

def join (separator : Text) : List Text → Text
  | [] => []
  | [t] => t
  | t :: ts => t ++ separator ++ join separator ts

/-- How many bytes a text takes in UTF-8. -/
def byteSize : Text → Nat
  | [] => 0
  | c :: t => c.utf8Size + byteSize t

theorem byteSize_append (s t : Text) : byteSize (s ++ t) = byteSize s + byteSize t := by
  induction s with
  | nil => rw [List.nil_append, byteSize, Nat.zero_add]
  | cons c s ih => rw [List.cons_append, byteSize, byteSize, ih, Nat.add_assoc]

theorem join_append_singleton (separator : Text) (ts : List Text) (t : Text) :
    join separator (ts ++ [t]) = ts.flatMap (· ++ separator) ++ t := by
  induction ts with
  | nil => rfl
  | cons s ts ih =>
    have hcons : ts ++ [t] ≠ [] := List.append_ne_nil_of_right_ne_nil ts (List.cons_ne_nil t [])
    obtain ⟨u, us, hus⟩ := List.exists_cons_of_ne_nil hcons
    rw [hus] at ih
    rw [List.cons_append, hus, List.flatMap_cons, List.append_assoc, ← ih]
    rfl

theorem bound_of_nonneg {i : Int} (h : 0 ≤ i) (length : Nat) :
    bound length i = min i.toNat length := by
  rw [bound, if_neg (by omega)]

theorem bound_natCast {length n : Nat} (h : n ≤ length) : bound length n = n := by
  rw [bound_of_nonneg (Int.natCast_nonneg n), Int.toNat_natCast, Nat.min_eq_left h]

end Text

/-! ## Texts between separators -/

theorem splitOn_cons_self (separator : Char) (t : Text) :
    (separator :: t).splitOn separator = [] :: t.splitOn separator := by
  rw [List.splitOn_cons_eq_if_modifyHead, if_pos (beq_self_eq_true separator)]

theorem splitOn_cons_of_ne {separator c : Char} (h : c ≠ separator) (t : Text) :
    ∃ first others, t.splitOn separator = first :: others ∧
      (c :: t).splitOn separator = (c :: first) :: others := by
  obtain ⟨first, others, hsplit⟩ := List.exists_cons_of_ne_nil (List.splitOn_ne_nil separator t)
  refine ⟨first, others, hsplit, ?_⟩
  rw [List.splitOn_cons_eq_if_modifyHead, if_neg (by simpa using h), hsplit, List.modifyHead_cons]

/-- What stands between separators holds characters of the text, and no separator. -/
theorem mem_and_ne_of_mem_splitOn {separator : Char} {t part : Text}
    (h : part ∈ t.splitOn separator) : ∀ c ∈ part, c ∈ t ∧ c ≠ separator := by
  induction t generalizing part with
  | nil =>
    rw [List.splitOn_nil, List.mem_singleton] at h
    subst h
    nofun
  | cons d t ih =>
    have hlater {part : Text} (h : part ∈ t.splitOn separator) :
        ∀ c ∈ part, c ∈ d :: t ∧ c ≠ separator :=
      fun c hc => ⟨List.mem_cons_of_mem d (ih h c hc).1, (ih h c hc).2⟩
    by_cases hd : d = separator
    · subst hd
      rw [splitOn_cons_self] at h
      rcases List.mem_cons.1 h with rfl | h
      · nofun
      · exact hlater h
    · obtain ⟨first, others, hsplit, hcons⟩ := splitOn_cons_of_ne hd t
      rw [hsplit] at hlater
      rw [hcons] at h
      rcases List.mem_cons.1 h with rfl | h
      · intro c hc
        rcases List.mem_cons.1 hc with rfl | hc
        · exact ⟨List.mem_cons_self, hd⟩
        · exact hlater List.mem_cons_self c hc
      · exact hlater (List.mem_cons_of_mem first h)

end Pinpoint
