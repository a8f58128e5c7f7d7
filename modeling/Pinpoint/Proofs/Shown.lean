import Mathlib.Data.List.DropRight
import Pinpoint.Proofs.Bounds
import Pinpoint.Issue.Basic

/-!
# The line that an issue shows

An issue shows the physical line of its offset without the blanks at its end. Every shown character
stands in the text at the same distance from the start of the line, and what the offset lies behind
of what is shown are blanks.
-/

namespace Pinpoint

/-! ## Trimming the end of a list -/

theorem getElem?_rdropWhile {α : Type} {p : α → Bool} {l : List α} {n : Nat}
    (h : n < (l.rdropWhile p).length) : (l.rdropWhile p)[n]? = l[n]? := by
  have happend := List.rdropWhile_append_rtakeWhile (p := p) (l := l)
  conv => rhs; rw [← happend]
  rw [List.getElem?_append_left h]

theorem of_length_rdropWhile_le {α : Type} {p : α → Bool} {l : List α} {n : Nat}
    (h : (l.rdropWhile p).length ≤ n) {x : α} (hx : l[n]? = some x) : p x = true := by
  rw [← List.rdropWhile_append_rtakeWhile (p := p) (l := l), List.getElem?_append_right h] at hx
  exact List.mem_rtakeWhile_imp (List.mem_of_getElem? hx)

theorem Text.trimEnd_eq (t : Text) : t.trimEnd = t.rdropWhile isBlank := rfl

theorem Text.length_trimEnd_le (t : Text) : t.trimEnd.length ≤ t.length :=
  (List.rdropWhile_prefix isBlank t).length_le

/-! ## The line between two offsets -/

theorem Text.slice_natCast {t : Text} {a b : Nat} (ha : a ≤ t.length) (hb : b ≤ t.length) :
    t.slice a b = (t.take b).drop a := by
  rw [slice, bound_natCast ha, bound_natCast hb]

/-- What is shown of the line from `a` to `b`. -/
def Text.shownBetween (t : Text) (a b : Nat) : Text := Text.trimEnd ((t.take b).drop a)

theorem length_shownBetween_le (t : Text) (a b : Nat) :
    (t.shownBetween a b).length ≤ t.length - a := by
  have h := Text.length_trimEnd_le ((t.take b).drop a)
  simp only [List.length_drop, List.length_take] at h
  unfold Text.shownBetween
  omega

theorem getElem?_shownBetween {t : Text} {a b n : Nat} (h : n < (t.shownBetween a b).length) :
    (t.shownBetween a b)[n]? = t[a + n]? := by
  have hlen := Text.length_trimEnd_le ((t.take b).drop a)
  have hlt := Nat.lt_of_lt_of_le h hlen
  simp only [List.length_drop, List.length_take] at hlt
  rw [Text.shownBetween, Text.trimEnd_eq, getElem?_rdropWhile h, List.getElem?_drop,
    List.getElem?_take, if_pos (by omega)]

/-- Between the last shown character and the end of the line there are only blanks. -/
theorem isBlank_of_length_shownBetween_le {t : Text} {a b n : Nat} {c : Char}
    (h : a + (t.shownBetween a b).length ≤ n) (hn : n < b) (hc : t[n]? = some c) :
    isBlank c = true := by
  have hle : (((t.take b).drop a).rdropWhile isBlank).length ≤ n - a := by
    have : (((t.take b).drop a).rdropWhile isBlank).length = (t.shownBetween a b).length := rfl
    omega
  apply of_length_rdropWhile_le hle
  rw [List.getElem?_drop, show a + (n - a) = n by omega, List.getElem?_take, if_pos hn, hc]

theorem extractLine_textInfo {t : Text} {a c : Nat} {p : LineColumn} (h : a + c ≤ t.length)
    (hp : p.column = c) :
    extractLine (.text t) (textInfo t (a + c : Nat) p) = t.shownBetween a (t.lineEnd (a + c)) := by
  have hstart : ((a + c : Nat) : Int) - p.column = a := by omega
  have hend := t.lineEnd_le_length (a + c)
  simp only [extractLine, textInfo, hstart, Int.toNat_natCast]
  rw [Text.slice_natCast (by omega) hend]
  rfl

def Source.content : Source → Text
  | .text t => t
  | .line t => t

theorem length_extractLine_le (s : Source) (info : LineInfo) :
    (extractLine s info).length ≤ s.content.length := by
  cases s with
  | text t =>
    refine Nat.le_trans (Text.length_trimEnd_le _) ?_
    simp only [Text.slice, List.length_drop, List.length_take, Source.content]
    omega
  | line t => exact t.length_trimEnd_le

/-! ## The issue at a location -/

theorem bind_eq_ok {ε α β : Type} {x : Except ε α} {f : α → Except ε β} {b : β} :
    x >>= f = .ok b ↔ ∃ a, x = .ok a ∧ f a = .ok b := by
  cases x with
  | error e => exact ⟨nofun, nofun⟩
  | ok a => exact ⟨fun h => ⟨a, rfl, h⟩, fun ⟨_, h, hb⟩ => Except.ok.inj h ▸ hb⟩

theorem map_eq_ok {ε α β : Type} {x : Except ε α} {f : α → β} {b : β} :
    x.map f = .ok b ↔ ∃ a, x = .ok a ∧ f a = b := by
  cases x with
  | error e => exact ⟨nofun, nofun⟩
  | ok a =>
    rw [Except.map, Except.ok.injEq]
    exact ⟨fun h => ⟨a, rfl, h⟩, fun ⟨_, ha, h⟩ => Except.ok.inj ha ▸ h⟩

theorem Issue.create_eq_ok {source : Value} {file : Text} {location : Value} {message : Text}
    {severity : Severity} {i : Issue}
    (h : create source file location message severity = .ok i) :
    ∃ s l info, Source.read source = .ok s ∧ Location.read location s.fullText? = .ok l ∧
      resolve s l = .ok info ∧
      i = ⟨severity, file, message, extractLine s info, info, []⟩ := by
  obtain ⟨s, hs, h⟩ := bind_eq_ok.1 h
  obtain ⟨l, hl, h⟩ := bind_eq_ok.1 h
  obtain ⟨info, hinfo, h⟩ := bind_eq_ok.1 h
  exact ⟨s, l, info, hs, hl, hinfo, (Except.ok.inj h).symm⟩

theorem Issue.create_of_resolve {source location : Value} {s : Source} {l : Location}
    {info : LineInfo} (hs : Source.read source = .ok s)
    (hl : Location.read location s.fullText? = .ok l) (hinfo : resolve s l = .ok info)
    (file message : Text) (severity : Severity) :
    create source file location message severity =
      .ok ⟨severity, file, message, extractLine s info, info, []⟩ := by
  simp only [create, make, hs, hl, hinfo, bind, Except.bind]
  rfl

def Issue.addHighlights (i : Issue) (hs : List Highlight) : Issue := hs.foldl addHighlight i

theorem Issue.addHighlights_eq (i : Issue) (hs : List Highlight) :
    i.addHighlights hs = { i with highlights := i.highlights ++ hs } := by
  induction hs generalizing i with
  | nil =>
    rw [List.append_nil]
    rfl
  | cons h hs ih =>
    have hcons : i.addHighlights (h :: hs) = (i.addHighlight h).addHighlights hs := rfl
    rw [hcons, ih]
    simp only [addHighlight, List.append_assoc, List.singleton_append]

end Pinpoint
