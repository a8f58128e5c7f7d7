import Pinpoint.Proofs.Sequences
import Pinpoint.Proofs.Shown

/-!
# Paths of styles

A path is read name by name between its dots, and the codes of its names are put around a text with
the first one outermost. So two paths with a dot between them are read as one path exactly if each
of them is a path, and the style that it stands for puts the first one around the second
(`stylePath_composes`). -/

namespace Pinpoint

/-- The parts of a text between its dots. -/
structure Text.DotSeparated (t : Text) (parts : List Text) : Prop where
  some_part : parts ≠ []
  dotless : ∀ part ∈ parts, '.' ∉ part
  joined : List.intercalate ['.'] parts = t

def Text.IsStylePath (t : Text) : Prop := ∃ style, Style.read (.text t) = .ok style

/-- A name that the style registry knows. -/
def Text.IsStyleName (t : Text) : Prop := ∃ c ∈ StyleCode.registry, c.name = t

/-! ## Parts between dots -/

theorem splitOn_append_cons (separator : Char) (s t : Text) :
    (s ++ separator :: t).splitOn separator = s.splitOn separator ++ t.splitOn separator := by
  simp only [List.splitOn_eq_splitOnP]
  exact List.splitOnP_append_cons s t (beq_self_eq_true separator)

theorem Text.dotSeparated_iff {t : Text} {parts : List Text} :
    t.DotSeparated parts ↔ parts = t.splitOn '.' := by
  constructor
  · intro h
    rw [← h.joined, List.splitOn_intercalate '.' h.dotless h.some_part]
  · rintro rfl
    refine ⟨List.splitOn_ne_nil _ _, fun part hpart hdot => ?_, List.intercalate_splitOn '.'⟩
    exact (mem_and_ne_of_mem_splitOn hpart _ hdot).2 rfl

/-! ## Names and their codes -/

theorem exists_find?_iff {name : Text} :
    (∃ c, StyleCode.find? name = some c) ↔ name.IsStyleName := by
  rw [← Option.isSome_iff_exists, StyleCode.find?, List.find?_isSome]
  simp only [beq_iff_eq, Text.IsStyleName]

namespace Style

theorem readNames_eq_ok_iff {path : Text} {names : List Text} {codes : List StyleCode} :
    readNames path names = .ok codes ↔ names.map StyleCode.find? = codes.map some := by
  induction names generalizing codes with
  | nil =>
    rw [readNames, Except.ok.injEq, List.map_nil, eq_comm (a := []), eq_comm (a := []),
      List.map_eq_nil_iff]
  | cons name names ih =>
    rw [readNames, List.map_cons]
    cases StyleCode.find? name with
    | none => cases codes <;> simp
    | some c =>
      simp only [map_eq_ok, ih]
      constructor
      · rintro ⟨others, h, rfl⟩
        rw [h, List.map_cons]
      · intro h
        cases codes with
        | nil => cases h
        | cons d others =>
          obtain ⟨hc, h⟩ := List.cons.inj h
          exact ⟨others, h, by rw [Option.some.inj hc]⟩

theorem exists_readNames_iff {path : Text} {names : List Text} :
    (∃ codes, readNames path names = .ok codes) ↔ ∀ name ∈ names, name.IsStyleName := by
  simp only [readNames_eq_ok_iff, ← exists_find?_iff]
  constructor
  · rintro ⟨codes, h⟩ name hname
    have hmem : StyleCode.find? name ∈ codes.map some := h ▸ List.mem_map_of_mem hname
    obtain ⟨c, -, hc⟩ := List.mem_map.1 hmem
    exact ⟨c, hc.symm⟩
  · intro h
    induction names with
    | nil => exact ⟨[], rfl⟩
    | cons name names ih =>
      obtain ⟨⟨c, hc⟩, hnames⟩ := List.forall_mem_cons.1 h
      obtain ⟨codes, hcodes⟩ := ih hnames
      exact ⟨c :: codes, by rw [List.map_cons, hc, hcodes, List.map_cons]⟩

/-- Paths with a dot between them are read one behind the other. -/
theorem readPath_dot {p q : Text} {codes : List StyleCode} :
    readPath (p ++ '.' :: q) = .ok codes ↔
      ∃ a b, readPath p = .ok a ∧ readPath q = .ok b ∧ codes = a ++ b := by
  simp only [readPath, readNames_eq_ok_iff, splitOn_append_cons, List.map_append]
  constructor
  · intro h
    obtain ⟨a, b, rfl, ha, hb⟩ := List.append_eq_map_iff.1 h
    exact ⟨a, b, ha.symm, hb.symm, rfl⟩
  · rintro ⟨a, b, ha, hb, rfl⟩
    rw [ha, hb, List.map_append]

theorem read_text_eq_ok_iff {t : Text} {style : Option Style} :
    read (.text t) = .ok style ↔ ∃ codes, readPath t = .ok codes ∧ some (.path codes) = style :=
  map_eq_ok

end Style

theorem Text.isStylePath_iff {t : Text} :
    t.IsStylePath ↔ ∃ codes, Style.readPath t = .ok codes := by
  simp only [IsStylePath, Style.read_text_eq_ok_iff]
  constructor
  · rintro ⟨_, codes, h, -⟩
    exact ⟨codes, h⟩
  · rintro ⟨codes, h⟩
    exact ⟨_, codes, h, rfl⟩

/-! ## Styles around styles -/

/-- The codes of two paths nest. An empty text stays empty on both sides, and any other is not empty
either once the second path is around it. -/
theorem Style.wrap_append (a b : List StyleCode) (t : Text) :
    wrap (a ++ b) t = wrap a (wrap b t) := by
  cases t with
  | nil => rfl
  | cons c t => simp [wrap]

theorem Style.stripStyles_wrap (codes : List StyleCode) (t : Text) :
    stripStyles (wrap codes t) = stripStyles t := by
  have hapart : Text.StandsApart [] := nofun
  have h := (wraps_wrap codes t).stripStyles_append hapart
  rwa [List.append_nil, stripStyles_nil, List.append_nil] at h

/-- **Paths compose.** Two texts with a dot between them are a path exactly if both are, and a text
is a path exactly if the registry knows every name between its dots. The style of the whole is that
of the first part around that of the second, and no path leaves a trace once its output is stripped.
-/
theorem stylePath_composes (p q : Text) :
    ((p ++ '.' :: q).IsStylePath ↔ p.IsStylePath ∧ q.IsStylePath) ∧
      (p.IsStylePath ↔ ∃ names, p.DotSeparated names ∧ ∀ name ∈ names, name.IsStyleName) ∧
      (∀ style, Style.read (.text p) = .ok style → ∃ f, style = some f ∧
        ∀ t, ∃ u, f.apply t = .ok u ∧ stripStyles u = stripStyles t) ∧
      ∀ f g, Style.read (.text p) = .ok (some f) → Style.read (.text q) = .ok (some g) →
        ∃ h, Style.read (.text (p ++ '.' :: q)) = .ok (some h) ∧
          ∀ t, h.apply t = g.apply t >>= f.apply := by
  refine ⟨?_, ?_, ?_, ?_⟩
  · simp only [Text.isStylePath_iff, Style.readPath_dot]
    constructor
    · rintro ⟨_, a, b, ha, hb, -⟩
      exact ⟨⟨a, ha⟩, b, hb⟩
    · rintro ⟨⟨a, ha⟩, b, hb⟩
      exact ⟨_, a, b, ha, hb, rfl⟩
  · simp only [Text.isStylePath_iff, Text.dotSeparated_iff, exists_eq_left]
    exact Style.exists_readNames_iff
  · intro style h
    obtain ⟨codes, -, rfl⟩ := Style.read_text_eq_ok_iff.1 h
    exact ⟨_, rfl, fun t => ⟨_, rfl, Style.stripStyles_wrap codes t⟩⟩
  · intro f g hf hg
    obtain ⟨a, ha, hfa⟩ := Style.read_text_eq_ok_iff.1 hf
    obtain ⟨b, hb, hgb⟩ := Style.read_text_eq_ok_iff.1 hg
    cases hfa
    cases hgb
    refine ⟨.path (a ++ b), Style.read_text_eq_ok_iff.2 ⟨_, Style.readPath_dot.2 ?_, rfl⟩, ?_⟩
    · exact ⟨a, b, ha, hb, rfl⟩
    · intro t
      rw [Style.apply, Style.wrap_append]
      rfl

/-- Three names around a text that begins and ends in the middle of a sequence. -/
theorem stylePath_composes_unfinished_text :
    ∃ f g h, Style.read (.text "bgBlue.bold".toList) = .ok (some f) ∧
      Style.read (.text "red".toList) = .ok (some g) ∧
      Style.read (.text "bgBlue.bold.red".toList) = .ok (some h) ∧
      h.apply "[0m\x1b[3".toList =
        .ok "\x1b[44m\x1b[1m\x1b[31m[0m\x1b[3\x1b[39m\x1b[22m\x1b[49m".toList ∧
      (∀ t, ∃ u, h.apply t = .ok u ∧ stripStyles u = stripStyles t) ∧
      ∀ t, h.apply t = g.apply t >>= f.apply := by
  have hf : Style.read (.text "bgBlue.bold".toList) =
      .ok (some (.path [⟨"bgBlue".toList, 44, 49⟩, ⟨"bold".toList, 1, 22⟩])) := rfl
  have hg : Style.read (.text "red".toList) = .ok (some (.path [⟨"red".toList, 31, 39⟩])) := rfl
  obtain ⟨h, hh, happly⟩ := (stylePath_composes _ _).2.2.2 _ _ hf hg
  obtain ⟨_, heq, hstrip⟩ := (stylePath_composes "bgBlue.bold.red".toList []).2.2.1 _ hh
  cases heq
  refine ⟨_, _, h, hf, hg, hh, ?_, hstrip, happly⟩
  rw [happly]
  rfl

end Pinpoint
