import Mathlib.Data.List.Forall2
import Pinpoint.Command.Run
import Pinpoint.Proofs.Numerals
import Pinpoint.Proofs.Shown
import Pinpoint.Value.Written

/-!
# Highlights on a command line

A highlight is asked for by two integers with a colon in between, or by one that is both. An integer
holds no colon, so the first colon of the text is the one in between. If one of the highlights
cannot be read, the command complains about the first of these before it looks at anything
(`readHighlights_exact`). -/

namespace Pinpoint

/-- What a text asks to be highlighted. -/
inductive DenotesHighlight : Text → Highlight → Prop where
  | point {t : Text} {n : Int} (both : DenotesInteger t n) : DenotesHighlight t ⟨n, n⟩
  | range {a b : Text} {m n : Int} (start : DenotesInteger a m) (stop : DenotesInteger b n) :
      DenotesHighlight (a ++ ':' :: b) ⟨m, n⟩

/-- A highlight as it is written: two numerals with a colon in between. -/
def Highlight.written (h : Highlight) : Text := decimal h.start ++ ':' :: decimal h.stop

/-- A complaint of a command about an argument is a usage error. -/
def Frame.UsageErrors (frame : Frame) : Prop := ∀ e, frame.refuse e = ⟨2, []⟩

/-! ## Texts for highlights -/

theorem not_mem_of_denotesInteger {t : Text} {n : Int} (h : DenotesInteger t n) : ':' ∉ t := by
  obtain ⟨groups, -, hspells⟩ := h
  intro hc
  cases hspells with
  | intro _ numerals signed blank_before blank_after =>
    rcases List.mem_append.1 hc with hc | hc
    · rcases List.mem_append.1 hc with hc | hc
      · exact absurd (blank_before _ hc) (by decide)
      · rcases List.mem_append.1 hc with hc | hc
        · exact absurd (signed.mem _ hc) (by decide)
        · exact absurd (mem_intercalate numerals _ hc) (by decide)
    · exact absurd (blank_after _ hc) (by decide)

theorem readHighlight?_of_colon {a : Text} (ha : ':' ∉ a) (b : Text) :
    readHighlight? (a ++ ':' :: b) = (do
      let m ← readDecimal? a
      let n ← readDecimal? b
      return ⟨m, n⟩) := by
  have hbefore : ∀ c ∈ a, (c != ':') = true := by
    intro c hc
    rw [bne_iff_ne]
    exact ne_of_mem_of_not_mem hc ha
  have hdrop : (a ++ ':' :: b).dropWhile (· != ':') = ':' :: b := by
    rw [List.dropWhile_append_of_pos hbefore, List.dropWhile_cons_of_neg (by decide)]
  have htake : (a ++ ':' :: b).takeWhile (· != ':') = a := by
    rw [List.takeWhile_append_of_pos hbefore, List.takeWhile_cons_of_neg (by decide),
      List.append_nil]
  simp only [readHighlight?, hdrop, htake]

theorem readHighlight?_of_no_colon {t : Text} (ht : ':' ∉ t) :
    readHighlight? t = (readDecimal? t).map fun n => ⟨n, n⟩ := by
  have hdrop : t.dropWhile (· != ':') = [] := by
    rw [List.dropWhile_eq_nil_iff]
    intro c hc
    rw [bne_iff_ne]
    exact ne_of_mem_of_not_mem hc ht
  simp only [readHighlight?, hdrop]

theorem readHighlight?_eq_some_iff {t : Text} {h : Highlight} :
    readHighlight? t = some h ↔ DenotesHighlight t h := by
  constructor
  · intro hread
    by_cases hcolon : ':' ∈ t
    · obtain ⟨a, b, rfl, ha⟩ := List.eq_append_cons_of_mem hcolon
      rw [readHighlight?_of_colon ha] at hread
      obtain ⟨m, hm, hread⟩ := Option.bind_eq_some_iff.1 hread
      obtain ⟨n, hn, hread⟩ := Option.bind_eq_some_iff.1 hread
      cases hread
      exact .range (readDecimal?_eq_some_iff.1 hm) (readDecimal?_eq_some_iff.1 hn)
    · rw [readHighlight?_of_no_colon hcolon] at hread
      obtain ⟨n, hn, rfl⟩ := Option.map_eq_some_iff.1 hread
      exact .point (readDecimal?_eq_some_iff.1 hn)
  · intro hdenotes
    cases hdenotes with
    | point both =>
      rw [readHighlight?_of_no_colon (not_mem_of_denotesInteger both),
        readDecimal?_eq_some_iff.2 both]
      rfl
    | range start stop =>
      rw [readHighlight?_of_colon (not_mem_of_denotesInteger start),
        readDecimal?_eq_some_iff.2 start, readDecimal?_eq_some_iff.2 stop]
      rfl

theorem readHighlights_cons (t : Text) (ts : List Text) :
    readHighlights (t :: ts) =
      match readHighlight? t with
      | some h => (readHighlights ts).map (h :: ·)
      | none => .error (.notAHighlight t) := rfl

theorem readHighlights_eq_ok_iff {ts : List Text} {hs : List Highlight} :
    readHighlights ts = .ok hs ↔ List.Forall₂ DenotesHighlight ts hs := by
  induction ts generalizing hs with
  | nil =>
    rw [List.forall₂_nil_left_iff]
    exact ⟨fun h => (Except.ok.inj h).symm, fun h => congrArg Except.ok h.symm⟩
  | cons t ts ih =>
    rw [readHighlights_cons, List.forall₂_cons_left_iff]
    cases ht : readHighlight? t with
    | none =>
      refine ⟨nofun, ?_⟩
      rintro ⟨x, rest, hx, -, -⟩
      rw [readHighlight?_eq_some_iff.2 hx] at ht
      cases ht
    | some h =>
      constructor
      · intro hmap
        obtain ⟨rest, hrest, rfl⟩ := map_eq_ok.1 hmap
        exact ⟨h, rest, readHighlight?_eq_some_iff.1 ht, ih.1 hrest, rfl⟩
      · rintro ⟨x, rest, hx, hrest, rfl⟩
        obtain rfl := Option.some.inj (ht.symm.trans (readHighlight?_eq_some_iff.2 hx))
        exact map_eq_ok.2 ⟨rest, ih.2 hrest, rfl⟩

theorem readHighlights_eq_error_iff {ts : List Text} {e : BadParameter} :
    readHighlights ts = .error e ↔ ∃ before t after, ts = before ++ t :: after ∧
      (∀ u ∈ before, ∃ h, DenotesHighlight u h) ∧ (¬∃ h, DenotesHighlight t h) ∧
      e = .notAHighlight t := by
  induction ts with
  | nil =>
    refine ⟨nofun, ?_⟩
    rintro ⟨before, t, after, hsplit, -⟩
    cases before <;> cases hsplit
  | cons t ts ih =>
    rw [readHighlights_cons]
    cases ht : readHighlight? t with
    | none =>
      have hnot : ¬∃ h, DenotesHighlight t h := by
        rintro ⟨h, hdenotes⟩
        rw [readHighlight?_eq_some_iff.2 hdenotes] at ht
        cases ht
      constructor
      · intro he
        exact ⟨[], t, ts, rfl, nofun, hnot, (Except.error.inj he).symm⟩
      · rintro ⟨before, u, after, hsplit, hbefore, -, rfl⟩
        cases before with
        | nil =>
          obtain ⟨rfl, -⟩ := List.cons.inj hsplit
          rfl
        | cons v before =>
          obtain ⟨rfl, -⟩ := List.cons.inj hsplit
          exact absurd (hbefore _ List.mem_cons_self) hnot
    | some h =>
      have hdenotes := readHighlight?_eq_some_iff.1 ht
      have hmap : (readHighlights ts).map (h :: ·) = .error e ↔ readHighlights ts = .error e := by
        cases readHighlights ts with
        | ok hs => exact ⟨nofun, nofun⟩
        | error e' => rw [Except.map]
      rw [hmap, ih]
      constructor
      · rintro ⟨before, u, after, rfl, hbefore, hrest⟩
        refine ⟨t :: before, u, after, rfl, List.forall_mem_cons.2 ⟨⟨h, hdenotes⟩, hbefore⟩, hrest⟩
      · rintro ⟨before, u, after, hsplit, hbefore, hnot, he⟩
        cases before with
        | nil =>
          obtain ⟨rfl, -⟩ := List.cons.inj hsplit
          exact absurd ⟨h, hdenotes⟩ hnot
        | cons v before =>
          obtain ⟨rfl, rfl⟩ := List.cons.inj hsplit
          exact ⟨before, u, after, rfl, (List.forall_mem_cons.1 hbefore).2, hnot, he⟩

theorem readHighlights_written {hs : List Highlight}
    (h : ∀ x ∈ hs, FewDigits x.start ∧ FewDigits x.stop) :
    readHighlights (hs.map Highlight.written) = .ok hs := by
  rw [readHighlights_eq_ok_iff, List.forall₂_map_left_iff, List.forall₂_same]
  intro x hx
  exact .range (denotesInteger_decimal (h x hx).1) (denotesInteger_decimal (h x hx).2)

theorem readHighlights_decimal {ns : List Int} (h : ∀ n ∈ ns, FewDigits n) :
    readHighlights (ns.map decimal) = .ok (ns.map fun n => ⟨n, n⟩) := by
  rw [readHighlights_eq_ok_iff, List.forall₂_map_left_iff, List.forall₂_map_right_iff,
    List.forall₂_same]
  exact fun n hn => .point (denotesInteger_decimal (h n hn))

/-! ## Command lines -/

namespace World

variable {host : Host} {words : List Text} {a : ShowArguments}
  (hread : host.frame.read words = .ok (.showIssue a))
include hread

theorem runCommand_of_readHighlights_error {e : BadParameter}
    (h : readHighlights a.highlight = .error e) (w : World) (console : Console) (policy : Policy) :
    w.runCommand host words console policy = .unchanged policy (.ok (host.frame.refuse e)) := by
  have hconfig : a.config = .error e := by
    rw [ShowArguments.config, h]
    rfl
  simp only [runCommand, hread, hconfig]

theorem runCommand_of_readHighlights_ok {hs : List Highlight}
    (h : readHighlights a.highlight = .ok hs) : ∃ config : Config, config.highlights = hs ∧
      ∀ (w : World) (console : Console) (policy : Policy),
        w.runCommand host words console policy = w.runShow host config none console policy := by
  refine ⟨⟨a.file, a.offset, a.message, a.severity, hs, a.color, a.quiet⟩, rfl, ?_⟩
  intro w console policy
  have hconfig : a.config = .ok ⟨a.file, a.offset, a.message, a.severity, hs, a.color, a.quiet⟩ := by
    rw [ShowArguments.config, h]
    rfl
  simp only [runCommand, hread, hconfig]

end World

/-- **Highlights are read exactly as they are written.** Each text must be an integer or two with a
colon in between, and stands for one highlight; the numerals of integers are read as these. With any
other text the command that renders an issue ends in a usage error about the first of these,
whatever the files, and leaves the policy alone. -/
theorem readHighlights_exact :
    (∀ hs : List Highlight, (∀ x ∈ hs, FewDigits x.start ∧ FewDigits x.stop) →
      readHighlights (hs.map Highlight.written) = .ok hs) ∧
    (∀ ns : List Int, (∀ n ∈ ns, FewDigits n) →
      readHighlights (ns.map decimal) = .ok (ns.map fun n => ⟨n, n⟩)) ∧
    (∀ ts hs, readHighlights ts = .ok hs ↔ List.Forall₂ DenotesHighlight ts hs) ∧
    (∀ ts e, readHighlights ts = .error e ↔ ∃ before t after, ts = before ++ t :: after ∧
      (∀ u ∈ before, ∃ h, DenotesHighlight u h) ∧ (¬∃ h, DenotesHighlight t h) ∧
      e = .notAHighlight t) ∧
    ∀ (host : Host) (words : List Text) (a : ShowArguments),
      host.frame.read words = .ok (.showIssue a) →
      (host.frame.UsageErrors → (¬∃ hs, readHighlights a.highlight = .ok hs) →
        ∀ (w : World) (console : Console) (policy : Policy),
          w.runCommand host words console policy = ⟨policy, [], .ok ⟨2, []⟩⟩) ∧
      ∀ hs, readHighlights a.highlight = .ok hs → ∃ config : Config, config.highlights = hs ∧
        ∀ (w : World) (console : Console) (policy : Policy),
          w.runCommand host words console policy = w.runShow host config none console policy := by
  refine ⟨fun hs => readHighlights_written, fun ns => readHighlights_decimal,
    fun ts hs => readHighlights_eq_ok_iff, fun ts e => readHighlights_eq_error_iff, ?_⟩
  intro host words a hread
  refine ⟨?_, fun hs => World.runCommand_of_readHighlights_ok hread⟩
  intro husage hnone w console policy
  cases h : readHighlights a.highlight with
  | ok hs => exact absurd ⟨hs, h⟩ hnone
  | error e =>
    rw [World.runCommand_of_readHighlights_error hread h, husage e]
    rfl

/-- A frame for words that ask for an issue at the start of a file, with two highlights. -/
def Frame.ofTwoHighlights : Frame where
  read
    | [_, file, _, message, _, first, _, second] =>
      .ok (.showIssue ⟨file, 0, message, .error, [first, second], none, false⟩)
    | _ => .error ⟨2, []⟩
  refuse _ := ⟨2, []⟩

/-- Highlights with blanks, signs, underscores and digits of another script, and next to them one
with a second colon and one with nothing behind the first. -/
theorem readHighlights_exact_on_command_line :
    let good : List Text := [" -1_0:+٤".toList, "7".toList]
    let bad : List Text := ["1:2:3".toList, "7:".toList]
    let yaml : YamlReader := ⟨fun _ => .ok .null, fun _ => none⟩
    let host : Host := ⟨.ofTwoHighlights, yaml, Value.write nestingLimit⟩
    let words (ts : List Text) : List Text := ["show".toList, ['f'], ['0'], ['m']] ++
      ts.flatMap fun t => ["--highlight".toList, t]
    List.Forall₂ DenotesHighlight good [⟨-10, 4⟩, ⟨7, 7⟩] ∧
      (¬∃ hs, readHighlights bad = .ok hs) ∧
      (∃ a, host.frame.read (words bad) = .ok (.showIssue a) ∧ a.highlight = bad) ∧
      host.frame.UsageErrors ∧
      ∀ (w : World) (console : Console) (policy : Policy),
        w.runCommand host (words bad) console policy = ⟨policy, [], .ok ⟨2, []⟩⟩ := by
  intro good bad yaml host words
  obtain ⟨-, -, hread, -, hcommand⟩ := readHighlights_exact
  have hgood : readHighlights good = .ok [⟨-10, 4⟩, ⟨7, 7⟩] := by decide +kernel
  have hbad : ¬∃ hs, readHighlights bad = .ok hs := by
    have herror : readHighlights bad = .error (.notAHighlight "1:2:3".toList) := by decide +kernel
    rw [herror]
    exact nofun
  have husage : host.frame.UsageErrors := fun _ => rfl
  exact ⟨(hread good _).1 hgood, hbad, ⟨_, rfl, rfl⟩, husage,
    (hcommand host (words bad) _ rfl).1 husage hbad⟩

end Pinpoint
