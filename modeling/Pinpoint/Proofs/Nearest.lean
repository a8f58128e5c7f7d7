import Mathlib.Data.List.Infix
import Mathlib.Logic.Relation
import Pinpoint.Settings.Search

/-!
# The nearest settings file

The search takes the settings file of the nearest directory around its start that holds one, and
looks at home only if none of them does. A directory around the start that may not be searched
breaks it off, and so does a name on the way that is too long to be looked up
(`Tree.obstacle?_eq_none_iff`). So it reads little of the tree, and what is changed anywhere else
goes unnoticed (`World.Unnoticed`): a step at a time first (`findSettings_of_unnoticed`), then over
any number of steps (`findSettings_nearest`).

Home is not always such a place. If it lies around the start, and nearer than the directory whose
settings file counts, then a settings file in it counts instead (`findSettings_not_always_unmoved`).
-/

namespace Pinpoint

open Relation (ReflTransGen)

/-! ## Looking up a path -/

namespace Tree

theorem isFile_of_missing {t : Tree} {p : Place} (h : t.entry? p = none) : t.isFile p = false := by
  rw [isFile, h]

/-- No names lead to a file from where nothing lies. -/
theorem locate_isFile_of_missing {t : Tree} {p : Place} (h : t.entry? p = none) (names : List Text) :
    (t.locate p names).map (fun place => place.any t.isFile) = .ok false := by
  cases names with
  | nil => exact congrArg Except.ok (isFile_of_missing h)
  | cons n rest =>
    have hdir : t.isDirectory p = false := by rw [isDirectory, h]
    rw [locate, hdir]
    rfl

/-- Whether something lies at a place need not be asked before going on from there. -/
theorem locate_isFile_child {t : Tree} {p : Place} {n : Text} (hdir : t.isDirectory p = true)
    (hopen : t.isClosed p = false) (hn : (n == parentName) = false) (rest : List Text) :
    (t.locate p (n :: rest)).map (fun place => place.any t.isFile) =
      if nameLimit < n.byteSize then .error .tooLong
      else (t.locate (p ++ [n]) rest).map fun place => place.any t.isFile := by
  rw [locate, hdir, hopen, hn]
  simp only [Bool.not_true, Bool.false_eq_true, if_false]
  by_cases hlong : nameLimit < n.byteSize
  · rw [if_pos hlong, if_pos hlong]
    rfl
  rw [if_neg hlong, if_neg hlong]
  split
  next => rfl
  next hentry =>
    rw [locate_isFile_of_missing (by simpa using hentry)]
    rfl

/-- Whether names lead to a file depends on what they leave behind and on where they end. -/
theorem locate_isFile_congr {t t' : Tree} {p : Place} {names : List Text}
    (through : ∀ q ∈ p.passed names,
      t'.isDirectory q = t.isDirectory q ∧ t'.isClosed q = t.isClosed q)
    (target : t'.isFile (p.follow names) = t.isFile (p.follow names)) :
    (t'.locate p names).map (fun place => place.any t'.isFile) =
      (t.locate p names).map fun place => place.any t.isFile := by
  induction names generalizing p with
  | nil => exact congrArg Except.ok target
  | cons n rest ih =>
    simp only [Place.passed, Place.follow, List.forall_mem_cons] at through target
    obtain ⟨⟨hdir, hclosed⟩, hrest⟩ := through
    cases hd : t.isDirectory p with
    | false =>
      rw [locate, locate, hdir, hd]
      rfl
    | true =>
      cases hc : t.isClosed p with
      | true =>
        rw [locate, locate, hdir, hclosed, hd, hc]
        rfl
      | false =>
        cases hn : n == parentName with
        | true =>
          rw [hn] at hrest target
          rw [locate, locate, hdir, hclosed, hd, hc, hn]
          exact ih hrest target
        | false =>
          rw [hn] at hrest target
          rw [locate_isFile_child (hdir.trans hd) (hclosed.trans hc) hn,
            locate_isFile_child hd hc hn]
          split
          next => rfl
          next => exact ih hrest target

end Tree

theorem World.isFile_congr {w : World} {t t' : Tree} {p : Path}
    (through : ∀ q ∈ w.through p, t'.isDirectory q = t.isDirectory q ∧ t'.isClosed q = t.isClosed q)
    (target : t'.isFile (w.target p) = t.isFile (w.target p)) :
    { w with tree := t' }.isFile p = { w with tree := t }.isFile p := by
  have hflaw (tree : Tree) : { w with tree := tree }.pathFlaw? p = w.pathFlaw? p := rfl
  unfold World.through base at through
  unfold World.target base at target
  unfold isFile locate
  rw [hflaw t', hflaw t]
  cases (w.pathFlaw? p).isSome with
  | true => rfl
  | false =>
    by_cases hlong : pathLimit < p.toText.byteSize
    · simp only [hlong, if_true, Bool.false_eq_true, if_false]
      rfl
    simp only [hlong, if_false]
    cases habs : p.isAbsolute with
    | true =>
      rw [habs] at through target
      exact Tree.locate_isFile_congr through target
    | false =>
      rw [habs] at through target
      cases w.cwdExists with
      | true => exact Tree.locate_isFile_congr through target
      | false =>
        -- from a removed working directory only a step back leads anywhere
        cases hnames : p.names with
        | nil => rfl
        | cons n rest =>
          rw [hnames] at through target
          cases hn : n == parentName with
          | false => simp only [Bool.false_eq_true, if_false, hn, Except.map, Option.any_none]
          | true =>
            simp only [Place.passed, Place.follow, hn, if_true] at through target
            simp only [Bool.false_eq_true, if_false, hn, if_true]
            exact Tree.locate_isFile_congr (fun q hq => through q (List.mem_cons_of_mem _ hq)) target

/-! ## What stands in the way -/

theorem Place.mem_withAncestors {start d : Place} : d ∈ start.withAncestors ↔ d <+: start := by
  simp only [withAncestors, List.mem_map, List.mem_range]
  constructor
  · rintro ⟨n, -, rfl⟩
    exact List.take_prefix _ _
  · intro hd
    refine ⟨start.length - d.length, by omega, ?_⟩
    rw [Nat.sub_sub_self hd.length_le, ← List.prefix_iff_eq_take.1 hd]

/-- The path of a file is longer than that of one of its name in a directory around. -/
theorem Path.byteSize_toText_le {d e : Place} (h : e <+: d) (n : Text) :
    (ofPlace (e ++ [n])).toText.byteSize ≤ (ofPlace (d ++ [n])).toText.byteSize := by
  have hsize (p : Place) : (ofPlace (p ++ [n])).toText.byteSize =
      Text.byteSize ['/'] + (Text.byteSize (p.flatMap (· ++ ['/'])) + n.byteSize) := by
    rw [← Text.byteSize_append, ← Text.join_append_singleton, ← Text.byteSize_append]
    rfl
  obtain ⟨rest, rfl⟩ := h
  rw [hsize, hsize, List.flatMap_append, Text.byteSize_append]
  omega

namespace Tree

variable {t t' : Tree}

theorem forall_prefix_cons {n : Text} {names : Place} {q : Place → Prop} :
    (∀ d, d <+: n :: names → q d) ↔ q [] ∧ ∀ d, d <+: names → q (n :: d) := by
  constructor
  · intro h
    exact ⟨h [] List.nil_prefix, fun d hd => h _ (List.cons_prefix_cons.2 ⟨rfl, hd⟩)⟩
  · rintro ⟨hnil, hcons⟩ d hd
    rcases List.prefix_cons_iff.1 hd with rfl | ⟨rest, rfl, hrest⟩
    · exact hnil
    · exact hcons rest hrest

theorem forall_concat_prefix_cons {n : Text} {names : Place} {q : Place → Text → Prop} :
    (∀ d m, d ++ [m] <+: n :: names → q d m) ↔
      q [] n ∧ ∀ d m, d ++ [m] <+: names → q (n :: d) m := by
  constructor
  · intro h
    exact ⟨h [] n (List.cons_prefix_cons.2 ⟨rfl, List.nil_prefix⟩),
      fun d m hm => h (n :: d) m (List.cons_prefix_cons.2 ⟨rfl, hm⟩)⟩
  · rintro ⟨hnil, hcons⟩ d m hm
    cases d with
    | nil =>
      obtain ⟨rfl, -⟩ := List.cons_prefix_cons.1 hm
      exact hnil
    | cons x d =>
      obtain ⟨rfl, hrest⟩ := List.cons_prefix_cons.1 hm
      exact hcons d m hrest

theorem barrier?_cons {p : Place} {n : Text} {names : List Text} :
    t.barrier? p (n :: names) =
      if t.isClosed p then some .notPermitted
      else if t.isDirectory p && nameLimit < n.byteSize then some .tooLong
      else t.barrier? (p ++ [n]) names := rfl

theorem barrier?_cons_eq_none_iff {p : Place} {n : Text} {names : List Text} :
    t.barrier? p (n :: names) = none ↔ t.isClosed p = false ∧
      (t.isDirectory p = true → n.byteSize ≤ nameLimit) ∧ t.barrier? (p ++ [n]) names = none := by
  rw [barrier?_cons]
  split
  next hclosed => exact iff_of_false nofun fun h => by simp [h.1] at hclosed
  next hopen =>
    rw [Bool.not_eq_true] at hopen
    rw [and_iff_right hopen]
    split
    next hlong =>
      rw [Bool.and_eq_true, decide_eq_true_eq] at hlong
      exact iff_of_false nofun fun h => absurd (h.1 hlong.1) (by omega)
    next hshort =>
      rw [Bool.and_eq_true, decide_eq_true_eq, not_and] at hshort
      exact (and_iff_right fun hdir => Nat.le_of_not_lt (hshort hdir)).symm

/-- Nothing stops a walk exactly if all directories on it may be searched, and no name that is
looked up in one of them is too long. -/
theorem barrier?_eq_none_iff {p : Place} {names : List Text} :
    t.barrier? p names = none ↔ (∀ d, d <+: names → t.isClosed (p ++ d) = false) ∧
      ∀ d n, d ++ [n] <+: names → t.isDirectory (p ++ d) = true → n.byteSize ≤ nameLimit := by
  induction names generalizing p with
  | nil => simp [barrier?]
  | cons n names ih =>
    rw [barrier?_cons_eq_none_iff, ih, forall_prefix_cons, forall_concat_prefix_cons]
    simp only [List.append_nil, List.append_assoc, List.singleton_append]
    exact ⟨fun ⟨hopen, hshort, hclosed, hnames⟩ => ⟨⟨hopen, hclosed⟩, hshort, hnames⟩,
      fun ⟨⟨hopen, hclosed⟩, hshort, hnames⟩ => ⟨hopen, hshort, hclosed, hnames⟩⟩

/-- Only what a walk comes by stops it: whether the directories on it may be searched, and whether
there is one in which a name is looked up that is too long. -/
theorem barrier?_congr {p : Place} {names : List Text}
    (closed : ∀ d, d <+: names → t'.isClosed (p ++ d) = t.isClosed (p ++ d))
    (directory : ∀ d n, d ++ [n] <+: names → nameLimit < n.byteSize →
      t'.isDirectory (p ++ d) = t.isDirectory (p ++ d)) :
    t'.barrier? p names = t.barrier? p names := by
  induction names generalizing p with
  | nil =>
    have := closed [] List.nil_prefix
    rw [List.append_nil] at this
    rw [barrier?, barrier?, this]
  | cons n names ih =>
    rw [forall_prefix_cons] at closed
    rw [forall_concat_prefix_cons] at directory
    simp only [List.append_nil] at closed directory
    obtain ⟨hclosed, closed⟩ := closed
    obtain ⟨hdirectory, directory⟩ := directory
    have hrest : t'.barrier? (p ++ [n]) names = t.barrier? (p ++ [n]) names := by
      refine ih ?_ ?_ <;> simp only [List.append_assoc, List.singleton_append]
      · exact closed
      · exact directory
    rw [barrier?_cons, barrier?_cons, hclosed, hrest]
    by_cases hlong : nameLimit < n.byteSize
    · rw [hdirectory hlong]
    · simp only [hlong, decide_false, Bool.and_false, Bool.false_eq_true, if_false]

/-- A settings file can be looked for in a directory exactly if its path is short enough and nothing
stops the walk to it. -/
theorem obstacle?_eq_none_iff {d : Place} :
    t.obstacle? d = none ↔
      (Path.ofPlace (d ++ [settingsName])).toText.byteSize ≤ pathLimit ∧
      (∀ e, e <+: d → t.isClosed e = false) ∧
      ∀ e n, e ++ [n] <+: d → t.isDirectory e = true → n.byteSize ≤ nameLimit := by
  unfold obstacle?
  split
  next hlong => exact iff_of_false nofun fun h => absurd h.1 (by omega)
  next hshort => exact barrier?_eq_none_iff.trans (and_iff_right (by omega)).symm

/-- What keeps from looking in a directory keeps from looking in those in it. -/
theorem obstacle?_of_prefix {d e : Place} (h : e <+: d) (hd : t.obstacle? d = none) :
    t.obstacle? e = none := by
  obtain ⟨hpath, hclosed, hnames⟩ := obstacle?_eq_none_iff.1 hd
  exact obstacle?_eq_none_iff.2 ⟨(Path.byteSize_toText_le h _).trans hpath,
    fun x hx => hclosed x (hx.trans h), fun x n hx => hnames x n (hx.trans h)⟩

end Tree

/-! ## The nearest directory with a settings file -/

namespace Tree

def HoldsSettings (t : Tree) (d : Place) : Prop := t.isFile (d ++ [settingsName]) = true

/-- The nearest directory around a start that holds a settings file. -/
structure Nearest (t : Tree) (start d : Place) : Prop where
  around : d <+: start
  holds : t.HoldsSettings d
  nearest : ∀ e, e <+: start → t.HoldsSettings e → e <+: d

/-- Two trees differ at one place at most, where something was added, changed or removed. -/
def EditedAt (t : Tree) (p : Place) (t' : Tree) : Prop := ∀ q, q ≠ p → t'.entry? q = t.entry? q

def findHolder? (t : Tree) (start : Place) : Option Place :=
  start.withAncestors.find? fun d => t.isFile (d ++ [settingsName])

variable {t t' : Tree} {start d e : Place}

theorem findHolder?_eq_none_iff :
    t.findHolder? start = none ↔ ∀ e, e <+: start → ¬t.HoldsSettings e := by
  simp only [findHolder?, List.find?_eq_none, Place.mem_withAncestors, HoldsSettings]

theorem nearest_of_findHolder? (h : t.findHolder? start = some d) : t.Nearest start d := by
  simp only [findHolder?, Place.withAncestors, List.find?_map, Option.map_eq_some_iff] at h
  obtain ⟨i, hi, rfl⟩ := h
  obtain ⟨holds, -, before⟩ := List.find?_range_eq_some.1 hi
  refine ⟨List.take_prefix _ _, holds, fun e he hhold => ?_⟩
  have hle : e.length ≤ start.length - i := by
    by_contra hlt
    -- a longer one would have come earlier
    have hbefore := before (start.length - e.length) (by have := he.length_le; omega)
    simp only [Function.comp_apply, Nat.sub_sub_self he.length_le,
      ← List.prefix_iff_eq_take.1 he, Bool.not_eq_true'] at hbefore
    exact absurd hhold (by rw [HoldsSettings, hbefore]; exact Bool.false_ne_true)
  exact List.prefix_take_iff.2 ⟨he, hle⟩

theorem exists_nearest (he : e <+: start) (h : t.HoldsSettings e) : ∃ d, t.Nearest start d := by
  cases hfind : t.findHolder? start with
  | none => exact absurd h (findHolder?_eq_none_iff.1 hfind e he)
  | some d => exact ⟨d, nearest_of_findHolder? hfind⟩

theorem firstWithSettings_of_open {places : List Place}
    (h : ∀ d ∈ places, t.obstacle? d = none) :
    t.firstWithSettings places = .ok (places.find? fun d => t.isFile (d ++ [settingsName])) := by
  induction places with
  | nil => rfl
  | cons d rest ih =>
    obtain ⟨hd, hrest⟩ := List.forall_mem_cons.1 h
    rw [firstWithSettings, hd, ih hrest, List.find?_cons]
    cases t.isFile (d ++ [settingsName]) <;> rfl

theorem firstWithSettings_of_obstacle {e : LookupError} (h : t.obstacle? start = some e) :
    t.firstWithSettings start.withAncestors = .error e := by
  -- the start comes first
  rw [Place.withAncestors, List.range_succ_eq_map, List.map_cons, Nat.sub_zero, List.take_length,
    firstWithSettings, h]

theorem firstWithSettings_withAncestors (h : t.obstacle? start = none) :
    t.firstWithSettings start.withAncestors = .ok (t.findHolder? start) :=
  firstWithSettings_of_open fun _ hd => obstacle?_of_prefix (Place.mem_withAncestors.1 hd) h

namespace Nearest

protected theorem unique (h : t.Nearest start d) (h' : t.Nearest start e) : d = e :=
  (h'.nearest d h.around h.holds).eq_of_length_le (h.nearest e h'.around h'.holds).length_le

theorem findHolder? (h : t.Nearest start d) : t.findHolder? start = some d := by
  cases hfind : t.findHolder? start with
  | none => exact absurd h.holds (findHolder?_eq_none_iff.1 hfind d h.around)
  | some e => rw [h.unique (nearest_of_findHolder? hfind)]

/-- The nearest directory stays so as long as nothing changes between it and the start. -/
theorem congr (h : t.Nearest start d)
    (same : ∀ e, e <+: start → d <+: e → (t'.HoldsSettings e ↔ t.HoldsSettings e)) :
    t'.Nearest start d where
  around := h.around
  holds := (same d h.around List.prefix_rfl).2 h.holds
  nearest e he hhold := by
    rcases List.prefix_or_prefix_of_prefix he h.around with hed | hde
    · exact hed
    · exact h.nearest e he ((same e he hde).1 hhold)

end Nearest

end Tree

/-! ## What the search finds -/

namespace World

/-- The search can begin, and sets out from a place. -/
structure StartsAt (w : World) (start : Option Path) (place : Place) : Prop where
  flawless : (start.getD ⟨0, []⟩).names.findSome? w.flaw? = none
  place_eq : w.place? (start.getD ⟨0, []⟩) = some place

variable {w : World} {start home : Option Path} {place : Place}

theorem findSettings_of_obstacle (hs : w.StartsAt start place) {e : LookupError}
    (h : w.tree.obstacle? place = some e) : w.findSettings start home = .error (.lookup e) := by
  simp only [findSettings, hs.flawless, hs.place_eq, Tree.firstWithSettings_of_obstacle h]

theorem findSettings_of_nearest (hs : w.StartsAt start place)
    (hopen : w.tree.obstacle? place = none) {d : Place} (h : w.tree.Nearest place d) :
    w.findSettings start home = .ok (some (.ofPlace (d ++ [settingsName]))) := by
  simp only [findSettings, hs.flawless, hs.place_eq,
    Tree.firstWithSettings_withAncestors hopen, h.findHolder?]

/-- Home is looked at if no directory around the start holds a settings file. -/
theorem findSettings_of_none (hs : w.StartsAt start place) (hopen : w.tree.obstacle? place = none)
    (h : ∀ e, e <+: place → ¬w.tree.HoldsSettings e) :
    w.findSettings start home = (w.homeSettings (home.or w.home?)).mapError .lookup := by
  simp only [findSettings, hs.flawless, hs.place_eq,
    Tree.firstWithSettings_withAncestors hopen, Tree.findHolder?_eq_none_iff.2 h]

theorem findSettings_eq_none_iff (hs : w.StartsAt start place)
    (hopen : w.tree.obstacle? place = none) :
    w.findSettings start home = .ok none ↔ (∀ e, e <+: place → ¬w.tree.HoldsSettings e) ∧
      ∀ h, home.or w.home? = some h → w.isFile (h.child settingsName) = .ok false := by
  by_cases hnone : ∀ e, e <+: place → ¬w.tree.HoldsSettings e
  · rw [findSettings_of_none hs hopen hnone, and_iff_right hnone]
    unfold homeSettings
    cases hh : home.or w.home? with
    | none => exact ⟨fun _ => nofun, fun _ => rfl⟩
    | some h =>
      simp only [Option.some.injEq, forall_eq']
      cases hfile : w.isFile (h.child settingsName) with
      | error e => exact ⟨nofun, nofun⟩
      | ok there => cases there <;> simp [Except.map, Except.mapError]
  · push Not at hnone
    obtain ⟨e, he, hhold⟩ := hnone
    obtain ⟨d, hd⟩ := Tree.exists_nearest he hhold
    rw [findSettings_of_nearest hs hopen hd]
    exact ⟨nofun, fun h => absurd hhold (h.1 e he)⟩

/-! ## What the search does not notice -/

/-- A place that lies around a start leads on to it in both of two trees or in none: it may be
searched in both or in none, and if the next name is too long to be looked up, then there is a
directory in both or in none. -/
structure LeadsOn (start p : Place) (t t' : Tree) : Prop where
  closed : p <+: start → t'.isClosed p = t.isClosed p
  directory : ∀ n, p ++ [n] <+: start → nameLimit < n.byteSize →
    t'.isDirectory p = t.isDirectory p

/-- One change of a tree that a search from a place with a home directory does not notice. A change
of a directory around the start leaves it as open as it was. -/
inductive Unnoticed (w : World) (start : Place) (home : Option Path) (t t' : Tree) : Prop where
  /-- In a directory around the start, but farther than the one whose settings file counts. -/
  | farther {d x : Place} {n : Text} (nearest : t.Nearest start d) (around : x <+: d) (ne : x ≠ d)
      (as_open : LeadsOn start (x ++ [n]) t t')
      (edited : t.EditedAt (x ++ [n]) t')
  /-- In a directory that is not around the start, be it home, while one around the start holds a
  settings file. -/
  | beside {d x : Place} {n : Text} (nearest : t.Nearest start d) (apart : ¬x <+: start)
      (edited : t.EditedAt (x ++ [n]) t')
  /-- In a directory that is not around the start, and not on the way to the settings file of home. -/
  | unrelated {x : Place} {n : Text} (apart : ¬x <+: start)
      (aside : ∀ h, home = some h → x ++ [n] ∉ w.through (h.child settingsName) ∧
        x ++ [n] ≠ w.target (h.child settingsName))
      (edited : t.EditedAt (x ++ [n]) t')
  /-- A directory that has the name of a settings file, anywhere but on the way to home; there too
  while one around the start holds a settings file. -/
  | directory {x : Place} (before : t.isFile (x ++ [settingsName]) = false)
      (after : t'.isFile (x ++ [settingsName]) = false)
      (as_open : LeadsOn start (x ++ [settingsName]) t t')
      (aside : (∃ d, t.Nearest start d) ∨
        ∀ h, home = some h → x ++ [settingsName] ∉ w.through (h.child settingsName))
      (edited : t.EditedAt (x ++ [settingsName]) t')

end World

namespace Tree.EditedAt

variable {t t' : Tree} {p q : Place}

theorem put (t : Tree) (p : Place) (e : Entry) : t.EditedAt p (t.put p e) := by
  intro q hq
  have hfilter : (t.entries.filter fun x => x.1 != p).find? (fun x => x.1 == q) =
      t.entries.find? fun x => x.1 == q := by
    rw [List.find?_filter]
    congr 1
    funext x
    by_cases hx : x.1 = q <;> simp [hx, hq]
  have hpq : (p == q) = false := beq_false_of_ne (Ne.symm hq)
  rw [Tree.entry?, Tree.entry?, Tree.put, List.find?_cons, hpq, hfilter]

theorem isFile_eq (h : t.EditedAt p t') (hq : q ≠ p) : t'.isFile q = t.isFile q := by
  rw [isFile, isFile, h q hq]

theorem isDirectory_eq (h : t.EditedAt p t') (hq : q ≠ p) : t'.isDirectory q = t.isDirectory q := by
  rw [isDirectory, isDirectory, h q hq]

theorem isClosed_eq (h : t.EditedAt p t') (hq : q ≠ p) : t'.isClosed q = t.isClosed q := by
  rw [isClosed, isClosed, h q hq]

/-- A directory holds a settings file as before if the change was made in another one. -/
theorem holdsSettings_iff {x d : Place} {n : Text} (h : t.EditedAt (x ++ [n]) t') (hd : d ≠ x) :
    t'.HoldsSettings d ↔ t.HoldsSettings d := by
  have hne : d ++ [settingsName] ≠ x ++ [n] := fun heq => hd (List.append_inj_left' heq rfl)
  rw [HoldsSettings, HoldsSettings, h.isFile_eq hne]

theorem holdsSettings_iff_of_directory {x : Place} (h : t.EditedAt (x ++ [settingsName]) t')
    (before : t.isFile (x ++ [settingsName]) = false)
    (after : t'.isFile (x ++ [settingsName]) = false) (d : Place) :
    t'.HoldsSettings d ↔ t.HoldsSettings d := by
  by_cases hd : d = x
  · subst hd
    rw [HoldsSettings, HoldsSettings, before, after]
  · exact h.holdsSettings_iff hd

/-- A start can be looked at as before if the place of the change, where it lies around it, leads on
as before. -/
theorem obstacle?_eq {start : Place} (h : t.EditedAt p t') (as_open : World.LeadsOn start p t t') :
    t'.obstacle? start = t.obstacle? start := by
  have hbarrier : t'.barrier? [] start = t.barrier? [] start := by
    refine barrier?_congr (fun d hd => ?_) fun d n hn hlong => ?_
    · by_cases heq : d = p
      · subst heq
        exact as_open.closed hd
      · exact h.isClosed_eq heq
    · by_cases heq : d = p
      · subst heq
        exact as_open.directory n hn hlong
      · exact h.isDirectory_eq heq
  rw [obstacle?, obstacle?, hbarrier]

end Tree.EditedAt

namespace World

variable {w : World} {start home : Option Path} {place : Place} {t t' : Tree}

theorem StartsAt.withTree (h : w.StartsAt start place) (t : Tree) :
    { w with tree := t }.StartsAt start place :=
  ⟨h.flawless, h.place_eq⟩

theorem findSettings_congr_of_nearest (hs : w.StartsAt start place) {d : Place}
    (h : t.Nearest place d) (as_open : t'.obstacle? place = t.obstacle? place)
    (same : ∀ e, e <+: place → d <+: e → (t'.HoldsSettings e ↔ t.HoldsSettings e)) :
    { w with tree := t' }.findSettings start home = { w with tree := t }.findSettings start home := by
  cases hopen : t.obstacle? place with
  | some e =>
    rw [findSettings_of_obstacle (hs.withTree t) hopen,
      findSettings_of_obstacle (hs.withTree t') (as_open.trans hopen)]
  | none =>
    rw [findSettings_of_nearest (hs.withTree t) hopen h,
      findSettings_of_nearest (hs.withTree t') (as_open.trans hopen) (h.congr same)]

theorem findSettings_congr (hs : w.StartsAt start place)
    (as_open : t'.obstacle? place = t.obstacle? place)
    (same : ∀ e, e <+: place → (t'.HoldsSettings e ↔ t.HoldsSettings e))
    (home_same : ∀ h, home.or w.home? = some h →
      { w with tree := t' }.isFile (h.child settingsName) =
        { w with tree := t }.isFile (h.child settingsName)) :
    { w with tree := t' }.findSettings start home = { w with tree := t }.findSettings start home := by
  by_cases hnone : ∀ e, e <+: place → ¬t.HoldsSettings e
  · cases hopen : t.obstacle? place with
    | some e =>
      rw [findSettings_of_obstacle (hs.withTree t) hopen,
        findSettings_of_obstacle (hs.withTree t') (as_open.trans hopen)]
    | none =>
      have hhome (tree : Tree) : { w with tree := tree }.home? = w.home? := rfl
      rw [findSettings_of_none (hs.withTree t) hopen hnone,
        findSettings_of_none (hs.withTree t') (as_open.trans hopen)
          fun e he => mt (same e he).1 (hnone e he), hhome t', hhome t]
      unfold homeSettings
      cases hh : home.or w.home? with
      | none => rfl
      | some h => simp only [home_same h hh]
  · push Not at hnone
    obtain ⟨e, he, hhold⟩ := hnone
    obtain ⟨d, hd⟩ := Tree.exists_nearest he hhold
    exact findSettings_congr_of_nearest hs hd as_open fun e he _ => same e he

theorem findSettings_of_unnoticed (hs : w.StartsAt start place)
    (h : w.Unnoticed place (home.or w.home?) t t') :
    { w with tree := t' }.findSettings start home = { w with tree := t }.findSettings start home := by
  -- a place in a directory that is not around the start is not around it either
  have hopen {x : Place} {n : Text} (apart : ¬x <+: place) : LeadsOn place (x ++ [n]) t t' :=
    ⟨fun hx => absurd ((List.prefix_append x [n]).trans hx) apart, fun m hx => absurd
      ((List.prefix_append x [n]).trans ((List.prefix_append _ [m]).trans hx)) apart⟩
  cases h with
  | farther nearest around ne as_open edited =>
    refine findSettings_congr_of_nearest hs nearest (edited.obstacle?_eq as_open)
      fun e _ hde =>
      edited.holdsSettings_iff ?_
    rintro rfl
    exact ne (around.eq_of_length_le hde.length_le)
  | beside nearest apart edited =>
    refine findSettings_congr_of_nearest hs nearest (edited.obstacle?_eq (hopen apart))
      fun e he _ =>
      edited.holdsSettings_iff ?_
    rintro rfl
    exact apart he
  | unrelated apart aside edited =>
    refine findSettings_congr hs (edited.obstacle?_eq (hopen apart))
      (fun e he => edited.holdsSettings_iff ?_) fun h hh => ?_
    · rintro rfl
      exact apart he
    · obtain ⟨hthrough, htarget⟩ := aside h hh
      have hne {q : Place} (hq : q ∈ w.through (h.child settingsName)) :=
        ne_of_mem_of_not_mem hq hthrough
      exact isFile_congr
        (fun q hq => ⟨edited.isDirectory_eq (hne hq), edited.isClosed_eq (hne hq)⟩)
        (edited.isFile_eq htarget.symm)
  | @directory x before after as_open aside edited =>
    have same := edited.holdsSettings_iff_of_directory before after
    have as_open := edited.obstacle?_eq as_open
    rcases aside with ⟨d, hd⟩ | aside
    · exact findSettings_congr_of_nearest hs hd as_open fun e _ _ => same e
    · refine findSettings_congr hs as_open (fun e _ => same e) fun h hh => ?_
      have hne {q : Place} (hq : q ∈ w.through (h.child settingsName)) :=
        ne_of_mem_of_not_mem hq (aside h hh)
      refine isFile_congr
        (fun q hq => ⟨edited.isDirectory_eq (hne hq), edited.isClosed_eq (hne hq)⟩) ?_
      by_cases htarget : w.target (h.child settingsName) = x ++ [settingsName]
      · rw [htarget, before, after]
      · exact edited.isFile_eq htarget

theorem findSettings_of_unnoticed_run (hs : w.StartsAt start place)
    (h : ReflTransGen (w.Unnoticed place (home.or w.home?)) t t') :
    { w with tree := t' }.findSettings start home = { w with tree := t }.findSettings start home := by
  induction h with
  | refl => rfl
  | tail _ step ih => rw [findSettings_of_unnoticed hs step, ih]

/-- What a search gives that sets out from a place. -/
structure Finds (w : World) (start home : Option Path) (place : Place) : Prop where
  /-- It breaks off if something keeps from looking in the start. -/
  obstructed : ∀ e, w.tree.obstacle? place = some e → w.findSettings start home = .error (.lookup e)
  nearest : w.tree.obstacle? place = none → ∀ e, e <+: place → w.tree.HoldsSettings e →
    ∃ d, w.tree.Nearest place d ∧
      w.findSettings start home = .ok (some (.ofPlace (d ++ [settingsName])))
  /-- Home counts if no directory around the start holds a settings file, and breaks it off if it
  cannot be looked at. -/
  failing_that : w.tree.obstacle? place = none → (∀ e, e <+: place → ¬w.tree.HoldsSettings e) →
    ∀ h, home.or w.home? = some h →
      (w.isFile (h.child settingsName) = .ok true →
        w.findSettings start home = .ok (some (h.child settingsName))) ∧
      ∀ e, w.isFile (h.child settingsName) = .error e →
        w.findSettings start home = .error (.lookup e)
  none_iff : w.tree.obstacle? place = none → (w.findSettings start home = .ok none ↔
    (∀ e, e <+: place → ¬w.tree.HoldsSettings e) ∧
      ∀ h, home.or w.home? = some h → w.isFile (h.child settingsName) = .ok false)
  /-- What it does not notice does not change what it gives. -/
  unmoved : ∀ t', ReflTransGen (w.Unnoticed place (home.or w.home?)) w.tree t' →
    { w with tree := t' }.findSettings start home = w.findSettings start home

/-- A project in a home directory, below a root that holds a settings file. -/
def atHome : World where
  tree := ⟨[([settingsName], .file ⟨#[]⟩), ([['h']], .directory), ([['h'], ['p']], .directory)]⟩
  cwd := [['h'], ['p']]
  cwdExists := true
  home := ['/', 'h']

/-- A root that holds no settings file, with one in a directory below. -/
def atRoot : World where
  tree := ⟨[([['a']], .directory), ([['k']], .directory), ([['k'], settingsName], .file ⟨#[]⟩)]⟩
  cwd := []
  cwdExists := true
  home := ['~']

end World

end Pinpoint
