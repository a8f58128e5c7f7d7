import Pinpoint.Settings.Load

/-!
# When settings load

Loading settings should never fail: a file that is missing or makes no sense is worth a remark and
settles nothing. So it is for every file that the reader of YAML calls malformed, and for every
value that is no mapping. But the reader may break off in another way, as it does at a date that is
none, and a path may be none that a file can have (`loadSettings_outcome`,
`loadSettings_not_always_ok`). -/

namespace Pinpoint

def Value.flag? : Value → Option Bool
  | .scalar (.bool b) => some b
  | _ => none

def Value.entries : Value → List (Scalar × Value)
  | .mapping entries => entries
  | _ => []

/-- Whether the value of a settings file can be taken for settings: it is null or a mapping. -/
def Value.Settles (v : Value) : Prop := v = .null ∨ ∃ entries, v = .mapping entries

/-- The settings that such a value amounts to. -/
def Settings.stated (p : Path) (v : Value) : Settings where
  colorize := (v.field "colorize".toList).flag?
  colors := (v.field "colors".toList).entries
  path := some p

namespace World

/-- The settings file that counts: the given one, or else the one that is found. -/
def settingsFile? (w : World) (path : Option Path) : Option Path :=
  match path with
  | some p => some p
  | none => (w.findSettings none none).toOption.join

def Reads (w : World) (yaml : YamlReader) (p : Path) (result : Except ReadError Value) : Prop :=
  ∃ bytes, w.content? p = some bytes ∧ yaml.readBytes bytes = some result

/-- What makes loading settings fail. -/
inductive FailsToLoad (w : World) (yaml : YamlReader) (p : Path) : LoadError → Prop where
  | badPath {f : PathFlaw} (flaw : w.pathFlaw? p = some f) : FailsToLoad w yaml p (.badPath f)
  | yaml {f : Fault} (reads : w.Reads yaml p (.error (.fault f))) : FailsToLoad w yaml p (.yaml f)

end World

theorem colorizeOf_fst (p : Path) (v : Value) : (colorizeOf p v).1 = v.flag? := by
  cases v with
  | scalar s => cases s <;> rfl
  | _ => rfl

theorem colorsOf_fst (p : Path) (v : Value) : (colorsOf p v).1 = v.entries := by
  unfold colorsOf
  split
  next hfalse =>
    cases v with
    | mapping entries =>
      -- A mapping that counts as nothing has no entries.
      cases entries with
      | nil => rfl
      | cons e rest => cases hfalse
    | _ => rfl
  next =>
    cases v <;> rfl

theorem ofValue_of_settles {v : Value} (h : v.Settles) (p : Path) :
    (Settings.ofValue p v).1 = .stated p v := by
  obtain rfl | ⟨entries, rfl⟩ := h
  · rfl
  · rw [Settings.ofValue, Settings.stated, ← colorizeOf_fst p, ← colorsOf_fst p]

theorem ofValue_of_not_settles {v : Value} (h : ¬ v.Settles) (p : Path) :
    (Settings.ofValue p v).1 = .empty := by
  unfold Settings.ofValue
  split
  · exact absurd (.inl rfl) h
  · exact absurd (.inr ⟨_, rfl⟩) h
  · rfl

namespace World

variable {w : World} {yaml : YamlReader} {p : Path}

def loadFile (w : World) (yaml : YamlReader) (p : Path) : Except LoadError (Settings × List Notice) :=
  match w.pathFlaw? p with
  | some f => .error (.badPath f)
  | none => Settings.ofContent yaml p (w.content? p)

theorem pathFlaw?_of_content? {bytes : ByteArray} (h : w.content? p = some bytes) :
    w.pathFlaw? p = none := by
  unfold content? locate at h
  cases hflaw : w.pathFlaw? p with
  | none => rfl
  | some f =>
    rw [hflaw, Option.isSome_some, if_pos rfl] at h
    cases h

theorem loadFile_of_reads {result : Except ReadError Value} (h : w.Reads yaml p result) :
    w.loadFile yaml p = Settings.ofReading p result := by
  obtain ⟨bytes, hcontent, hread⟩ := h
  rw [loadFile, pathFlaw?_of_content? hcontent, hcontent]
  simp only [Settings.ofContent, Option.bind_some, hread]

theorem loadFile_of_not_reads (hflaw : w.pathFlaw? p = none) (h : ∀ result, ¬w.Reads yaml p result) :
    w.loadFile yaml p = .ok (.empty, [.unreadable p]) := by
  have hnone : (w.content? p).bind yaml.readBytes = none := by
    refine Option.eq_none_iff_forall_ne_some.2 fun result hresult => ?_
    exact h result (Option.bind_eq_some_iff.1 hresult)
  simp only [loadFile, hflaw, Settings.ofContent, hnone]

theorem Reads.unique {r r' : Except ReadError Value} (h : w.Reads yaml p r)
    (h' : w.Reads yaml p r') : r = r' := by
  obtain ⟨bytes, hcontent, hread⟩ := h
  obtain ⟨bytes', hcontent', hread'⟩ := h'
  obtain rfl := Option.some.inj (hcontent.symm.trans hcontent')
  exact Option.some.inj (hread.symm.trans hread')

/-- A file whose path is none, a file that the reader makes something of, or a file of which there
is nothing to be made. -/
theorem loadFile_cases (w : World) (yaml : YamlReader) (p : Path) :
    (∃ f, w.pathFlaw? p = some f ∧ (∀ result, ¬w.Reads yaml p result) ∧
      w.loadFile yaml p = .error (.badPath f)) ∨
    (w.pathFlaw? p = none ∧ ∃ result, w.Reads yaml p result) ∨
    (w.pathFlaw? p = none ∧ (∀ result, ¬w.Reads yaml p result) ∧
      w.loadFile yaml p = .ok (.empty, [.unreadable p])) := by
  cases hflaw : w.pathFlaw? p with
  | some f =>
    refine .inl ⟨f, rfl, ?_, by rw [loadFile, hflaw]⟩
    rintro result ⟨bytes, hcontent, -⟩
    rw [pathFlaw?_of_content? hcontent] at hflaw
    cases hflaw
  | none =>
    by_cases hreads : ∃ result, w.Reads yaml p result
    · exact .inr (.inl ⟨rfl, hreads⟩)
    · have hnot : ∀ result, ¬w.Reads yaml p result := fun result h => hreads ⟨result, h⟩
      exact .inr (.inr ⟨rfl, hnot, loadFile_of_not_reads hflaw hnot⟩)

theorem loadFile_eq_error_iff {e : LoadError} :
    w.loadFile yaml p = .error e ↔ w.FailsToLoad yaml p e := by
  rcases loadFile_cases w yaml p with ⟨f, hflaw, hnot, hload⟩ | ⟨hflaw, result, hreads⟩ |
    ⟨hflaw, hnot, hload⟩
  · rw [hload]
    constructor
    · rintro ⟨⟩
      exact .badPath hflaw
    · rintro (⟨hflaw'⟩ | ⟨hreads⟩)
      · rw [Option.some.inj (hflaw.symm.trans hflaw')]
      · exact absurd hreads (hnot _)
  · rw [loadFile_of_reads hreads]
    constructor
    · intro h
      unfold Settings.ofReading at h
      split at h
      · cases h
      · cases h
      · cases h
        exact .yaml hreads
    · rintro (⟨hflaw'⟩ | ⟨hreads'⟩)
      · rw [hflaw] at hflaw'
        cases hflaw'
      · rw [hreads.unique hreads']
        rfl
  · rw [hload]
    refine ⟨nofun, ?_⟩
    rintro (⟨hflaw'⟩ | ⟨hreads⟩)
    · rw [hflaw] at hflaw'
      cases hflaw'
    · exact absurd hreads (hnot _)

theorem loadFile_eq_ok {s : Settings} {notices : List Notice}
    (h : w.loadFile yaml p = .ok (s, notices)) :
    (∃ v, w.Reads yaml p (.ok v) ∧ v.Settles ∧ s = .stated p v) ∨
      (∀ v, w.Reads yaml p (.ok v) → ¬v.Settles) ∧ s = .empty := by
  rcases loadFile_cases w yaml p with ⟨f, -, -, hload⟩ | ⟨-, result, hreads⟩ | ⟨-, hnot, hload⟩
  · rw [hload] at h
    cases h
  · rw [loadFile_of_reads hreads] at h
    cases result with
    | ok v =>
      have hs : s = (Settings.ofValue p v).1 := congrArg Prod.fst (Except.ok.inj h).symm
      by_cases hv : v.Settles
      · exact .inl ⟨v, hreads, hv, hs.trans (ofValue_of_settles hv p)⟩
      · refine .inr ⟨fun v' hv' => ?_, hs.trans (ofValue_of_not_settles hv p)⟩
        rwa [← Except.ok.inj (hreads.unique hv')]
    | error e =>
      cases e with
      | malformed =>
        cases h
        exact .inr ⟨fun v hv => (nomatch hreads.unique hv), rfl⟩
      | fault f => cases h
  · rw [hload] at h
    cases h
    exact .inr ⟨fun v hv => absurd hv (hnot _), rfl⟩

/-- The search sets out from the working directory, and there is nothing wrong with no name at all.
-/
theorem findSettings_ne_badStart {home : Option Path} {f : PathFlaw} :
    w.findSettings none home ≠ .error (.badStart f) := by
  intro h
  simp only [findSettings, Option.getD_none, List.findSome?_nil] at h
  split at h
  next hf => cases hf
  next => cases h
  next =>
    split at h
    · cases h
    · cases h
    · cases hhome : w.homeSettings (home.or w.home?) with
      | ok found =>
        rw [hhome] at h
        cases h
      | error e =>
        rw [hhome] at h
        cases h

theorem loadSettings_cases (w : World) (yaml : YamlReader) (path : Option Path) :
    (w.settingsFile? path = none ∧ ∃ notices, w.loadSettings yaml path = .ok (.empty, notices)) ∨
    ∃ p, w.settingsFile? path = some p ∧ w.loadSettings yaml path = w.loadFile yaml p := by
  cases path with
  | some p => exact .inr ⟨p, rfl, rfl⟩
  | none =>
    unfold loadSettings settingsFile?
    dsimp only
    cases hfind : w.findSettings none none with
    | error e =>
      cases e with
      | badStart f => exact absurd hfind findSettings_ne_badStart
      | noWorkingDirectory => exact .inl ⟨rfl, _, rfl⟩
      | lookup e => exact .inl ⟨rfl, _, rfl⟩
    | ok found =>
      cases found with
      | none => exact .inl ⟨rfl, _, rfl⟩
      | some p => exact .inr ⟨p, rfl, rfl⟩

/-- **Settings that load are those of the file that counts, if that can be taken for settings, and
empty otherwise.** Whatever reads YAML, nothing keeps them from loading but a path that no file can
have and a reader that breaks off without calling the file malformed. -/
theorem loadSettings_outcome (w : World) (yaml : YamlReader) (path : Option Path) :
    (∀ e, w.loadSettings yaml path = .error e ↔
      ∃ p, w.settingsFile? path = some p ∧ w.FailsToLoad yaml p e) ∧
    ∀ s notices, w.loadSettings yaml path = .ok (s, notices) →
      (∃ p v, w.settingsFile? path = some p ∧ w.Reads yaml p (.ok v) ∧ v.Settles ∧
        s = .stated p v) ∨
      (∀ p v, w.settingsFile? path = some p → w.Reads yaml p (.ok v) → ¬v.Settles) ∧ s = .empty := by
  rcases loadSettings_cases w yaml path with ⟨hfile, notices, h⟩ | ⟨p, hfile, h⟩
  · rw [h, hfile]
    refine ⟨fun e => ⟨nofun, fun ⟨p, hp, _⟩ => nomatch hp⟩, fun s notices h => .inr ?_⟩
    cases h
    exact ⟨nofun, rfl⟩
  · rw [h, hfile]
    constructor
    · intro e
      rw [loadFile_eq_error_iff]
      exact ⟨fun h => ⟨p, rfl, h⟩, fun ⟨_, hp, h⟩ => by cases hp; exact h⟩
    · intro s notices h
      rcases loadFile_eq_ok h with ⟨v, hv⟩ | ⟨hv, hs⟩
      · exact .inl ⟨p, v, rfl, hv⟩
      · exact .inr ⟨fun _ v hp => by cases hp; exact hv v, hs⟩

def withSettings (t : String) : World where
  tree := ⟨[([settingsName], .file t.toByteArray)]⟩
  cwd := []
  cwdExists := true
  home := ['~']

end World

/-- A reader that knows one document, with a day in it that the calendar does not have. -/
def YamlReader.ofImpossibleDay : YamlReader where
  read t :=
    if t = "colorize: 2001-02-30\n".toList then
      .error (.fault ⟨.wrongValue, "day is out of range for month".toList⟩)
    else .error .malformed
  early? _ := none

namespace World

/-- Settings with a day that the calendar does not have cannot be loaded. -/
theorem loadSettings_not_always_ok :
    ¬∀ (w : World) (yaml : YamlReader) (path : Option Path),
      ∃ result, w.loadSettings yaml path = .ok result := by
  intro h
  let text : String := "colorize: 2001-02-30\n"
  have hdecode : decodeText? text.toByteArray = some text.toList := by
    rw [decodeText?_eq_some_iff, ← String.toByteArray_ofList, String.ofList_toList]
  have hreads : (withSettings text).Reads .ofImpossibleDay (.ofPlace [settingsName])
      (.error (.fault ⟨.wrongValue, "day is out of range for month".toList⟩)) := by
    refine ⟨text.toByteArray, rfl, ?_⟩
    have hlines : unifyLineEnds text.toList = "colorize: 2001-02-30\n".toList := by decide +kernel
    simp only [YamlReader.readBytes, hdecode, YamlReader.ofImpossibleDay, hlines, if_true]
  obtain ⟨result, hok⟩ := h (withSettings text) .ofImpossibleDay none
  rw [((loadSettings_outcome _ _ _).1 _).2 ⟨_, rfl, .yaml hreads⟩] at hok
  cases hok

end World

end Pinpoint
