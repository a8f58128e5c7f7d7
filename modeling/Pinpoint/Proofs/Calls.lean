import Pinpoint.Proofs.Showing

/-!
# One call after the other

Calls that render an issue go by the policy of the process, which an earlier call may have changed.
What that policy owes to the past is the colors that were applied last, as far as they were gone
through (`policyAfter_eq`). A call with colors of its own forgets them, but a call without any is
rendered as if they were its own (`run_after_calls`, `run_not_independent`).
-/

namespace Pinpoint

instance (config : Config) (t : Text) : Decidable (config.Fits t) :=
  inferInstanceAs (Decidable (_ ∧ _))

/-- A call that renders an issue, with all that it goes by except for the policy of the process. -/
structure Call where
  world : World
  config : Config
  settings : Settings
  console : Console

namespace Call

section
variable (host : Host)

/-- Makes a call under a policy of the process. -/
def run (c : Call) (policy : Policy) : Run :=
  c.world.runShow host c.config (some c.settings) c.console policy

/-- The policy that one call after the other leaves behind in a process. -/
def policyAfter (calls : List Call) : Policy :=
  calls.foldl (fun policy c => (c.run host policy).policy) Policy.default

def colored (c : Call) : Bool :=
  resolveColorize c.settings.colorize c.config.colorize c.console

/-- The text that a call finds its offset in, if it comes that far. -/
def text? (c : Call) : Option Text :=
  match c.world.sourceText c.config.file with
  | .ok (some t) => if c.config.Fits t then some t else none
  | _ => none

/-- The colors that a call applies: its own, as far as they are gone through, if it has any and
finds its offset. -/
def applied? (c : Call) : Option Overrides :=
  if c.settings.colors = [] then none else c.text?.map fun _ => heeded host.write c.settings.colors

/-- The colors that were applied last; none if none were. -/
def lastApplied (calls : List Call) : Overrides :=
  (calls.filterMap (applied? host)).getLast?.getD []

def withColors (c : Call) (colors : Overrides) : Call :=
  { c with settings := { c.settings with colors := colors } }

/-! ## What a call leaves behind -/

/-- How a call ends that does not find its offset. -/
def failed (c : Call) : Except RunError Outcome :=
  match c.world.sourceText c.config.file with
  | .error e => .error e
  | .ok none => .ok ⟨1, printedLine (unreadableFile c.config.file)⟩
  | .ok (some t) => refuseOffset host.write "Cannot place a diagnostic at offset " c.config.offset
      (.offsetOutside c.config.offset t.length)

/-- How a call ends after a change of the policy. -/
def resultAfter (c : Call) (change : PolicyChange) : Except RunError Outcome :=
  match c.text? with
  | some t => c.config.shownAfter t change c.colored
  | none => c.failed host

end

section
variable {host : Host} {c : Call} (policy : Policy)

theorem run_of_text?_eq_none (h : c.text? = none) :
    (c.run host policy).policy = policy ∧ (c.run host policy).result = c.failed host := by
  unfold run failed
  unfold text? at h
  cases htext : c.world.sourceText c.config.file with
  | error e =>
    simp only [World.runShow, World.settingsFor, htext, and_self]
  | ok text =>
    rw [World.runShow_of_sourceText htext]
    cases text with
    | none => exact ⟨rfl, rfl⟩
    | some t =>
      have hfits : ¬c.config.Fits t := by
        intro hfits
        simp only [htext, hfits, if_true, reduceCtorEq] at h
      rw [showIssue_outside _ _ _ _ _ hfits]
      exact ⟨rfl, rfl⟩

theorem run_of_text?_eq_some {t : Text} (h : c.text? = some t) :
    (c.run host policy).policy = (applyColors host.write policy c.settings.colors).policy ∧
      (c.run host policy).result =
        c.config.shownAfter t (applyColors host.write policy c.settings.colors) c.colored := by
  unfold text? at h
  split at h
  next u htext =>
    split at h
    next hfits =>
      cases h
      rw [run, World.runShow_of_sourceText htext, showIssue_inside _ _ _ _ _ hfits]
      exact ⟨rfl, rfl⟩
    next => cases h
  next => cases h

theorem run_policy : (c.run host policy).policy =
    ((c.applied? host).map fun colors => .of (due colors)).getD policy := by
  unfold applied?
  cases htext : c.text? with
  | none =>
    rw [(run_of_text?_eq_none policy htext).1]
    split <;> rfl
  | some t =>
    rw [(run_of_text?_eq_some policy htext).1, applyColors_policy]
    split <;> rfl

theorem run_result : (c.run host policy).result =
    c.resultAfter host (applyColors host.write policy c.settings.colors) := by
  unfold resultAfter
  cases htext : c.text? with
  | none => exact (run_of_text?_eq_none policy htext).2
  | some t => exact (run_of_text?_eq_some policy htext).2

end

/-- Notices do not count; and where nothing is shown in color, the policy does not matter either. -/
theorem resultAfter_congr {host : Host} {c : Call} {p q : PolicyChange} (hfault : p.fault = q.fault)
    (h : p.policy = q.policy ∨ c.text? = none ∨ c.config.quiet = true ∨ c.colored = false) :
    c.resultAfter host p = c.resultAfter host q := by
  unfold resultAfter
  cases htext : c.text? with
  | none => rfl
  | some t =>
    simp only [htext, reduceCtorEq, false_or] at h
    simp only [Config.shownAfter, Config.shown, hfault]
    cases q.fault with
    | some f => rfl
    | none =>
      rcases h with hpolicy | hquiet | hplain
      · rw [hpolicy]
      · simp only [hquiet, if_true]
      · rw [hplain]
        rfl

/-! ## One call after the other -/

section
variable {host : Host}

theorem policyAfter_append_singleton (calls : List Call) (c : Call) :
    policyAfter host (calls ++ [c]) = (c.run host (policyAfter host calls)).policy := by
  unfold policyAfter
  rw [List.foldl_append]
  rfl

/-- Of all that calls did to the policy of the process, the colors that were applied last remain. -/
theorem policyAfter_eq (calls : List Call) :
    policyAfter host calls = .of (due (lastApplied host calls)) := by
  induction calls using List.reverseRecOn with
  | nil => rfl
  | append_singleton calls c ih =>
    rw [policyAfter_append_singleton, run_policy, ih, lastApplied, lastApplied,
      List.filterMap_append]
    cases happlied : c.applied? host with
    | none => simp [happlied]
    | some colors => simp [happlied]

theorem lastApplied_eq_nil {calls : List Call} (h : ∀ d ∈ calls, d.applied? host = none) :
    lastApplied host calls = [] := by
  rw [lastApplied, List.filterMap_eq_nil_iff.2 h]
  rfl

/-- Colors that were applied can be applied again, and come to the same. -/
theorem applyColors_lastApplied (host : Host) (calls : List Call) :
    (applyColors host.write .default (lastApplied host calls)).fault = none ∧
      (applyColors host.write .default (lastApplied host calls)).policy =
        .of (due (lastApplied host calls)) := by
  rw [applyColors_fault, applyColors_policy]
  cases hlast : (calls.filterMap (applied? host)).getLast? with
  | none =>
    rw [lastApplied, hlast]
    exact ⟨rfl, rfl⟩
  | some colors =>
    obtain ⟨c, -, hc⟩ := List.mem_filterMap.1 (List.mem_of_getLast? hlast)
    obtain ⟨own, rfl⟩ : ∃ own, colors = heeded host.write own := by
      unfold applied? at hc
      split at hc
      · cases hc
      · obtain ⟨t, -, rfl⟩ := Option.map_eq_some_iff.1 hc
        exact ⟨_, rfl⟩
    obtain ⟨htwice, hnone⟩ := heeded_heeded host.write own
    rw [lastApplied, hlast, Option.getD_some, htwice]
    refine ⟨hnone, ?_⟩
    split
    next hnil =>
      rw [hnil]
      rfl
    next => rfl

/-- **A call without colors of its own ends as if it were the first one of a process and had the
colors that were applied last; a call with colors ends as if it were the first one.** So earlier
calls are felt only in what is shown in color, and only if one of them applied its colors. -/
theorem run_after_calls (host : Host) (earlier : List Call) (c : Call) :
    (c.run host (policyAfter host earlier)).result =
        ((if c.settings.colors = [] then c.withColors (lastApplied host earlier) else c).run host
          .default).result ∧
      (c.settings.colors ≠ [] ∨ (∀ d ∈ earlier, d.applied? host = none) ∨ c.text? = none ∨
          c.config.quiet = true ∨ c.colored = false →
        (c.run host (policyAfter host earlier)).result = (c.run host .default).result) := by
  have hown (policy : Policy) (h : c.settings.colors ≠ []) :
      (c.run host policy).result = (c.run host .default).result := by
    rw [run_result, run_result]
    refine resultAfter_congr (by rw [applyColors_fault, applyColors_fault]) (.inl ?_)
    rw [applyColors_policy, applyColors_policy, if_neg h, if_neg h]
  have hnone (policy : Policy) (h : c.settings.colors = []) :
      (c.run host policy).result = c.resultAfter host ⟨policy, [], none⟩ := by
    rw [run_result, h]
    rfl
  constructor
  · by_cases h : c.settings.colors = []
    · -- the colors that were applied last count the same if they stand in the settings
      obtain ⟨hfault, hpolicy⟩ := applyColors_lastApplied host earlier
      rw [if_pos h, hnone _ h, policyAfter_eq, run_result]
      exact (resultAfter_congr (c := c) hfault (.inl hpolicy)).symm
    · rw [if_neg h, hown _ h]
  · intro h
    by_cases hcolors : c.settings.colors = []
    · rw [hnone _ hcolors, hnone _ hcolors]
      refine resultAfter_congr rfl ?_
      rcases h with h | h | h
      · exact absurd hcolors h
      · rw [policyAfter_eq, lastApplied_eq_nil h]
        exact .inl rfl
      · exact .inr h
    · exact hown _ hcolors

end

/-- A call that points at the only character of a file, in color. -/
def ofColors (colors : Overrides) : Call where
  world := .ofFile ['f'] ['a']
  config := ⟨['f'], 0, ['m'], .error, [], some true, false⟩
  settings := ⟨none, colors, none⟩
  console := .plain

theorem text?_ofColors (colors : Overrides) : (ofColors colors).text? = some ['a'] := by
  have htext :
      (ofColors colors).world.sourceText (ofColors colors).config.file = .ok (some ['a']) :=
    World.sourceText_of_holds rfl
  have hfits : (ofColors colors).config.Fits ['a'] :=
    show (0 : Int) ≤ 0 ∧ (0 : Int) ≤ 1 from ⟨by decide, by decide⟩
  simp only [text?, htext, hfits, if_true]

theorem applied?_ofColors (host : Host) {colors : Overrides} (h : colors ≠ []) :
    (ofColors colors).applied? host = some (heeded host.write colors) := by
  rw [applied?, text?_ofColors]
  exact if_neg h

/-- Colors of one's own make up for those that an earlier call applied. -/
theorem run_after_calls_with_colors :
    ∃ d c : Call, (∃ colors, d.applied? .plain = some colors) ∧ c.settings.colors ≠ [] ∧
      (c.run .plain (policyAfter .plain [d])).result = (c.run .plain .default).result := by
  have hd : [(Scalar.text "file".toList, Value.null)] ≠ [] := List.cons_ne_nil _ _
  have hc : (ofColors [(.text "caret".toList, .null)]).settings.colors ≠ [] :=
    List.cons_ne_nil _ _
  exact ⟨ofColors [(.text "file".toList, .null)], ofColors [(.text "caret".toList, .null)],
    ⟨_, applied?_ofColors .plain hd⟩, hc, (run_after_calls .plain _ _).2 (.inl hc)⟩

/-- Without colors of its own a call does not undo those that an earlier one applied. -/
theorem run_not_independent :
    ¬∀ (earlier : List Call) (c : Call),
      (c.run .plain (policyAfter .plain earlier)).result = (c.run .plain .default).result := by
  intro h
  have hrun := h [ofColors [(.text "file".toList, .null)]] (ofColors [])
  have hlast : lastApplied .plain [ofColors [(.text "file".toList, .null)]] =
      heeded Host.plain.write [(.text "file".toList, .null)] := by
    rw [lastApplied, List.filterMap_cons_some (applied?_ofColors .plain (List.cons_ne_nil _ _))]
    rfl
  have hresult (policy : Policy) : ((ofColors []).run .plain policy).result =
      (ofColors []).config.shown ['a'] policy true :=
    (run_of_text?_eq_some policy (text?_ofColors [])).2
  rw [policyAfter_eq, hlast, hresult, hresult] at hrun
  revert hrun
  decide +kernel

end Call

end Pinpoint
