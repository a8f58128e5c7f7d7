import Pinpoint.Proofs.Runs

/-!
# Ledgers and their histories

A history is what callers did in one run, from the first action to the last; an action that fails is
part of it, and leaves the ledger behind as it was. The ledger a history leads to can be told from
the history alone (`run_accounts`): which issues it lists, and what has become of each. -/

namespace Pinpoint

variable {ε : Type}

/-- What a caller does with a ledger. -/
inductive Action (ε : Type) where
  | add (source : Value) (file : Text) (location : Value) (message : Text) (severity : Severity)
  | addFailure (write : Writer) (failure source : Value) (file : Text)
  | highlight (n : Nat) (h : Highlight)
  | filter (keep : Issue → Except ε Bool)

namespace Action

def issue? : Action ε → Option Issue
  | .add source file location message severity =>
    (Issue.create source file location message severity).toOption
  | .addFailure write failure source file => (Issue.ofFailure write failure source file).toOption
  | .highlight _ _ => none
  | .filter _ => none

/-- The highlight that an action gives to the issue with a number. -/
def highlightOf? (n : Nat) : Action ε → Option Highlight
  | .highlight m h => if m = n then some h else none
  | _ => none

/-- Whether the source that an action reads, if it reads one, fits into memory. -/
def FitsMemory : Action ε → Prop
  | .add source _ _ _ _ => source.FitsMemory
  | .addFailure _ _ source _ => source.FitsMemory
  | .highlight _ _ => True
  | .filter _ => True

/-- When an action fails: an addition if there is no such issue, a filter if its test fails on a
listed issue. -/
def FailsOn (l : Ledger) : Action ε → Prop
  | .add source file location message severity =>
    ∃ e, Issue.create source file location message severity = .error e
  | .addFailure write failure source file =>
    ∃ e, Issue.ofFailure write failure source file = .error e
  | .highlight _ _ => False
  | .filter keep => ∃ i ∈ l.issues, ∃ e, keep i = .error e

end Action

/-- The issues that a history added, as they were then. Their places are their numbers. -/
def created (history : List (Action ε)) : List Issue := history.filterMap Action.issue?

/-- The highlights that a history gives to the issue with a number, first call first. -/
def highlightsOf (n : Nat) (history : List (Action ε)) : List Highlight :=
  history.filterMap (Action.highlightOf? n)

/-- Whether a test lets an issue pass. -/
def passes (keep : Issue → Except ε Bool) (i : Issue) : Bool :=
  match keep i with
  | .ok kept => kept
  | .error _ => false

theorem passes_iff {keep : Issue → Except ε Bool} {i : Issue} :
    passes keep i = true ↔ keep i = .ok true := by
  unfold passes
  cases keep i with
  | ok kept => exact ⟨fun h => congrArg _ h, fun h => Except.ok.inj h⟩
  | error e => exact ⟨nofun, nofun⟩

namespace Ledger

def attempt : Action ε → EStateM (LocationError ⊕ ε) Ledger Unit
  | .add source file location message severity =>
    EStateM.adaptExcept .inl (add source file location message severity)
  | .addFailure write failure source file =>
    EStateM.adaptExcept .inl (addFailure write failure source file)
  | .highlight n h => modify fun l => l.highlight n h
  | .filter keep => EStateM.adaptExcept .inr (filter keep)

def act (l : Ledger) (a : Action ε) : Ledger :=
  match (attempt a).run l with
  | .ok _ l' => l'
  | .error _ l' => l'

def runFrom (l : Ledger) (history : List (Action ε)) : Ledger := history.foldl act l

def run (history : List (Action ε)) : Ledger := empty.runFrom history

def keeping (l : Ledger) (keep : Issue → Except ε Bool) : Ledger :=
  { l with listed := l.listed.filter fun n => (l.get? n).any (passes keep) }

theorem mem_issues {l : Ledger} {i : Issue} :
    i ∈ l.issues ↔ ∃ n ∈ l.listed, l.get? n = some i := List.mem_filterMap

/-! ## One action -/

theorem keepListed_eq {l : Ledger} {keep : Issue → Except ε Bool} {ns : List Nat}
    (h : ∀ n ∈ ns, ∀ i, l.get? n = some i → ∃ kept, keep i = .ok kept) :
    keepListed keep l ns = .ok (ns.filter fun n => (l.get? n).any (passes keep)) := by
  induction ns with
  | nil => rfl
  | cons n rest ih =>
    have hrest := ih fun m hm => h m (List.mem_cons_of_mem _ hm)
    cases hi : l.get? n with
    | none =>
      simp only [keepListed, hi, hrest, List.filter_cons, Option.any_none, Bool.false_eq_true,
        ↓reduceIte]
    | some i =>
      obtain ⟨kept, hkept⟩ := h n List.mem_cons_self i hi
      have hpass : (l.get? n).any (passes keep) = kept := by
        simp only [hi, Option.any_some, passes, hkept]
      simp only [keepListed, hi, hkept, hrest, List.filter_cons]
      rw [← hi, hpass]
      rfl

theorem keepListed_fails {l : Ledger} {keep : Issue → Except ε Bool} {ns : List Nat} {n : Nat}
    {i : Issue} {e : ε} (hn : n ∈ ns) (hi : l.get? n = some i) (hfail : keep i = .error e) :
    ∃ e, keepListed keep l ns = .error e := by
  induction ns with
  | nil => cases hn
  | cons m rest ih =>
    rcases List.mem_cons.1 hn with rfl | hn
    · exact ⟨e, by simp only [keepListed, hi, hfail]; rfl⟩
    · obtain ⟨e', he'⟩ := ih hn
      cases hm : l.get? m with
      | none => exact ⟨e', by simp only [keepListed, hm, he']⟩
      | some j =>
        cases hj : keep j with
        | error e'' => exact ⟨e'', by simp only [keepListed, hm, hj]; rfl⟩
        | ok kept => exact ⟨e', by simp only [keepListed, hm, hj, he']; rfl⟩

theorem filter_run_of_ok {l : Ledger} {keep : Issue → Except ε Bool}
    (h : ¬ (Action.filter keep).FailsOn l) : (filter keep).run l = .ok () (l.keeping keep) := by
  have hok : ∀ n ∈ l.listed, ∀ i, l.get? n = some i → ∃ kept, keep i = .ok kept := by
    intro n hn i hi
    cases hk : keep i with
    | ok kept => exact ⟨kept, rfl⟩
    | error e => exact absurd ⟨i, mem_issues.2 ⟨n, hn, hi⟩, e, hk⟩ h
  rw [filter_run, keepListed_eq hok]
  rfl

theorem filter_run_of_failsOn {l : Ledger} {keep : Issue → Except ε Bool}
    (h : (Action.filter keep).FailsOn l) : ∃ e, (filter keep).run l = .error e l := by
  obtain ⟨i, hi, e, hfail⟩ := h
  obtain ⟨n, hn, hget⟩ := mem_issues.1 hi
  obtain ⟨e', he'⟩ := keepListed_fails hn hget hfail
  exact ⟨e', by rw [filter_run, he']⟩

theorem adaptExcept_run {δ : Type} (f : δ → LocationError ⊕ ε) (x : EStateM δ Ledger Unit)
    (l : Ledger) : (EStateM.adaptExcept f x).run l =
      match x.run l with
      | .ok u l' => .ok u l'
      | .error e l' => .error (f e) l' := by
  simp only [EStateM.run, EStateM.adaptExcept]
  cases x l <;> rfl

theorem attempt_of_addition {l : Ledger} {a : Action ε} {outcome : Except LocationError Issue}
    {addition : EStateM LocationError Ledger Unit}
    (hattempt : attempt a = EStateM.adaptExcept .inl addition)
    (hrun : addition.run l = match outcome with
      | .ok i => .ok () (l.push i)
      | .error e => .error e l)
    (hissue : a.issue? = outcome.toOption) (hfails : a.FailsOn l ↔ ∃ e, outcome = .error e)
    (hnone : ∀ n, a.highlightOf? n = none) :
    (∃ i, a.issue? = some i ∧ (∀ n, a.highlightOf? n = none) ∧ ¬a.FailsOn l ∧
      (attempt a).run l = .ok () (l.push i)) ∨
    (a.FailsOn l ∧ a.issue? = none ∧ (∀ n, a.highlightOf? n = none) ∧
      ∃ e, (attempt a).run l = .error e l) := by
  rw [hattempt, adaptExcept_run, hrun, hissue, hfails]
  cases outcome with
  | ok i => exact .inl ⟨i, rfl, hnone, nofun, rfl⟩
  | error e => exact .inr ⟨⟨e, rfl⟩, rfl, hnone, .inl e, rfl⟩

/-- What one action can do. Every fact below is read off these four cases. -/
theorem attempt_cases (l : Ledger) (a : Action ε) :
    (∃ i, a.issue? = some i ∧ (∀ n, a.highlightOf? n = none) ∧ ¬a.FailsOn l ∧
      (attempt a).run l = .ok () (l.push i)) ∨
    (∃ n h, a = .highlight n h ∧ (attempt a).run l = .ok () (l.highlight n h)) ∨
    (∃ keep, a = .filter keep ∧ ¬a.FailsOn l ∧ (attempt a).run l = .ok () (l.keeping keep)) ∨
    (a.FailsOn l ∧ a.issue? = none ∧ (∀ n, a.highlightOf? n = none) ∧
      ∃ e, (attempt a).run l = .error e l) := by
  cases a with
  | add source file location message severity =>
    have hrun := add_run l source file location message severity
    exact (attempt_of_addition rfl hrun rfl Iff.rfl fun _ => rfl).imp_right (.inr ∘ .inr)
  | addFailure write failure source file =>
    have hrun := addFailure_run l write failure source file
    exact (attempt_of_addition rfl hrun rfl Iff.rfl fun _ => rfl).imp_right (.inr ∘ .inr)
  | highlight n h => exact .inr (.inl ⟨n, h, rfl, rfl⟩)
  | filter keep =>
    have hadapt := adaptExcept_run (ε := ε) .inr (filter keep) l
    by_cases h : (Action.filter keep).FailsOn l
    · obtain ⟨e, he⟩ := filter_run_of_failsOn h
      exact .inr (.inr (.inr ⟨h, rfl, fun _ => rfl, .inr e, by rw [attempt, hadapt, he]⟩))
    · exact .inr (.inr (.inl ⟨keep, rfl, h, by rw [attempt, hadapt, filter_run_of_ok h]⟩))

theorem attempt_fails_iff (l : Ledger) (a : Action ε) :
    (∃ e l', (attempt a).run l = .error e l') ↔ a.FailsOn l := by
  rcases attempt_cases l a with ⟨i, -, -, hok, h⟩ | ⟨n, hl, rfl, h⟩ | ⟨keep, -, hok, h⟩ |
    ⟨hfail, -, -, e, h⟩
  · rw [h]
    exact ⟨nofun, fun hfail => absurd hfail hok⟩
  · rw [h]
    exact ⟨nofun, False.elim⟩
  · rw [h]
    exact ⟨nofun, fun hfail => absurd hfail hok⟩
  · rw [h]
    exact ⟨fun _ => hfail, fun _ => ⟨e, l, rfl⟩⟩

theorem act_cases (l : Ledger) (a : Action ε) :
    (∃ i, a.issue? = some i ∧ (∀ n, a.highlightOf? n = none) ∧ l.act a = l.push i) ∨
    (∃ n h, a = .highlight n h ∧ l.act a = l.highlight n h) ∨
    (∃ keep, a = .filter keep ∧ ¬ a.FailsOn l ∧ l.act a = l.keeping keep) ∨
    (a.FailsOn l ∧ a.issue? = none ∧ (∀ n, a.highlightOf? n = none) ∧ l.act a = l) := by
  unfold act
  rcases attempt_cases l a with ⟨i, hi, hnone, -, h⟩ | ⟨n, hl, ha, h⟩ | ⟨keep, ha, hok, h⟩ |
    ⟨hfail, hi, hnone, e, h⟩
  · exact .inl ⟨i, hi, hnone, by rw [h]⟩
  · exact .inr (.inl ⟨n, hl, ha, by rw [h]⟩)
  · exact .inr (.inr (.inl ⟨keep, ha, hok, by rw [h]⟩))
  · exact .inr (.inr (.inr ⟨hfail, hi, hnone, by rw [h]⟩))

/-- What fails does so before anything has changed. -/
theorem act_of_failsOn {l : Ledger} {a : Action ε} (h : a.FailsOn l) : l.act a = l := by
  obtain ⟨e, l', he⟩ := (attempt_fails_iff l a).2 h
  rcases attempt_cases l a with ⟨_, -, -, hok, -⟩ | ⟨_, _, rfl, -⟩ | ⟨_, -, hok, -⟩ |
    ⟨-, -, -, e, he⟩
  · exact absurd h hok
  · exact h.elim
  · exact absurd h hok
  · rw [act, he]

/-- A ledger in order: the listed numbers increase, and each stands for an issue. -/
structure Ordered (l : Ledger) : Prop where
  increasing : l.listed.Pairwise (· < ·)
  numbered : ∀ n ∈ l.listed, n < l.next

theorem next_push (l : Ledger) (i : Issue) : (l.push i).next = l.next + 1 := List.length_append

theorem get?_push_of_lt {l : Ledger} {n : Nat} (h : n < l.next) (i : Issue) :
    (l.push i).get? n = l.get? n :=
  List.getElem?_append_left h

theorem get?_push_next (l : Ledger) (i : Issue) : (l.push i).get? l.next = some i :=
  List.getElem?_concat_length

theorem get?_highlight (l : Ledger) (m n : Nat) (h : Highlight) :
    (l.highlight m h).get? n =
      (l.get? n).map fun i => if m = n then i.addHighlight h else i := by
  rw [get?, highlight, List.getElem?_modify]
  rfl

theorem next_highlight (l : Ledger) (m : Nat) (h : Highlight) : (l.highlight m h).next = l.next :=
  List.length_modify ..

theorem mem_listed_keeping {l : Ledger} {keep : Issue → Except ε Bool} {n : Nat} :
    n ∈ (l.keeping keep).listed ↔ n ∈ l.listed ∧ ∃ i, l.get? n = some i ∧ keep i = .ok true := by
  simp only [keeping, List.mem_filter, Option.any_eq_true, passes_iff]

/-- One action adds one issue or none. -/
theorem next_act (l : Ledger) (a : Action ε) :
    (l.act a).next = l.next + a.issue?.toList.length := by
  rcases act_cases l a with ⟨i, hi, -, h⟩ | ⟨n, hl, rfl, h⟩ | ⟨keep, rfl, -, h⟩ | ⟨-, hi, -, h⟩
  · rw [h, hi]
    exact next_push l i
  · rw [h, next_highlight]
    rfl
  · rw [h]
    rfl
  · rw [h, hi]
    rfl

theorem Ordered.act {l : Ledger} (hl : l.Ordered) (a : Action ε) : (l.act a).Ordered := by
  rcases act_cases l a with ⟨i, -, -, h⟩ | ⟨m, h', rfl, h⟩ | ⟨keep, rfl, -, h⟩ | ⟨-, -, -, h⟩ <;>
    rw [h]
  · constructor
    · refine List.pairwise_append.2 ⟨hl.increasing, List.pairwise_singleton _ _, ?_⟩
      intro m hm n hn
      rw [List.mem_singleton.1 hn]
      exact hl.numbered m hm
    · intro n hn
      rw [next_push]
      rcases List.mem_append.1 hn with hn | hn
      · have := hl.numbered n hn
        omega
      · have := List.mem_singleton.1 hn
        omega
  · exact ⟨hl.increasing, fun n hn => (next_highlight l m h').symm ▸ hl.numbered n hn⟩
  · exact ⟨hl.increasing.filter _, fun n hn => hl.numbered n (mem_listed_keeping.1 hn).1⟩
  · exact hl

/-- An action changes nothing about an issue that is there but to highlight it. -/
theorem get?_act {l : Ledger} {n : Nat} (hn : n < l.next) (a : Action ε) :
    (l.act a).get? n = (l.get? n).map fun i =>
      { i with highlights := i.highlights ++ (a.highlightOf? n).toList } := by
  have hsame (h : a.highlightOf? n = none) : (l.get? n).map (fun i : Issue =>
      { i with highlights := i.highlights ++ (a.highlightOf? n).toList }) = l.get? n := by
    simp only [h, Option.toList_none, List.append_nil, Option.map_id']
  rcases act_cases l a with ⟨i, -, hnone, h⟩ | ⟨m, h', rfl, h⟩ | ⟨keep, rfl, -, h⟩ |
    ⟨-, -, hnone, h⟩ <;> rw [h]
  · rw [hsame (hnone n), get?_push_of_lt hn]
  · rw [get?_highlight, Action.highlightOf?]
    split
    · rfl
    · simp only [Option.toList_none, List.append_nil]
  · exact (hsame rfl).symm
  · exact (hsame (hnone n)).symm

/-- An action takes a number off the list exactly if it is a filter that comes through and does not
let its issue pass. -/
theorem mem_listed_act {l : Ledger} {n : Nat} (hn : n < l.next) (a : Action ε) :
    n ∈ (l.act a).listed ↔ n ∈ l.listed ∧ ∀ keep, a = .filter keep → ¬ a.FailsOn l →
      ∃ i, l.get? n = some i ∧ keep i = .ok true := by
  rcases act_cases l a with ⟨i, hi, -, h⟩ | ⟨m, h', rfl, h⟩ | ⟨keep, rfl, hok, h⟩ |
    ⟨hfail, -, -, h⟩ <;> rw [h]
  · have hkeep (keep) : a ≠ .filter keep := by
      rintro rfl
      cases hi
    have hne : n ≠ l.next := by omega
    simp only [push, List.mem_append, List.mem_singleton, hne, or_false, hkeep, false_imp_iff,
      implies_true, and_true]
  · exact ⟨fun hmem => ⟨hmem, nofun⟩, And.left⟩
  · rw [mem_listed_keeping]
    refine and_congr_right fun _ => ⟨fun hi keep' heq _ => ?_, fun hi => hi keep rfl hok⟩
    cases heq
    exact hi
  · exact ⟨fun hmem => ⟨hmem, fun _ _ hok => absurd hfail hok⟩, And.left⟩

/-! ## One action after the other -/

theorem runFrom_cons (l : Ledger) (a : Action ε) (rest : List (Action ε)) :
    l.runFrom (a :: rest) = (l.act a).runFrom rest := rfl

theorem run_append (before after : List (Action ε)) :
    run (before ++ after) = (run before).runFrom after :=
  List.foldl_append

theorem next_runFrom (l : Ledger) (history : List (Action ε)) :
    (l.runFrom history).next = l.next + (created history).length := by
  induction history generalizing l with
  | nil => rfl
  | cons a rest ih =>
    have hcreated : (created (a :: rest)).length =
        a.issue?.toList.length + (created rest).length := by
      rw [created, List.filterMap_cons]
      cases a.issue? with
      | none => exact (Nat.zero_add _).symm
      | some i => exact Nat.add_comm _ 1
    rw [runFrom_cons, ih, next_act, hcreated, Nat.add_assoc]

theorem next_run (history : List (Action ε)) : (run history).next = (created history).length := by
  rw [run, next_runFrom]
  exact Nat.zero_add _

theorem Ordered.runFrom {l : Ledger} (hl : l.Ordered) (history : List (Action ε)) :
    (l.runFrom history).Ordered := by
  induction history generalizing l with
  | nil => exact hl
  | cons a rest ih => exact ih (hl.act a)

theorem run_ordered (history : List (Action ε)) : (run history).Ordered :=
  Ordered.runFrom ⟨.nil, fun _ hn => absurd hn List.not_mem_nil⟩ history

/-- Of an issue that is there, nothing but its highlights can change. -/
theorem get?_runFrom {l : Ledger} {n : Nat} (hn : n < l.next) (history : List (Action ε)) :
    (l.runFrom history).get? n = (l.get? n).map fun i =>
      { i with highlights := i.highlights ++ highlightsOf n history } := by
  induction history generalizing l with
  | nil => simp only [runFrom, List.foldl_nil, highlightsOf, List.filterMap_nil, List.append_nil,
      Option.map_id']
  | cons a rest ih =>
    have hcons : highlightsOf n (a :: rest) = (a.highlightOf? n).toList ++ highlightsOf n rest := by
      rw [highlightsOf, List.filterMap_cons]
      cases a.highlightOf? n <;> rfl
    have hnext : n < (l.act a).next := by
      rw [next_act]
      omega
    rw [runFrom_cons, ih hnext, get?_act hn, Option.map_map, hcons]
    simp only [Function.comp_def, List.append_assoc]

/-- A number stays on the list exactly if each filter that comes through lets the issue pass as it
is when the filter runs. -/
theorem mem_listed_runFrom {l : Ledger} {n : Nat} (hn : n < l.next) (history : List (Action ε)) :
    n ∈ (l.runFrom history).listed ↔ n ∈ l.listed ∧
      ∀ mid keep rest, history = mid ++ .filter keep :: rest →
        ¬ (Action.filter keep).FailsOn (l.runFrom mid) →
          ∃ i, (l.runFrom mid).get? n = some i ∧ keep i = .ok true := by
  induction history generalizing l with
  | nil => exact ⟨fun h => ⟨h, by simp⟩, And.left⟩
  | cons a history ih =>
    have hnext : n < (l.act a).next := by
      rw [next_act]
      omega
    rw [runFrom_cons, ih hnext, mem_listed_act hn, and_assoc]
    refine and_congr_right fun _ => ⟨?_, ?_⟩
    · rintro ⟨hfirst, hlater⟩ mid keep rest heq hok
      rcases List.cons_eq_append_iff.1 heq with ⟨rfl, hcons⟩ | ⟨mid', rfl, hrest⟩
      · cases hcons
        exact hfirst keep rfl hok
      · exact hlater mid' keep rest hrest hok
    · intro h
      exact ⟨fun keep heq hok => h [] keep history (by rw [heq]; rfl) (heq ▸ hok),
        fun mid keep rest heq hok => h (a :: mid) keep rest (by rw [heq]; rfl) hok⟩

theorem run_of_adaptExcept {δ : Type} {f : δ → LocationError ⊕ ε} {x : EStateM δ Ledger Unit}
    {l l' : Ledger} (h : (EStateM.adaptExcept f x).run l = .ok () l') : x.run l = .ok () l' := by
  rw [adaptExcept_run] at h
  split at h
  next hx =>
    cases h
    exact hx
  next => cases h

theorem Step.of_attempt {l l' : Ledger} {a : Action ε} (ha : a.FitsMemory)
    (h : (attempt a).run l = .ok () l') : Step l l' := by
  cases a with
  | add source file location message severity => exact .add ha (run_of_adaptExcept h)
  | addFailure write failure source file => exact .addFailure ha (run_of_adaptExcept h)
  | highlight n h' =>
    cases h
    exact .highlight l n h'
  | filter keep => exact .filter (run_of_adaptExcept h)

/-- What holds of all ledgers that can be reached holds of those that histories lead to. -/
theorem reachable_run {history : List (Action ε)} (h : ∀ a ∈ history, a.FitsMemory) :
    (run history).Reachable := by
  have hfrom {l : Ledger} (hl : l.Reachable) : (l.runFrom history).Reachable := by
    induction history generalizing l with
    | nil => exact hl
    | cons a rest ih =>
      obtain ⟨ha, hrest⟩ := List.forall_mem_cons.1 h
      refine ih hrest ?_
      by_cases hfails : a.FailsOn l
      · rwa [act_of_failsOn hfails]
      · unfold act
        split
        next hok => exact .step hl (.of_attempt ha hok)
        next herror => exact absurd ((attempt_fails_iff l a).1 ⟨_, _, herror⟩) hfails
  exact hfrom .empty

/-! ## What a history says -/

theorem exists_addition {history : List (Action ε)} {n : Nat}
    (hn : n < (created history).length) :
    ∃ before a after i, history = before ++ a :: after ∧ a.issue? = some i ∧
      n = (created before).length := by
  have hsplit : created history =
      (created history).take n ++ (created history)[n] :: (created history).drop (n + 1) := by
    rw [List.getElem_cons_drop, List.take_append_drop]
  obtain ⟨before, rest, rfl, hbefore, hrest⟩ := List.filterMap_eq_append_iff.1 hsplit
  obtain ⟨skipped, a, after, rfl, hskipped, ha, -⟩ := List.filterMap_eq_cons_iff.1 hrest
  refine ⟨before ++ skipped, a, after, _, (List.append_assoc _ _ _).symm, ha, ?_⟩
  rw [created, List.filterMap_append, hbefore, List.filterMap_eq_nil_iff.2 hskipped,
    List.append_nil, List.length_take]
  omega

theorem created_getElem? {before after : List (Action ε)} {a : Action ε} {i : Issue}
    (ha : a.issue? = some i) :
    (created (before ++ a :: after))[(created before).length]? = some i := by
  unfold created
  rw [List.filterMap_append, List.filterMap_cons_some ha,
    List.getElem?_append_right (Nat.le_refl _), Nat.sub_self, List.getElem?_cons_zero]

theorem highlights_of_issue? {a : Action ε} {i : Issue} (h : a.issue? = some i) :
    i.highlights = [] := by
  have hnew {source location : Value} {file message : Text} {severity : Severity}
      (hi : (Issue.create source file location message severity).toOption = some i) :
      i.highlights = [] := by
    cases hc : Issue.create source file location message severity with
    | error e =>
      rw [hc] at hi
      cases hi
    | ok j =>
      obtain ⟨s, l, info, -, -, -, rfl⟩ := Issue.create_eq_ok hc
      rw [hc] at hi
      exact Option.some.inj hi ▸ rfl
  cases a with
  | add source file location message severity => exact hnew h
  | addFailure write failure source file =>
    cases hmade : Issue.ofFailure write failure source file with
    | error e =>
      rw [Action.issue?, hmade] at h
      cases h
    | ok j =>
      obtain ⟨_, -, hcreate⟩ := bind_eq_ok.1 hmade
      refine hnew ((congrArg Except.toOption hcreate).trans ?_)
      rw [← hmade]
      exact h
  | highlight n h' => cases h
  | filter keep => cases h

theorem run_addition {before : List (Action ε)} {a : Action ε} {i : Issue}
    (ha : a.issue? = some i) (after : List (Action ε)) :
    run (before ++ a :: after) = ((run before).push i).runFrom after := by
  have hact : (run before).act a = (run before).push i := by
    rcases act_cases (run before) a with ⟨j, hj, -, h⟩ | ⟨m, h', rfl, -⟩ | ⟨keep, rfl, -, -⟩ |
      ⟨-, hnone, -, -⟩
    · rw [h, Option.some.inj (hj.symm.trans ha)]
    · cases ha
    · cases ha
    · cases hnone.symm.trans ha
  rw [run_append, runFrom_cons, hact]

section
variable {before : List (Action ε)} {a : Action ε} {i : Issue} (ha : a.issue? = some i)
include ha

theorem get?_run_addition (after : List (Action ε)) :
    (run (before ++ a :: after)).get? (created before).length =
      some { i with highlights := highlightsOf (created before).length after } := by
  have hlt : (created before).length < ((run before).push i).next := by
    rw [next_push, next_run]
    exact Nat.lt_succ_self _
  rw [run_addition ha, get?_runFrom hlt, ← next_run, get?_push_next, Option.map_some,
    highlights_of_issue? ha, List.nil_append]

/-- An issue is listed from the start. -/
theorem mem_listed_run_addition (after : List (Action ε)) :
    (created before).length ∈ (run (before ++ a :: after)).listed ↔
      ∀ mid keep rest, after = mid ++ .filter keep :: rest →
        ¬ (Action.filter keep).FailsOn (run (before ++ a :: mid)) →
          keep { i with highlights := highlightsOf (created before).length mid } = .ok true := by
  have hlt : (created before).length < ((run before).push i).next := by
    rw [next_push, next_run]
    exact Nat.lt_succ_self _
  have hmem : (created before).length ∈ ((run before).push i).listed := by
    rw [← next_run]
    exact List.mem_append_right _ List.mem_cons_self
  rw [run_addition ha, mem_listed_runFrom hlt]
  simp only [hmem, true_and, ← run_addition ha, get?_run_addition ha, Option.some.injEq,
    exists_eq_left']

end

theorem issues_map_some {l : Ledger} (hl : l.Ordered) :
    l.issues.map some = l.listed.map l.get? := by
  have hsome (ns : List Nat) (h : ∀ n ∈ ns, n < l.next) :
      (ns.filterMap l.get?).map some = ns.map l.get? := by
    induction ns with
    | nil => rfl
    | cons n rest ih =>
      obtain ⟨i, hget⟩ : ∃ i, l.get? n = some i :=
        ⟨_, List.getElem?_eq_getElem (h n List.mem_cons_self)⟩
      rw [List.filterMap_cons_some hget, List.map_cons, List.map_cons, hget,
        ih fun m hm => h m (List.mem_cons_of_mem _ hm)]
  exact hsome l.listed hl.numbered

/-- What does not depend on highlights can be counted over the issues as they were created. -/
theorem countP_issues {p : Issue → Bool}
    (hp : ∀ (i : Issue) hs, p { i with highlights := hs } = p i) (history : List (Action ε)) :
    (run history).issues.countP p =
      (run history).listed.countP fun n => (created history)[n]?.any p := by
  rw [issues, List.countP_filterMap]
  refine List.countP_congr fun n hn => ?_
  obtain ⟨before, a, after, i, rfl, ha, rfl⟩ :=
    exists_addition (next_run history ▸ (run_ordered history).numbered n hn)
  rw [get?_run_addition ha, created_getElem? ha]
  simp only [Option.map_some, Option.getD_some, Option.any_some, hp]

/-- What a ledger owes to the history that led to it. -/
structure Accounts (l : Ledger) (history : List (Action ε)) : Prop where
  /-- An issue stays as it was created, but for the highlights it was given since. -/
  issue : ∀ {before after : List (Action ε)} {a : Action ε} {i : Issue},
    history = before ++ a :: after → a.issue? = some i →
      l.get? (created before).length =
        some { i with highlights := highlightsOf (created before).length after }
  /-- Only additions that came through make issues. -/
  next_eq : l.next = (created history).length
  /-- Listed are the issues that each later filter which came through let pass, as they were when
  it ran. -/
  mem_listed_iff : ∀ n, n ∈ l.listed ↔ ∃ before a after i, history = before ++ a :: after ∧
    a.issue? = some i ∧ n = (created before).length ∧
      ∀ mid keep rest, after = mid ++ .filter keep :: rest →
        ¬ (Action.filter keep).FailsOn (run (before ++ a :: mid)) →
          keep { i with highlights := highlightsOf n mid } = .ok true
  /-- They are listed once each, and in the order in which they were added. -/
  increasing : l.listed.Pairwise (· < ·)
  issues_eq : l.issues.map some = l.listed.map l.get?
  length_issues : l.issues.length = l.listed.length
  /-- Errors and warnings are counted by the severity with which they were added. -/
  errorCount_eq :
    l.errorCount = l.listed.countP fun n => (created history)[n]?.any (·.severity == .error)
  warningCount_eq :
    l.warningCount = l.listed.countP fun n => (created history)[n]?.any (·.severity == .warning)
  /-- An action that fails changes nothing. -/
  fails_iff : ∀ a : Action ε, (∃ e l', (attempt a).run l = .error e l') ↔ a.FailsOn l
  unchanged : ∀ a : Action ε, a.FailsOn l → run (history ++ [a]) = l

/-- Whatever callers do, and whatever of it fails, the ledger is the one that the history says. -/
theorem run_accounts (history : List (Action ε)) : (run history).Accounts history := by
  have hordered := run_ordered history
  refine ⟨?_, next_run history, ?_, hordered.increasing, issues_map_some hordered, ?_,
    countP_issues (fun _ _ => rfl) history, countP_issues (fun _ _ => rfl) history,
    attempt_fails_iff _, ?_⟩
  · rintro before after a i rfl ha
    exact get?_run_addition ha after
  · intro n
    constructor
    · intro hn
      obtain ⟨before, a, after, i, rfl, ha, rfl⟩ :=
        exists_addition (next_run history ▸ hordered.numbered n hn)
      exact ⟨before, a, after, i, rfl, ha, rfl, (mem_listed_run_addition ha after).1 hn⟩
    · rintro ⟨before, a, after, i, rfl, ha, rfl, hkept⟩
      exact (mem_listed_run_addition ha after).2 hkept
  · have := congrArg List.length (issues_map_some hordered)
    rwa [List.length_map, List.length_map] at this
  · intro a ha
    rw [run_append]
    exact act_of_failsOn ha

/-- A filter that fails on the second of two notes keeps them both; a later one sees the highlight
that the first was given. -/
example :
    let note (message : Text) : Action Unit :=
      .add (.scalar (.text ['a'])) ['f'] (.scalar (.int 0)) message .note
    (run [note ['x'], note ['y'],
      .filter fun i => if i.message = ['y'] then .error () else .ok false,
      .highlight 0 ⟨0, 1⟩, .filter fun i => .ok (i.highlights != [])]).listed = [0] := by
  decide

end Ledger

end Pinpoint
