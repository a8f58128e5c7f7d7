import Pinpoint.Proofs.History
import Pinpoint.Proofs.Shapes
import Pinpoint.Proofs.Suffix

/-!
# Failures of parsers

A parser tells what went wrong, and where, in its own way. Whichever way it is, its failure adds
the issue that its offset and its bare message add (`Ledger.run_addFailure`).
-/

namespace Pinpoint

variable {ε : Type}

namespace Value

/-- What a failure says. Its own message comes first, if it is a text; the message that a syntax
failure was raised with comes before its description. -/
inductive Says (write : Writer) (t : Text) : Value → Prop where
  | message {v : Value} (own : v.ownField "message".toList = text t) : Says write t v
  | described {fields : List (Text × Value)}
      (own : (lookup fields "message".toList).text? = none) : Says write t (.failure (some t) fields)
  | syntaxMessage {fields : List (Text × Value)}
      (own : (lookup fields "message".toList).text? = none) (nonempty : t ≠ [])
      (msg : lookup fields "msg".toList = text t) : Says write t (.syntaxFailure fields)
  | syntaxDescribed {fields : List (Text × Value)}
      (own : (lookup fields "message".toList).text? = none)
      (msg : ∀ u, lookup fields "msg".toList = text u → u = [])
      (described : syntaxDescription write fields = .ok t) : Says write t (.syntaxFailure fields)

/-- The shapes in which a failure names an offset, its line and its column. -/
inductive FailsAt (start : Int) (p : LineColumn) : Value → Prop where
  /-- A position, without a start and an end, and a line and a column in `loc`. -/
  | placed {v : Value} (record : v.isRecord = true) (start_eq : v.field "start".toList = null)
      (stop_eq : v.field "end".toList = null) (pos_eq : v.field "pos".toList = int start)
      (loc : (v.field "loc".toList).Carries p)
      (flat : (v.field "loc".toList).field "start".toList = null) : FailsAt start p v
  /-- A line, and a column that counts from 1. -/
  | syntaxFailure {fields : List (Text × Value)} (start_eq : lookup fields "start".toList = null)
      (pos_eq : lookup fields "pos".toList = null) (loc_eq : lookup fields "loc".toList = null)
      (line : lookup fields "lineno".toList = int p.line)
      (column : lookup fields "offset".toList = int (p.column + 1)) :
      FailsAt start p (.syntaxFailure fields)

theorem eq_text_of_text? {v : Value} {t : Text} (h : v.text? = some t) : v = text t := by
  unfold text? at h
  split at h
  · cases h
    rfl
  · cases h

theorem Says.failureMessage {write : Writer} {v : Value} {t : Text} (h : v.Says write t) :
    failureMessage write v = .ok t := by
  cases h with
  | message own =>
    rw [Pinpoint.failureMessage, own]
    rfl
  | described own =>
    simp only [Pinpoint.failureMessage, ownField, own]
    rfl
  | syntaxMessage own nonempty msg =>
    obtain ⟨c, rest, rfl⟩ := List.exists_cons_of_ne_nil nonempty
    simp only [Pinpoint.failureMessage, ownField, own, failureDescription, msg]
    rfl
  | syntaxDescribed own msg described =>
    simp only [Pinpoint.failureMessage, ownField, own, failureDescription]
    split
    next c rest htext =>
      have hempty := msg _ (eq_text_of_text? htext)
      cases hempty
    next => exact described

theorem FailsAt.resolveIn {t : Text} {n : Nat} (hn : n ≤ t.length) (hs : ¬t.SplitsPair n)
    {v : Value} (h : v.FailsAt n (t.position n)) :
    resolveIn t v = .ok (textInfo t n (t.position n)) := by
  cases h with
  | placed record start_eq stop_eq pos_eq loc flat =>
    have hstart : (if (v.field "start".toList).isNull then v.field "pos".toList
        else v.field "start".toList) = .int n := by
      rw [start_eq]
      exact pos_eq
    have hread := read_placed record (some t) hstart (readStop_null stop_eq) loc flat
    rw [resolveIn_of_trusted hn hread rfl rfl, if_neg hs]
  | syntaxFailure start_eq pos_eq loc_eq line column =>
    have hshape : GivesColumn n n (t.position n) (.syntaxFailure _) :=
      .syntaxFailure start_eq pos_eq loc_eq line column
    exact (hshape.resolveIn hn).1 hs

end Value

def Issue.errorAt (t : Text) (file : Text) (n : Nat) (message : Text) : Issue :=
  let info := textInfo t n (t.position n)
  ⟨.error, file, message, extractLine (.text t) info, info, []⟩

theorem Issue.create_of_resolveIn {t : Text} {n : Nat} {v : Value}
    (h : resolveIn t v = .ok (textInfo t n (t.position n))) (file message : Text) :
    create (.text t) file v message .error = .ok (errorAt t file n message) := by
  obtain ⟨l, hread, hresolve⟩ := bind_eq_ok.1 h
  exact create_of_resolve rfl hread hresolve file message .error

namespace Ledger

theorem Ordered.issues_push {l : Ledger} (hl : l.Ordered) (i : Issue) :
    (l.push i).issues = l.issues ++ [i] := by
  have hbefore : l.listed.filterMap (l.push i).get? = l.issues := by
    apply List.filterMap_congr
    intro n hn
    exact get?_push_of_lt (hl.numbered n hn) i
  have hlast : [l.next].filterMap (l.push i).get? = [i] := by
    rw [List.filterMap_cons_some (get?_push_next l i)]
    rfl
  have hlisted : (l.push i).listed = l.listed ++ [l.next] := rfl
  rw [issues, hlisted, List.filterMap_append, hbefore, hlast]

/-- **A failure adds what its offset and its message add.** In front of the place that ends its
text, the message may itself end in blanks or in a place; it is kept to the letter. -/
theorem run_addFailure {t : Text} {n : Nat} (hn : n ≤ t.length) (hs : ¬t.SplitsPair n)
    {m a b : Text} (hm : m ≠ []) (hlf : '\n' ∉ m) (ha : IsNumeral a) (hb : IsNumeral b)
    (file : Text) :
    ∃ i : Issue, i.severity = .error ∧ i.file = file ∧ i.message = m ∧
      ∀ history : List (Action ε),
        ((run history).push i).issues = (run history).issues ++ [i] ∧
        (add (.text t) file (.int n) m .error).run (run history) = .ok () ((run history).push i) ∧
        ∀ (write : Writer) (v : Value), v.FailsAt n (t.position n) →
          v.Says write (m ++ ' ' :: locationGroup a b) →
            (addFailure write v (.text t) file).run (run history) =
              .ok () ((run history).push i) := by
  refine ⟨.errorAt t file n m, rfl, rfl, rfl, fun history => ⟨?_, ?_, ?_⟩⟩
  · exact (run_ordered history).issues_push _
  · have hoffset : resolveIn t (.int n) = .ok (textInfo t n (t.position n)) :=
      Value.GivesOffset.offset.resolveIn hn (Int.le_refl n)
    rw [add_run, Issue.create_of_resolveIn hoffset]
  · intro write v hplace htold
    have hmessage := stripLocation_append hm hlf ha hb
    have hmade : Issue.ofFailure write v (.text t) file = .ok (.errorAt t file n m) := by
      rw [← Issue.create_of_resolveIn (hplace.resolveIn hn hs) file m, Issue.ofFailure,
        htold.failureMessage]
      simp only [Except.mapError, bind, Except.bind, hmessage]
    rw [addFailure_run, hmade]

/-- A message that ends in a place and a blank, told in three ways. -/
theorem run_addFailure_behind_earlier_place :
    let t : Text := ['a', '\r', '\n', 'b', 'c']
    let m : Text := ['N', 'o', ' ', '(', '1', ':', '2', ')', ' ']
    let said : Text := m ++ ' ' :: locationGroup ['2'] ['1', '\u0662']
    let place : List (Text × Value) :=
      [("pos".toList, .int 4), ("loc".toList, .ofLineColumn ⟨2, 1⟩)]
    4 ≤ t.length ∧ ¬t.SplitsPair 4 ∧ m ≠ [] ∧ '\n' ∉ m ∧ IsNumeral ['2'] ∧
      IsNumeral ['1', '\u0662'] ∧
      ∃ i : Issue, i.message = m ∧ ∀ history : List (Action Empty),
        (add (.text t) [] (.int 4) m .error).run (run history) = .ok () ((run history).push i) ∧
        ∀ v ∈ [Value.failure none (("message".toList, .text said) :: place),
          .failure (some said) place, .syntaxFailure [("msg".toList, .text said),
            ("lineno".toList, .int 2), ("offset".toList, .int 2)]],
          (addFailure (Value.write 1) v (.text t) []).run (run history) =
            .ok () ((run history).push i) := by
  intro t m said place
  have hn : 4 ≤ t.length := by decide
  have hs : ¬t.SplitsPair 4 := by decide
  have hm : m ≠ [] := by decide
  have hlf : '\n' ∉ m := by decide
  have ha : IsNumeral ['2'] := ⟨by decide, List.all_eq_true.1 (by decide)⟩
  have hb : IsNumeral ['1', '\u0662'] := ⟨by decide, List.all_eq_true.1 (by decide)⟩
  obtain ⟨i, -, -, hmessage, hrun⟩ := run_addFailure (ε := Empty) hn hs hm hlf ha hb []
  refine ⟨hn, hs, hm, hlf, ha, hb, i, hmessage, fun history => ?_⟩
  obtain ⟨-, hadd, hfailure⟩ := hrun history
  refine ⟨hadd, fun v hv => ?_⟩
  simp only [List.mem_cons, List.not_mem_nil, or_false] at hv
  rcases hv with rfl | rfl | rfl
  · exact hfailure _ _ (.placed rfl rfl rfl rfl ⟨rfl, rfl⟩ rfl) (.message rfl)
  · exact hfailure _ _ (.placed rfl rfl rfl rfl ⟨rfl, rfl⟩ rfl) (.described rfl)
  · exact hfailure _ _ (.syntaxFailure rfl rfl rfl rfl rfl) (.syntaxMessage rfl (by decide) rfl)

end Ledger

end Pinpoint
