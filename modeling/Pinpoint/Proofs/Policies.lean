import Mathlib.Data.List.AList
import Mathlib.Data.List.Induction
import Mathlib.Data.List.TakeWhile
import Pinpoint.Style.Policy
import Pinpoint.Value.Written

/-!
# What policies remember

A policy remembers the overrides that it was last given, and nothing from before: a role has the
style that the last value for it reads as, and its default style if there is no value or it is no
style (`Policy.set_eq`). Of many policies beside each other, the one of the process included, each
goes by the last call on it alone (`Policies.run_remembers_last`).

A value that is no style should never stop a call. It does if nothing can be said about it, because
it cannot be written: then the overrides behind it are lost (`Policies.not_always_through`).
-/

namespace Pinpoint

/-! ## Entries by key -/

theorem Scalar.sameKey_text {k : Scalar} {t : Text} :
    k.sameKey (.text t) = true ↔ k = .text t := by
  cases k with
  | float x =>
    simp only [sameKey, number?, reduceCtorEq, iff_false]
    cases x.toInt? <;> simp
  | _ => simp [sameKey, number?]

theorem Scalar.text_sameKey {k : Scalar} {t : Text} :
    (Scalar.text t).sameKey k = true ↔ k = .text t := by
  cases k with
  | float x =>
    simp only [sameKey, number?, reduceCtorEq, iff_false]
    cases x.toInt? <;> simp
  | text u =>
    simp only [sameKey, number?, beq_iff_eq]
    exact eq_comm
  | _ => simp [sameKey, number?]

namespace Entries

variable {α : Type}

/-- Entries under keys of which no two are the same. -/
def Distinct (entries : List (Scalar × α)) : Prop :=
  entries.Pairwise fun a b => a.1.sameKey b.1 = false

theorem find?_cons (e : Scalar × α) (rest : List (Scalar × α)) (key : Scalar) :
    find? (e :: rest) key = if e.1.sameKey key then some e.2 else find? rest key := by
  unfold find?
  cases h : e.1.sameKey key <;> simp [h]

theorem fst_of_mem_insert {key : Scalar} {value : α} {entries : List (Scalar × α)}
    {e : Scalar × α} (h : e ∈ insert key value entries) :
    e.1 = key ∨ ∃ e' ∈ entries, e'.1 = e.1 := by
  fun_induction insert key value entries with
  | case1 => exact .inl (congrArg Prod.fst (List.mem_singleton.1 h))
  | case2 first rest _ =>
    rcases List.mem_cons.1 h with rfl | h
    · exact .inr ⟨first, List.mem_cons_self, rfl⟩
    · exact .inr ⟨e, List.mem_cons_of_mem _ h, rfl⟩
  | case3 first rest _ ih =>
    rcases List.mem_cons.1 h with rfl | h
    · exact .inr ⟨e, List.mem_cons_self, rfl⟩
    · refine (ih h).imp_right fun ⟨e', he', heq⟩ => ?_
      exact ⟨e', List.mem_cons_of_mem _ he', heq⟩

theorem Distinct.insert {entries : List (Scalar × α)} (h : Distinct entries) (key : Scalar)
    (value : α) : Distinct (insert key value entries) := by
  fun_induction Entries.insert key value entries with
  | case1 => exact List.pairwise_singleton _ _
  | case2 first rest _ =>
    obtain ⟨hfirst, hrest⟩ := List.pairwise_cons.1 h
    exact List.pairwise_cons.2 ⟨hfirst, hrest⟩
  | case3 first rest hne ih =>
    obtain ⟨hfirst, hrest⟩ := List.pairwise_cons.1 h
    refine List.pairwise_cons.2 ⟨fun e he => ?_, ih hrest⟩
    rcases fst_of_mem_insert he with heq | ⟨e', he', heq⟩
    · rw [heq]
      exact eq_false_of_ne_true hne
    · rw [← heq]
      exact hfirst e' he'

theorem snd_of_mem_insert {key : Scalar} {value : α} {entries : List (Scalar × α)}
    {e : Scalar × α} (h : e ∈ insert key value entries) :
    e.2 = value ∨ ∃ e' ∈ entries, e'.2 = e.2 := by
  fun_induction insert key value entries with
  | case1 => exact .inl (congrArg Prod.snd (List.mem_singleton.1 h))
  | case2 first rest _ =>
    rcases List.mem_cons.1 h with rfl | h
    · exact .inl rfl
    · exact .inr ⟨e, List.mem_cons_of_mem _ h, rfl⟩
  | case3 first rest _ ih =>
    rcases List.mem_cons.1 h with rfl | h
    · exact .inr ⟨e, List.mem_cons_self, rfl⟩
    · refine (ih h).imp_right fun ⟨e', he', heq⟩ => ?_
      exact ⟨e', List.mem_cons_of_mem _ he', heq⟩

theorem find?_insert (key : Scalar) (value : α) (entries : List (Scalar × α)) (t : Text) :
    find? (insert key value entries) (.text t) =
      if key = .text t then some value else find? entries (.text t) := by
  fun_induction insert key value entries with
  | case1 => simp only [find?_cons, Scalar.sameKey_text]
  | case2 first rest hsame =>
    have hiff : first.1 = .text t ↔ key = .text t := by
      constructor
      · intro h
        rw [h] at hsame
        exact Scalar.text_sameKey.1 hsame
      · intro h
        rw [h] at hsame
        exact Scalar.sameKey_text.1 hsame
    simp only [find?_cons, Scalar.sameKey_text, hiff]
    split <;> rfl
  | case3 first rest hne ih =>
    rw [find?_cons, find?_cons, ih]
    by_cases hkey : key = .text t
    · rw [hkey] at hne
      rw [if_neg hne, if_pos hkey, if_pos hkey]
    · rw [if_neg hkey, if_neg hkey]

theorem ofPairs_append_singleton (pairs : List (Scalar × α)) (p : Scalar × α) :
    ofPairs (pairs ++ [p]) = insert p.1 p.2 (ofPairs pairs) := by
  unfold ofPairs
  rw [List.foldl_append]
  rfl

theorem snd_of_mem_ofPairs {pairs : List (Scalar × α)} {e : Scalar × α} (h : e ∈ ofPairs pairs) :
    ∃ p ∈ pairs, p.2 = e.2 := by
  induction pairs using List.reverseRecOn generalizing e with
  | nil => cases h
  | append_singleton pairs p ih =>
    rw [ofPairs_append_singleton] at h
    rcases snd_of_mem_insert h with heq | ⟨e', he', heq⟩
    · exact ⟨p, List.mem_append_right _ List.mem_cons_self, heq.symm⟩
    · obtain ⟨p', hp', heq'⟩ := ih he'
      exact ⟨p', List.mem_append_left _ hp', heq'.trans heq⟩

theorem ofPairs_distinct (pairs : List (Scalar × α)) : Distinct (ofPairs pairs) := by
  induction pairs using List.reverseRecOn with
  | nil => exact .nil
  | append_singleton pairs p ih =>
    rw [ofPairs_append_singleton]
    exact ih.insert p.1 p.2

theorem insert_of_not_mem {key : Scalar} {value : α} {entries : List (Scalar × α)}
    (h : ∀ e ∈ entries, e.1.sameKey key = false) :
    insert key value entries = entries ++ [(key, value)] := by
  induction entries with
  | nil => rfl
  | cons e rest ih =>
    obtain ⟨he, hrest⟩ := List.forall_mem_cons.1 h
    rw [insert, he, if_neg Bool.false_ne_true, ih hrest, List.cons_append]

theorem ofPairs_of_distinct {entries : List (Scalar × α)} (h : Distinct entries) :
    ofPairs entries = entries := by
  induction entries using List.reverseRecOn with
  | nil => rfl
  | append_singleton entries e ih =>
    obtain ⟨hbefore, -, hlast⟩ := List.pairwise_append.1 h
    rw [ofPairs_append_singleton, ih hbefore]
    exact insert_of_not_mem fun e' he' => hlast e' he' e (List.mem_singleton.2 rfl)

/-- Of pairs with one text for their key the last one wins. -/
theorem find?_ofPairs (pairs : List (Scalar × α)) (t : Text) :
    find? (ofPairs pairs) (.text t) =
      (pairs.reverse.find? fun e => e.1 = .text t).map (·.2) := by
  induction pairs using List.reverseRecOn with
  | nil => rfl
  | append_singleton pairs p ih =>
    rw [ofPairs_append_singleton, find?_insert, ih, List.reverse_append, List.reverse_singleton,
      List.singleton_append, List.find?_cons]
    by_cases h : p.1 = .text t <;> simp [h]

end Entries

/-! ## One policy -/

def Role.ofKey? : Scalar → Option Role
  | .text t => ofName? t
  | _ => none

theorem Role.ofKey?_name (r : Role) : ofKey? (.text r.name) = some r := ofName?_name r

theorem Role.ofKey?_eq_some_iff {key : Scalar} {r : Role} :
    ofKey? key = some r ↔ key = .text r.name := by
  constructor
  · intro h
    cases key with
    | text t =>
      have hname := List.find?_some (show all.find? (fun r => r.name == t) = some r from h)
      rw [eq_of_beq hname]
    | _ => cases h
  · rintro rfl
    exact ofKey?_name r

theorem Role.name_inj {r r' : Role} (h : r.name = r'.name) : r = r' :=
  Option.some.inj (by rw [← ofName?_name r, h, ofName?_name])

/-- The value that overrides give a role; of several it is the last. -/
def valueFor? (overrides : Overrides) (r : Role) : Option Value :=
  (overrides.reverse.find? fun e => e.1 = .text r.name).map (·.2)

/-- The style that a value reads as; another one if it is no style. -/
def Style.readOr (other : Option Style) (v : Value) : Option Style :=
  match read v with
  | .ok style => style
  | .error _ => other

/-- The styles that overrides come to on their own. -/
def due (overrides : Overrides) (r : Role) : Option Style :=
  match valueFor? overrides r with
  | some v => Style.readOr r.defaultStyle v
  | none => r.defaultStyle

/-- The dictionary that holds a style, or none, under the name of every role and nothing else. -/
def Policy.of (styles : Role → Option Style) : Policy :=
  ⟨Role.all.map fun r => (.text r.name, styles r)⟩

/-- What keeps a call from going through an override. -/
inductive Breaks (write : Writer) : Scalar × Value → Fault → Prop where
  /-- A key that is no role cannot be written. -/
  | unknownRole {key : Scalar} {v : Value} {f : Fault} (role : ∀ r : Role, key ≠ .text r.name)
      (unwritten : write (.scalar key) = .error f) : Breaks write (key, v) f
  /-- It cannot be said why a value is no style. -/
  | value {r : Role} {v : Value} {e : StyleError} {f : Fault} (read : Style.read v = .error e)
      (unsaid : e.reason write = .error f) : Breaks write (.text r.name, v) f
  | role {r : Role} {v : Value} {e : StyleError} {reason : Text} {f : Fault}
      (read : Style.read v = .error e) (said : e.reason write = .ok reason)
      (unwritten : write (.scalar (.text r.name)) = .error f) : Breaks write (.text r.name, v) f

section
variable (write : Writer)

def PolicyNotice.of? (e : Scalar × Value) : Except Fault (Option PolicyNotice) :=
  match Role.ofKey? e.1 with
  | none => do return some (.unknownRole (← write (.scalar e.1)))
  | some _ =>
    match Style.read e.2 with
    | .ok _ => .ok none
    | .error error => do
      let reason ← error.reason write
      return some (.notAStyle (← write (.scalar e.1)) reason)

/-- The notice that an override is passed over with. -/
def PolicyNotice.given? (e : Scalar × Value) : Option PolicyNotice := (of? write e).toOption.join

/-- What an override breaks off with. -/
def breakFault? (e : Scalar × Value) : Option Fault :=
  match PolicyNotice.of? write e with
  | .ok _ => none
  | .error f => some f

/-- The overrides of a dictionary that are gone through, before the first that breaks off. -/
def heeded (overrides : Overrides) : Overrides :=
  (Entries.ofPairs overrides).takeWhile fun e => (breakFault? write e).isNone

end

theorem PolicyNotice.of?_eq_error_iff {write : Writer} {e : Scalar × Value} {f : Fault} :
    PolicyNotice.of? write e = .error f ↔ Breaks write e f := by
  constructor
  · obtain ⟨key, v⟩ := e
    intro h
    cases hrole : Role.ofKey? key with
    | none =>
      have hkey : ∀ r : Role, key ≠ .text r.name := by
        rintro r rfl
        rw [Role.ofKey?_name] at hrole
        cases hrole
      simp only [of?, hrole] at h
      cases hwritten : write (.scalar key) with
      | ok t =>
        rw [hwritten] at h
        cases h
      | error f' =>
        rw [hwritten] at h
        cases h
        exact .unknownRole hkey hwritten
    | some r =>
      rw [Role.ofKey?_eq_some_iff] at hrole
      subst hrole
      simp only [of?, Role.ofKey?_name] at h
      cases hread : Style.read v with
      | ok style =>
        rw [hread] at h
        cases h
      | error error =>
        simp only [hread] at h
        cases hsaid : error.reason write with
        | error f' =>
          rw [hsaid] at h
          cases h
          exact .value hread hsaid
        | ok reason =>
          rw [hsaid] at h
          cases hwritten : write (.scalar (.text r.name)) with
          | ok t =>
            rw [hwritten] at h
            cases h
          | error f' =>
            rw [hwritten] at h
            cases h
            exact .role hread hsaid hwritten
  · intro h
    cases h with
    | @unknownRole key v f role unwritten =>
      have hrole : Role.ofKey? key = none :=
        Option.eq_none_iff_forall_ne_some.2 fun r hr => role r (Role.ofKey?_eq_some_iff.1 hr)
      simp only [of?, hrole, unwritten]
      rfl
    | value read unsaid =>
      simp only [of?, Role.ofKey?_name, read, unsaid]
      rfl
    | role read said unwritten =>
      simp only [of?, Role.ofKey?_name, read, said, unwritten]
      rfl

namespace Policy

theorem styleFor_of (styles : Role → Option Style) (r : Role) :
    (of styles).styleFor r = styles r := by
  cases r <;> rfl

theorem find?_of (styles : Role → Option Style) (key : Scalar) :
    (of styles).find? key = (Role.ofKey? key).map styles := by
  cases hrole : Role.ofKey? key with
  | some r =>
    rw [Role.ofKey?_eq_some_iff.1 hrole]
    cases r <;> rfl
  | none =>
    rw [find?, Entries.find?, List.find?_eq_none.2, Option.map_none, Option.map_none]
    intro e he hsame
    obtain ⟨r, -, rfl⟩ := List.mem_map.1 he
    rw [Role.ofKey?_eq_some_iff.2 (Scalar.text_sameKey.1 hsame)] at hrole
    cases hrole

/-- Under a key that is there, the dictionary gets a new value and keeps its shape. -/
theorem assign_of (styles : Role → Option Style) (r : Role) (style : Option Style) :
    (of styles).assign (.text r.name) style = of fun r' => if r' = r then style else styles r' := by
  cases r <;> rfl

/-- The styles after one override. -/
def styled (styles : Role → Option Style) (e : Scalar × Value) (r : Role) : Option Style :=
  if e.1 = .text r.name then Style.readOr (styles r) e.2 else styles r

theorem styled_text (styles : Role → Option Style) (r : Role) (v : Value) (r' : Role) :
    styled styles (.text r.name, v) r' =
      if r' = r then Style.readOr (styles r') v else styles r' := by
  have hiff : Scalar.text r.name = .text r'.name ↔ r' = r :=
    ⟨fun h => (Role.name_inj (Scalar.text.inj h)).symm, fun h => by rw [h]⟩
  simp only [styled, hiff]

/-- An override breaks off; or it gives its role a style if it has one, and else it is passed over.
-/
theorem override_of (write : Writer) (styles : Role → Option Style) (e : Scalar × Value) :
    (of styles).override write e.1 e.2 =
      (PolicyNotice.of? write e).map fun notice => (of (styled styles e), notice) := by
  obtain ⟨key, v⟩ := e
  simp only [override, find?_of, PolicyNotice.of?]
  cases hrole : Role.ofKey? key with
  | none =>
    have hsame : styled styles (key, v) = styles := by
      funext r
      refine if_neg fun hr => ?_
      rw [Role.ofKey?_eq_some_iff.2 hr] at hrole
      cases hrole
    rw [hsame]
    cases write (.scalar key) <;> rfl
  | some r =>
    rw [Role.ofKey?_eq_some_iff] at hrole
    subst hrole
    cases hread : Style.read v with
    | ok style =>
      have hstyled : styled styles (.text r.name, v) =
          fun r' => if r' = r then style else styles r' := by
        funext r'
        rw [styled_text, Style.readOr, hread]
      simp only [Option.map_some, hstyled, assign_of]
      rfl
    | error error =>
      have hsame : styled styles (.text r.name, v) = styles := by
        funext r'
        rw [styled_text, Style.readOr, hread, ite_self]
      simp only [Option.map_some, hsame]
      cases error.reason write with
      | error f => rfl
      | ok reason => cases write (.scalar (.text r.name)) <;> rfl

/-- Overrides are gone through up to the first that breaks off. -/
theorem overrideAll_of (write : Writer) (styles : Role → Option Style) (entries : Overrides) :
    (of styles).overrideAll write entries =
      { policy := of ((entries.takeWhile fun e => (breakFault? write e).isNone).foldl styled styles)
        notices := (entries.takeWhile fun e => (breakFault? write e).isNone).filterMap
          (PolicyNotice.given? write)
        fault := entries.findSome? (breakFault? write) } := by
  induction entries generalizing styles with
  | nil => rfl
  | cons e rest ih =>
    rw [overrideAll, override_of]
    cases hnotice : PolicyNotice.of? write e with
    | error f =>
      have hfault : breakFault? write e = some f := by rw [breakFault?, hnotice]
      simp only [Except.map, List.takeWhile_cons, List.findSome?_cons, hfault]
      rfl
    | ok notice =>
      have hfault : breakFault? write e = none := by rw [breakFault?, hnotice]
      have hgiven : PolicyNotice.given? write e = notice := by
        rw [PolicyNotice.given?, hnotice]
        rfl
      simp only [Except.map, ih, List.takeWhile_cons, List.findSome?_cons, hfault,
        Option.isNone_none, if_true, List.foldl_cons, List.filterMap_cons, hgiven]
      cases notice <;> rfl

/-- Overrides under different keys do not get into each other's way. -/
theorem foldl_styled {entries : Overrides} (h : Entries.Distinct entries)
    (styles : Role → Option Style) (r : Role) :
    entries.foldl styled styles r =
      match Entries.find? entries (.text r.name) with
      | some v => Style.readOr (styles r) v
      | none => styles r := by
  induction entries generalizing styles with
  | nil => rfl
  | cons e rest ih =>
    obtain ⟨hfirst, hrest⟩ := List.pairwise_cons.1 h
    rw [List.foldl_cons, ih hrest, styled, Entries.find?_cons]
    by_cases he : e.1 = .text r.name
    · -- no later override is under the same key
      have hnone : Entries.find? rest (.text r.name) = none := by
        rw [Entries.find?, List.find?_eq_none.2, Option.map_none]
        intro e' he' hsame
        have hdifferent := hfirst e' he'
        rw [he, Scalar.sameKey_text.1 hsame, Scalar.sameKey_text.2 rfl] at hdifferent
        cases hdifferent
      rw [hnone, if_pos he, if_pos (Scalar.sameKey_text.2 he)]
    · rw [if_neg he, if_neg (mt Scalar.sameKey_text.1 he)]

end Policy

theorem valueFor?_of_distinct {entries : Overrides} (h : Entries.Distinct entries) (r : Role) :
    Entries.find? entries (.text r.name) = valueFor? entries r := by
  rw [valueFor?, ← Entries.find?_ofPairs, Entries.ofPairs_of_distinct h]

/-- Of several pairs for a role, a dictionary has the last. -/
theorem due_ofPairs (overrides : Overrides) : due (Entries.ofPairs overrides) = due overrides := by
  funext r
  rw [due, due, ← valueFor?_of_distinct (Entries.ofPairs_distinct overrides),
    Entries.find?_ofPairs]
  rfl

theorem due_heeded {write : Writer} {overrides : Overrides}
    (h : ∀ e ∈ Entries.ofPairs overrides, ∀ f, ¬Breaks write e f) :
    due (heeded write overrides) = due overrides := by
  have hall : ∀ e ∈ Entries.ofPairs overrides, (breakFault? write e).isNone = true := by
    intro e he
    unfold breakFault?
    split
    next => rfl
    next f hf => exact absurd (PolicyNotice.of?_eq_error_iff.1 hf) (h e he f)
  rw [heeded, List.takeWhile_eq_self_iff.2 hall, due_ofPairs]

namespace Policy

variable (write : Writer)

/-- Setting overrides leaves nothing of what a policy held before, and not even its roles. -/
theorem set_eq (p : Policy) (overrides : Overrides) :
    p.set write overrides =
      { policy := of (due (heeded write overrides))
        notices := (heeded write overrides).filterMap (PolicyNotice.given? write)
        fault := (Entries.ofPairs overrides).findSome? (breakFault? write) } := by
  have hreset : p.reset = of Role.defaultStyle := rfl
  have hdistinct : Entries.Distinct (heeded write overrides) :=
    (Entries.ofPairs_distinct overrides).sublist (List.takeWhile_sublist _)
  have hstyles : (heeded write overrides).foldl styled Role.defaultStyle =
      due (heeded write overrides) := by
    funext r
    rw [foldl_styled hdistinct, valueFor?_of_distinct hdistinct, due]
  rw [set, hreset, overrideAll_of, ← hstyles, heeded]

theorem make_eq (overrides : Overrides) : make write overrides = (reset ⟨[]⟩).set write overrides := by
  cases overrides <;> rfl

end Policy

theorem ofPairs_heeded (write : Writer) (overrides : Overrides) :
    Entries.ofPairs (heeded write overrides) = heeded write overrides :=
  Entries.ofPairs_of_distinct
    ((Entries.ofPairs_distinct overrides).sublist (List.takeWhile_sublist _))

/-- What is heeded once is heeded again, and nothing in it breaks off. -/
theorem heeded_heeded (write : Writer) (overrides : Overrides) :
    heeded write (heeded write overrides) = heeded write overrides ∧
      (Entries.ofPairs (heeded write overrides)).findSome? (breakFault? write) = none := by
  have hnone : ∀ e ∈ heeded write overrides, (breakFault? write e).isNone = true :=
    fun e he => List.mem_takeWhile_imp (p := fun e => (breakFault? write e).isNone) he
  constructor
  · rw [heeded, ofPairs_heeded]
    exact List.takeWhile_eq_self_iff.2 hnone
  · rw [ofPairs_heeded]
    exact List.findSome?_eq_none_iff.2 fun e he => Option.isNone_iff_eq_none.1 (hnone e he)

/-- A call breaks off at the first override that does. -/
theorem findSome?_breakFault?_eq_some_iff {write : Writer} {overrides : Overrides} {f : Fault} :
    (Entries.ofPairs overrides).findSome? (breakFault? write) = some f ↔ ∃ e after,
      Entries.ofPairs overrides = heeded write overrides ++ e :: after ∧ Breaks write e f := by
  have hbreaks (e : Scalar × Value) : breakFault? write e = some f ↔ Breaks write e f := by
    rw [← PolicyNotice.of?_eq_error_iff, breakFault?]
    split
    next notice hnotice => rw [hnotice]; exact ⟨nofun, nofun⟩
    next f' hf => rw [hf, Option.some.injEq, Except.error.injEq]
  rw [List.findSome?_eq_some_iff]
  constructor
  · rintro ⟨before, e, after, hsplit, he, hbefore⟩
    refine ⟨e, after, ?_, (hbreaks e).1 he⟩
    have hheeded : heeded write overrides = before := by
      rw [heeded, hsplit, List.takeWhile_append_of_pos fun e' he' => by rw [hbefore e' he']; rfl,
        List.takeWhile_cons_of_neg (by rw [he]; exact Bool.false_ne_true), List.append_nil]
    rw [hheeded, hsplit]
  · rintro ⟨e, after, hsplit, he⟩
    refine ⟨_, e, after, hsplit, (hbreaks e).2 he, fun e' he' => ?_⟩
    exact Option.isNone_iff_eq_none.1
      (List.mem_takeWhile_imp (p := fun e => (breakFault? write e).isNone) he')

/-! ## Many policies -/

/-- What a policy is known by: there is one for the process, and callers make their own. -/
inductive PolicyName where
  | process
  | own (n : Nat)
deriving DecidableEq, Repr

/-- A call that makes a policy or changes one. -/
inductive PolicyCall where
  | make (n : Nat) (overrides : Option Overrides)
  | set (name : PolicyName) (overrides : Overrides)
  | reset (name : PolicyName)

/-- The policies that there are. -/
abbrev Policies := AList fun _ : PolicyName => Policy

namespace PolicyCall

def name : PolicyCall → PolicyName
  | .make n _ => .own n
  | .set name _ => name
  | .reset name => name

def isMake : PolicyCall → Bool
  | .make _ _ => true
  | .set _ _ => false
  | .reset _ => false

/-- The overrides that a call gives; none if it asks for the default styles. -/
def overrides : PolicyCall → Overrides
  | .make _ overrides => overrides.getD []
  | .set _ overrides => overrides
  | .reset _ => []

variable (write : Writer)

/-- What a call comes to, unless it is about a policy that is not there. -/
def change? (ps : Policies) : PolicyCall → Option PolicyChange
  | .make _ overrides => some (Policy.make write (overrides.getD []))
  | .set name overrides => (ps.lookup name).map fun p => p.set write overrides
  | .reset name => (ps.lookup name).map fun p => ⟨p.reset, [], none⟩

/-- What a call comes to is up to its overrides, and not to what the policy held before. -/
theorem change?_eq (ps : Policies) (c : PolicyCall) :
    c.change? write ps =
      if c.isMake = true ∨ (ps.lookup c.name).isSome = true then
        some
          { policy := .of (due (heeded write c.overrides))
            notices := (heeded write c.overrides).filterMap (PolicyNotice.given? write)
            fault := (Entries.ofPairs c.overrides).findSome? (breakFault? write) }
      else none := by
  cases c with
  | make n overrides =>
    rw [change?, Policy.make_eq, Policy.set_eq]
    rfl
  | set name overrides =>
    simp only [change?, isMake, PolicyCall.name, PolicyCall.overrides, Bool.false_eq_true, false_or]
    cases ps.lookup name with
    | none => rfl
    | some p => exact congrArg some (p.set_eq write overrides)
  | reset name =>
    simp only [change?, isMake, PolicyCall.name, Bool.false_eq_true, false_or]
    cases ps.lookup name <;> rfl

/-- Whether a call leaves a policy behind: what is being made is lost if the call breaks off. -/
def leaves (c : PolicyCall) : Bool :=
  !c.isMake || ((Entries.ofPairs c.overrides).findSome? (breakFault? write)).isNone

end PolicyCall

namespace Policies

/-- At first there is the policy of the process, with the default styles. -/
def start : Policies := AList.singleton .process Policy.default

variable (write : Writer)

def call (ps : Policies) (c : PolicyCall) : Policies :=
  match c.change? write ps with
  | none => ps
  | some change =>
    if c.isMake && change.fault.isSome then ps else ps.insert c.name change.policy

def run (history : List PolicyCall) : Policies := history.foldl (call write) start

/-- Whether there is a policy of a name after these calls. -/
def known (history : List PolicyCall) (name : PolicyName) : Bool :=
  name = .process || history.any fun c => name = c.name && c.isMake && c.leaves write

/-- The overrides that count in a policy: those of the last call on it that were gone through. -/
def told (history : List PolicyCall) (name : PolicyName) : Overrides :=
  match history.reverse.find? fun c => name = c.name && c.leaves write with
  | some c => heeded write c.overrides
  | none => []

theorem lookup_call (ps : Policies) (c : PolicyCall) (name : PolicyName) :
    (ps.call write c).lookup name =
      if name = c.name ∧ c.leaves write = true ∧ (c.isMake = true ∨ (ps.lookup name).isSome = true) then
        some (.of (due (heeded write c.overrides)))
      else ps.lookup name := by
  have hinsert (p : Policy) : (ps.insert c.name p).lookup name =
      if name = c.name then some p else ps.lookup name := by
    split
    next hname => rw [hname, AList.lookup_insert]
    next hname => exact AList.lookup_insert_ne hname
  rw [call, PolicyCall.change?_eq]
  by_cases hthere : c.isMake = true ∨ (ps.lookup c.name).isSome = true
  case neg =>
    rw [if_neg hthere, if_neg]
    rintro ⟨rfl, -, h⟩
    exact hthere h
  have hlost : (c.isMake && ((Entries.ofPairs c.overrides).findSome? (breakFault? write)).isSome) =
      !c.leaves write := by
    rw [PolicyCall.leaves, Bool.not_or, Bool.not_not, Option.not_isNone]
  rw [if_pos hthere]
  dsimp only
  rw [hlost]
  cases hleaves : c.leaves write with
  | false => simp
  | true =>
    rw [Bool.not_true, if_neg Bool.false_ne_true, hinsert]
    by_cases hname : name = c.name
    · subst hname
      rw [if_pos rfl, if_pos ⟨rfl, rfl, hthere⟩]
    · rw [if_neg hname, if_neg fun h => hname h.1]

theorem run_append_singleton (history : List PolicyCall) (c : PolicyCall) :
    run write (history ++ [c]) = (run write history).call write c := by
  unfold run
  rw [List.foldl_append]
  rfl

section
variable {write} {history : List PolicyCall} {c : PolicyCall} {name : PolicyName}

theorem known_append_singleton : known write (history ++ [c]) name =
    (known write history name || (name = c.name && c.isMake && c.leaves write)) := by
  simp only [known, List.any_append, List.any_cons, List.any_nil, Bool.or_false, Bool.or_assoc]

theorem told_append_of_leaves (hname : name = c.name) (h : c.leaves write = true) :
    told write (history ++ [c]) name = heeded write c.overrides := by
  simp [told, hname, h]

theorem told_append_of_not (h : ¬(name = c.name ∧ c.leaves write = true)) :
    told write (history ++ [c]) name = told write history name := by
  have hnot : (decide (name = c.name) && c.leaves write) = false := by simpa using h
  simp only [told, List.reverse_append, List.reverse_singleton, List.singleton_append,
    List.find?_cons, hnot]

end

theorem lookup_run (history : List PolicyCall) (name : PolicyName) :
    (run write history).lookup name =
      if known write history name then some (.of (due (told write history name))) else none := by
  induction history using List.reverseRecOn with
  | nil =>
    cases name with
    | process => rfl
    | own n => rfl
  | append_singleton history c ih =>
    rw [run_append_singleton, lookup_call, known_append_singleton]
    by_cases hcall : name = c.name ∧ c.leaves write = true
    · obtain ⟨hname, hleaves⟩ := hcall
      rw [told_append_of_leaves hname hleaves]
      simp only [hname, hleaves] at ih ⊢
      rw [ih]
      cases known write history c.name <;> cases c.isMake <;> simp
    · have hknown : (decide (name = c.name) && c.isMake && c.leaves write) = false := by
        rw [Bool.and_right_comm, Bool.and_eq_false_imp]
        intro hboth
        exact absurd (by simpa using hboth) hcall
      rw [told_append_of_not hcall, if_neg fun h => hcall ⟨h.1, h.2.1⟩, ih, hknown, Bool.or_false]

/-- **Each policy is the dictionary of all roles with the styles that are due under what it was last
told, whatever it was told before and whatever happened to the others.** What is passed over in
overrides is worth a notice and keeps no other override from counting. Only an override about which
no notice can be given breaks off its call, and then those behind it are lost. -/
theorem run_remembers_last (history : List PolicyCall) :
    (∀ name, (run write history).lookup name =
      if known write history name then some (.of (due (told write history name))) else none) ∧
    (∀ overrides, (∀ e ∈ Entries.ofPairs overrides, ∀ f, ¬Breaks write e f) →
      due (heeded write overrides) = due overrides) ∧
    ∀ (c : PolicyCall) (change : PolicyChange), c.change? write (run write history) = some change →
      change.policy = .of (due (heeded write c.overrides)) ∧
      change.notices = (heeded write c.overrides).filterMap (PolicyNotice.given? write) ∧
      ∀ f, change.fault = some f ↔ ∃ e after,
        Entries.ofPairs c.overrides = heeded write c.overrides ++ e :: after ∧ Breaks write e f := by
  refine ⟨lookup_run write history, fun overrides => due_heeded, fun c change h => ?_⟩
  rw [PolicyCall.change?_eq] at h
  split at h
  next =>
    cases h
    exact ⟨rfl, rfl, fun f => findSome?_breakFault?_eq_some_iff⟩
  next => cases h

end Policies

/-! ## Values that cannot be written -/

def nestedText : Nat → Value
  | 0 => .text []
  | n + 1 => .list [nestedText n]

theorem write_nestedText {depth n : Nat} (h : depth ≤ n) :
    Value.write depth (nestedText n) = .error .tooDeep := by
  induction depth generalizing n with
  | zero => rfl
  | succ depth ih =>
    cases n with
    | zero => exact absurd h (Nat.not_succ_le_zero depth)
    | succ m =>
      simp only [nestedText, Value.write, List.mapM_cons, ih (Nat.le_of_succ_le_succ h)]
      rfl

/-- Nothing can be said about a value that is nested too deeply. -/
theorem breakFault?_nestedText (r : Role) {depth n : Nat} (h : depth ≤ n) (hn : 0 < n) :
    breakFault? (Value.write depth) (.text r.name, nestedText n) = some .tooDeep := by
  obtain ⟨m, rfl⟩ := Nat.exists_eq_succ_of_ne_zero (Nat.ne_of_gt hn)
  have hread : Style.read (nestedText (m + 1)) = .error (.notAStyle (nestedText (m + 1))) := rfl
  have hbreaks : Breaks (Value.write depth) (.text r.name, nestedText (m + 1)) .tooDeep := by
    refine .value hread ?_
    simp only [StyleError.reason, StyleError.message, write_nestedText h]
    rfl
  rw [breakFault?, PolicyNotice.of?_eq_error_iff.2 hbreaks]

namespace Policies

/-- A value that is nested too deeply breaks off a call, and the style behind it is lost. -/
theorem not_always_through :
    ¬∀ (history : List PolicyCall) (c : PolicyCall) (change : PolicyChange),
      c.change? (Value.write nestingLimit) (run (Value.write nestingLimit) history) = some change →
        change.fault = none ∧ change.policy = .of (due c.overrides) := by
  intro h
  let overrides : Overrides :=
    [(.text Role.file.name, nestedText nestingLimit), (.text Role.caret.name, .text "blue".toList)]
  have hfault : (Entries.ofPairs overrides).findSome? (breakFault? (Value.write nestingLimit)) =
      some .tooDeep := by
    have hpairs : Entries.ofPairs overrides = overrides := rfl
    rw [hpairs, List.findSome?_cons, breakFault?_nestedText .file (Nat.le_refl _) (by decide)]
  obtain ⟨hnone, -⟩ := h [] (.set .process overrides) _ (PolicyCall.change?_eq ..)
  rw [show PolicyCall.overrides (.set .process overrides) = overrides from rfl, hfault] at hnone
  cases hnone

/-- A last value that is no style gives way to the default style, not to the value before. -/
example : due [(.text "caret".toList, .text "red".toList), (.text "caret".toList, .int 42)] .caret =
    Role.defaultStyle .caret := rfl

end Policies

end Pinpoint
