import Pinpoint.Proofs.Policies
import Pinpoint.Proofs.Shapes

/-!
# What carries the parts of a location

A location is read by the names that a value holds, so it makes no difference whether a mapping or
an object carries them: at the top, in `loc`, and in the two ends of `loc`, each can stand in for
the other. Nor does a part matter once another one takes precedence over it (`read_recarried`). -/

namespace Pinpoint

namespace Value

/-- What a value is apart from what it holds under names. A mapping and an object are the same. -/
inductive Carrier where
  | record
  | failure
  | syntaxFailure
  | other (v : Value)

/-- The carrier of a value's parts. -/
def carrier : Value → Carrier
  | .mapping _ => .record
  | .object _ => .record
  | .failure _ _ => .failure
  | .syntaxFailure _ => .syntaxFailure
  | v => .other v

def mappingOf (fields : List (Text × Value)) : Value :=
  .mapping (fields.map fun f => (.text f.1, f.2))

/-- Two values that hold the same under every name, each in a mapping or in an object. -/
structure SameParts (v w : Value) : Prop where
  carrier : v.carrier = w.carrier
  parts : ∀ name, v.field name = w.field name

/-- Two values for `loc`, with the same parts up to what carries them, there and in both ends. -/
structure SameLoc (v w : Value) : Prop where
  carrier : v.carrier = w.carrier
  first : (v.field "start".toList).SameParts (w.field "start".toList)
  last : (v.field "end".toList).SameParts (w.field "end".toList)
  others : ∀ name, name ≠ "start".toList → name ≠ "end".toList → v.field name = w.field name

/-- The parts over which others take precedence: the position once there is a start, and the end as
long as there is neither a `loc` nor a start. -/
def PassedOver (v : Value) (name : Text) : Prop :=
  name = "pos".toList ∧ (v.field "start".toList).isNull = false ∨
    name = "end".toList ∧ (v.field "loc".toList).isNull = true ∧
      (v.field "start".toList).isNull = true

/-- Two values for a location, with the same parts up to what carries them, there, in `loc` and in
both ends of `loc`, and up to the parts over which others take precedence. -/
structure SameShape (v w : Value) : Prop where
  carrier : v.carrier = w.carrier
  loc : (v.field "loc".toList).SameLoc (w.field "loc".toList)
  others : ∀ name, name ≠ "loc".toList → ¬v.PassedOver name → v.field name = w.field name

end Value

/-- Two readings that come to the same: the same location, or refusals of one kind, which can be
worded or are not for one reason. -/
def SameOutcome (a b : Except LocationError Location) : Prop :=
  a.mapError LocationError.kind = b.mapError LocationError.kind ∧
    ∀ write : Writer, a.mapError (LocationError.reported write) =
      b.mapError (LocationError.reported write)

@[refl]
theorem SameOutcome.refl (a : Except LocationError Location) : SameOutcome a a :=
  ⟨rfl, fun _ => rfl⟩

/-! ## Carriers -/

namespace Value

theorem field_mappingOf (fields : List (Text × Value)) (name : Text) :
    (mappingOf fields).field name = (Value.object fields).field name := by
  have hfind : Entries.find? (fields.map fun f => (Scalar.text f.1, f.2)) (.text name) =
      (fields.find? fun f => f.1 == name).map (·.2) := by
    have hkey : ∀ f : Text × Value, (Scalar.text f.1).sameKey (.text name) = (f.1 == name) := by
      intro f
      rw [Bool.eq_iff_iff, Scalar.sameKey_text, beq_iff_eq, Scalar.text.injEq]
    simp only [Entries.find?, List.find?_map, Option.map_map, Function.comp_def, hkey]
  show (Entries.find? _ _).getD null = _
  rw [hfind]
  rfl

theorem field_object_cons {name key : Text} (h : name ≠ key) (x : Value)
    (fields : List (Text × Value)) :
    (Value.object ((key, x) :: fields)).field name = (Value.object fields).field name := by
  show lookup _ name = lookup fields name
  rw [lookup, List.find?_cons_of_neg (by simpa using h.symm), lookup]

theorem SameParts.symm {v w : Value} (h : v.SameParts w) : w.SameParts v :=
  ⟨h.carrier.symm, fun name => (h.parts name).symm⟩

theorem sameParts_mappingOf (fields : List (Text × Value)) :
    (mappingOf fields).SameParts (.object fields) :=
  ⟨rfl, field_mappingOf fields⟩

theorem carrier_of_not_record {v : Value} (h : v.isRecord = false) : v.carrier = .other v := by
  cases v with
  | mapping | object | failure | syntaxFailure => cases h
  | scalar | list | tuple | set | located | sourceLine | function => rfl

theorem isRecord_eq (v : Value) :
    v.isRecord = match v.carrier with
      | .other _ => false
      | _ => true := by
  cases v <;> rfl

theorem eq_or_isRecord {v w : Value} (h : v.carrier = w.carrier) :
    v = w ∨ v.isRecord = true ∧ w.isRecord = true := by
  have hsame : v.isRecord = w.isRecord := by rw [isRecord_eq, isRecord_eq, h]
  cases hv : v.isRecord with
  | true => exact .inr ⟨rfl, hsame.symm.trans hv⟩
  | false =>
    rw [carrier_of_not_record hv, carrier_of_not_record (hsame.symm.trans hv)] at h
    exact .inl (Carrier.other.inj h)

theorem isNull_of_isRecord {v : Value} (h : v.isRecord = true) : v.isNull = false := by
  cases v with
  | mapping | object | failure | syntaxFailure => rfl
  | scalar | list | tuple | set | located | sourceLine | function => cases h

theorem isNull_congr {v w : Value} (h : v.carrier = w.carrier) : v.isNull = w.isNull := by
  rcases eq_or_isRecord h with rfl | ⟨hv, hw⟩
  · rfl
  · rw [isNull_of_isRecord hv, isNull_of_isRecord hw]

theorem syntaxLineField_eq (v : Value) :
    syntaxLineField v = match v.carrier with
      | .syntaxFailure => v.field "lineno".toList
      | _ => null := by
  cases v <;> rfl

end Value

/-! ## Readings -/

theorem LineColumn.read_congr {v w : Value} (h : v.SameParts w) :
    LineColumn.read v = LineColumn.read w := by
  rw [read, read, h.parts, h.parts]

theorem readWithLoc_congr {v w : Value} (h : v.SameLoc w) (start stop : Value) :
    readWithLoc start stop v = readWithLoc start stop w := by
  have hline := h.others "line".toList (by decide) (by decide)
  have hcolumn := h.others "column".toList (by decide) (by decide)
  have hlast : LineColumn.read (if (v.field "end".toList).isNull then v.field "start".toList
      else v.field "end".toList) = LineColumn.read (if (w.field "end".toList).isNull then
        w.field "start".toList else w.field "end".toList) := by
    rw [Value.isNull_congr h.last.carrier]
    split
    · exact LineColumn.read_congr h.first
    · exact LineColumn.read_congr h.last
  simp only [readWithLoc, Value.isNull_congr h.first.carrier, h.first.parts, hlast,
    LineColumn.read_congr h.first, hline, hcolumn]

section
variable {v w : Value} (h : v.SameShape w)
include h

theorem Value.SameShape.field_eq (name : Text) (hloc : name ≠ "loc".toList)
    (hposition : name ≠ "pos".toList) (hend : name ≠ "end".toList) : v.field name = w.field name :=
  h.others name hloc fun hover => hover.elim (fun hp => hposition hp.1) fun he => hend he.1

theorem Value.SameShape.position_eq (hstart : (v.field "start".toList).isNull = true) :
    v.field "pos".toList = w.field "pos".toList := by
  refine h.others "pos".toList (by decide) ?_
  rintro (⟨-, hsome⟩ | ⟨hname, -⟩)
  · rw [hstart] at hsome
    cases hsome
  · exact absurd hname (by decide)

theorem Value.SameShape.end_eq (hgiven : (v.field "loc".toList).isNull = false ∨
    (v.field "start".toList).isNull = false) : v.field "end".toList = w.field "end".toList := by
  refine h.others "end".toList (by decide) ?_
  rintro (⟨hname, -⟩ | ⟨-, hloc, hstart⟩)
  · exact absurd hname (by decide)
  · rw [hloc, hstart] at hgiven
    rcases hgiven with h | h <;> cases h

theorem readFields_congr (text? : Option Text) :
    SameOutcome (Location.readFields v text?) (Location.readFields w text?) := by
  have hnull := Value.isNull_congr h.loc.carrier
  have hstart := h.field_eq "start".toList (by decide) (by decide) (by decide)
  have hcolumn := h.field_eq "offset".toList (by decide) (by decide) (by decide)
  have hline : syntaxLineField v = syntaxLineField w := by
    rw [Value.syntaxLineField_eq, Value.syntaxLineField_eq, h.carrier,
      h.field_eq "lineno".toList (by decide) (by decide) (by decide)]
  have hposition := h.position_eq
  have hend := h.end_eq
  rw [hstart] at hposition
  rw [hnull, hstart] at hend
  simp only [Location.readFields, hnull, hstart, hline, hcolumn, readWithLoc_congr h.loc]
  cases hstarts : (w.field "start".toList).isNull with
  | false =>
    rw [hend (.inr hstarts)]
    split <;> rfl
  | true =>
    rw [hposition hstarts]
    cases hlocs : (w.field "loc".toList).isNull with
    | false =>
      rw [hend (.inl hlocs)]
      rfl
    | true =>
      -- without a `loc` and a start, the types of the values may show in the refusal
      simp only [Bool.not_true, Bool.false_eq_true, if_false]
      split
      · rfl
      · split
        · rfl
        · exact ⟨rfl, fun _ => rfl⟩

end

/-- **Mappings and objects are read alike, and nothing is looked at over which a part takes
precedence.** Two values that differ in such parts alone, or in what carries their parts, there, in
`loc` or in the ends of `loc`, are read as the same location or refused for causes of one kind. -/
theorem read_recarried {v w : Value} (h : v.SameShape w) (text? : Option Text) :
    SameOutcome (Location.read v text?) (Location.read w text?) := by
  rcases Value.eq_or_isRecord h.carrier with rfl | ⟨hv, hw⟩
  · rfl
  · rw [read_record hv, read_record hw]
    exact readFields_congr h text?

/-- A mapping with an object for its `loc`, and an object with a mapping for it: the ends of `loc`
are swapped as well, and only the mapping gives the position once more. -/
theorem read_recarried_at_every_level :
    let first : List (Text × Value) := [("line".toList, .int 2), ("column".toList, .int 0)]
    let last : List (Text × Value) := [("line".toList, .int 3), ("column".toList, .int 4)]
    let range : List (Text × Value) := [("start".toList, .int 1), ("end".toList, .int 3)]
    let v := Value.mappingOf (("pos".toList, .int 7) :: ("loc".toList, .object
      [("start".toList, .mappingOf first), ("end".toList, .object last)]) :: range)
    let w := Value.object (("loc".toList, .mappingOf
      [("start".toList, .object first), ("end".toList, .mappingOf last)]) :: range)
    v.SameShape w ∧ Location.read w none = .ok (.ranged 1 3 ⟨2, 0⟩ ⟨3, 4⟩) ∧
      SameOutcome (Location.read v none) (Location.read w none) := by
  intro first last range v w
  have hloc : (v.field "loc".toList).SameLoc (w.field "loc".toList) := by
    refine ⟨rfl, Value.sameParts_mappingOf first, (Value.sameParts_mappingOf last).symm, ?_⟩
    intro name hstart hend
    show (Value.object _).field name = (Value.mappingOf _).field name
    rw [Value.field_mappingOf, Value.field_object_cons hstart, Value.field_object_cons hend,
      Value.field_object_cons hstart, Value.field_object_cons hend]
  have hshape : v.SameShape w := by
    refine ⟨rfl, hloc, fun name hloc hover => ?_⟩
    have hposition : name ≠ "pos".toList := fun h => hover (.inl ⟨h, rfl⟩)
    rw [Value.field_mappingOf, Value.field_object_cons hposition, Value.field_object_cons hloc,
      Value.field_object_cons hloc]
  exact ⟨hshape, rfl, read_recarried hshape none⟩

end Pinpoint
