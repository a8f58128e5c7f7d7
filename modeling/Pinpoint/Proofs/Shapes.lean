import Pinpoint.Proofs.Bounds
import Pinpoint.Location.Read

/-!
# One place in many shapes

Parsers name a place by its offset alone, or by its offset together with its line and column. In
every shape it comes to the same line of the text (`resolveIn_shapes`). An offset strictly inside a
pair is the exception: its column lies behind the end of its line, so that the shapes that carry a
line and column are refused there, while the others take the line that the pair ends.
-/

namespace Pinpoint

/-! ## Shapes -/

namespace Value

/-- A value that is looked at by the names it holds. -/
def isRecord : Value → Bool
  | .mapping _ => true
  | .object _ => true
  | .failure _ _ => true
  | .syntaxFailure _ => true
  | _ => false

/-- A value that holds a line and a column. -/
structure Carries (v : Value) (p : LineColumn) : Prop where
  line : v.field "line".toList = int p.line
  column : v.field "column".toList = int p.column

/-- The shapes that give an offset alone: an integer, or a record with a start and an end. -/
inductive GivesOffset (start stop : Int) : Value → Prop where
  | offset : GivesOffset start stop (int start)
  | range {v : Value} (record : v.isRecord = true) (loc : v.field "loc".toList = null)
      (start_eq : v.field "start".toList = int start) (stop_eq : v.field "end".toList = int stop) :
      GivesOffset start stop v

/-- The shapes that give an offset with its line and column. -/
inductive GivesColumn (start stop : Int) (p : LineColumn) : Value → Prop where
  /-- A record with a start and an end, whose `loc` holds the line and column. -/
  | placed {v : Value} (record : v.isRecord = true) (start_eq : v.field "start".toList = int start)
      (stop_eq : v.field "end".toList = int stop) (loc : (v.field "loc".toList).Carries p)
      (flat : (v.field "loc".toList).field "start".toList = null) : GivesColumn start stop p v
  /-- A record with a start and an end, whose `loc` holds two lines and columns. -/
  | ranged {v : Value} (record : v.isRecord = true) (start_eq : v.field "start".toList = int start)
      (stop_eq : v.field "end".toList = int stop)
      (first : ((v.field "loc".toList).field "start".toList).Carries p)
      (last : (v.field "loc".toList).field "end".toList = null ∨
        ∃ q, ((v.field "loc".toList).field "end".toList).Carries q) : GivesColumn start stop p v
  /-- A parser's failure with a position instead of a start. -/
  | failure {text? : Option Text} {fields : List (Text × Value)}
      (start_eq : lookup fields "start".toList = null)
      (stop_eq : lookup fields "end".toList = null) (pos_eq : lookup fields "pos".toList = int start)
      (loc : (lookup fields "loc".toList).Carries p)
      (flat : (lookup fields "loc".toList).field "start".toList = null) :
      GivesColumn start stop p (.failure text? fields)
  /-- A syntax failure, whose column counts from 1. -/
  | syntaxFailure {fields : List (Text × Value)} (start_eq : lookup fields "start".toList = null)
      (pos_eq : lookup fields "pos".toList = null) (loc_eq : lookup fields "loc".toList = null)
      (line : lookup fields "lineno".toList = int p.line)
      (column : lookup fields "offset".toList = int (p.column + 1)) :
      GivesColumn start stop p (.syntaxFailure fields)

theorem isNull_of_field {v : Value} {name : Text} (h : (v.field name).isNull = false) :
    v.isNull = false := by
  unfold isNull
  split
  · cases h
  · rfl

theorem Carries.isNull {v : Value} {p : LineColumn} (h : v.Carries p) : v.isNull = false := by
  apply isNull_of_field
  rw [h.line]
  rfl

end Value

/-! ## What the shapes are read as -/

theorem LineColumn.read_carries {v : Value} {p : LineColumn} (h : v.Carries p) :
    LineColumn.read v = .ok p := by
  simp only [LineColumn.read, h.line, h.column]
  rfl

theorem read_record {v : Value} (record : v.isRecord = true) (text? : Option Text) :
    Location.read v text? = Location.readFields v text? := by
  cases v with
  | mapping | object | failure | syntaxFailure => rfl
  | scalar | list | tuple | set | located | sourceLine | function => cases record

theorem Span.read_of_le {start stop : Int} (h : start ≤ stop) :
    Span.read start stop = .ok ⟨start, stop, h⟩ := dif_pos h

theorem readStop_int {start stop : Int} {v : Value} (h : v = .int stop) :
    readStop start v = .ok stop := by
  rw [h]
  rfl

theorem readStop_null {start : Int} {v : Value} (h : v = .null) : readStop start v = .ok start := by
  rw [h]
  rfl

theorem read_range {v : Value} (record : v.isRecord = true) (text? : Option Text)
    {start stop : Int} (h : start ≤ stop) (hloc : v.field "loc".toList = .null)
    (hstart : v.field "start".toList = .int start) (hstop : v.field "end".toList = .int stop) :
    Location.read v text? = .ok (.span ⟨start, stop, h⟩) := by
  rw [read_record record]
  simp only [Location.readFields, hloc, hstart, hstop]
  simp only [Value.isNull, Value.null, Value.int, Bool.not_true, Bool.not_false, if_true,
    Bool.false_eq_true, if_false, readInteger, Value.int?, readStop, bind, Except.bind,
    Span.read_of_le h]
  rfl

theorem readFields_loc {v : Value} (text? : Option Text)
    (hloc : (v.field "loc".toList).isNull = false) :
    Location.readFields v text? =
      readWithLoc (if (v.field "start".toList).isNull then v.field "pos".toList
        else v.field "start".toList) (v.field "end".toList) (v.field "loc".toList) := by
  simp only [Location.readFields, hloc, Bool.not_false, if_true]

theorem readWithLoc_flat {stop loc : Value} {start last : Int} {p : LineColumn}
    (hstop : readStop start stop = .ok last) (hloc : loc.Carries p)
    (flat : loc.field "start".toList = .null) :
    readWithLoc (.int start) stop loc = .ok (.placed start last p) := by
  simp only [readWithLoc, flat, hloc.line, hloc.column, readInteger, Value.int?, Value.int,
    Value.null, Value.isNull, Bool.not_true, Bool.false_and, Bool.or_self, if_false,
    Bool.false_eq_true]
  simp only [bind, Except.bind, hstop]
  rfl

theorem readWithLoc_nested {stop loc : Value} {start last : Int} {p q : LineColumn}
    (hstop : readStop start stop = .ok last) (first : (loc.field "start".toList).Carries p)
    (second : loc.field "end".toList = .null ∧ q = p ∨ (loc.field "end".toList).Carries q) :
    readWithLoc (.int start) stop loc = .ok (.ranged start last p q) := by
  have hline : ((loc.field "start".toList).field "line".toList).isNull = false := by
    rw [first.line]
    rfl
  have hread : LineColumn.read (if (loc.field "end".toList).isNull then loc.field "start".toList
      else loc.field "end".toList) = .ok q := by
    rcases second with ⟨hnull, rfl⟩ | hq
    · rw [hnull]
      exact LineColumn.read_carries first
    · rw [hq.isNull]
      exact LineColumn.read_carries hq
  simp only [readWithLoc, first.isNull, hline, LineColumn.read_carries first, hread]
  simp only [readInteger, Value.int?, Value.int, bind, Except.bind, hstop]
  rfl

theorem syntaxColumn_int {column : Int} (h : 0 ≤ column) :
    syntaxColumn (.int (column + 1)) = .ok column := by
  have htruthy : (Value.int (column + 1)).isTruthy = true := by
    simp only [Value.isTruthy, Value.int, Scalar.isTruthy, bne_iff_ne]
    omega
  have hmax : max (column + 1 - 1) 0 = column := by omega
  simp only [syntaxColumn, htruthy, Bool.not_true, Bool.false_eq_true, if_false]
  exact congrArg Except.ok hmax

theorem readSyntax_column {t : Text} {p : LineColumn} (h : 0 ≤ p.column) :
    readSyntax (some t) (.int p.line) (.int (p.column + 1)) =
      match t.offsetOf p.line p.column with
      | .ok start => .ok (.placed start start p)
      | .error e => .error (.noOffset e) := by
  simp only [readSyntax, syntaxColumn_int h]
  simp only [syntaxLine, Value.int, bind, Except.bind]
  cases t.offsetOf p.line p.column <;> rfl

theorem read_syntaxFailure {fields : List (Text × Value)} {t : Text} {p : LineColumn}
    (hstart : Value.lookup fields "start".toList = .null)
    (hpos : Value.lookup fields "pos".toList = .null)
    (hloc : Value.lookup fields "loc".toList = .null)
    (hline : Value.lookup fields "lineno".toList = .int p.line)
    (hcolumn : Value.lookup fields "offset".toList = .int (p.column + 1)) :
    Location.read (.syntaxFailure fields) (some t) =
      readSyntax (some t) (.int p.line) (.int (p.column + 1)) := by
  rw [read_record rfl]
  simp only [Location.readFields, Value.field, Value.ownField, syntaxLineField, hstart, hpos, hloc,
    hline, hcolumn]
  rfl

/-! ## What the shapes resolve to -/

theorem resolveText_position {t : Text} {n : Nat} (hn : n ≤ t.length) (looked : Bool) :
    resolveText t looked n (t.position n) =
      if looked = false ∧ t.SplitsPair n then
        .error (.columnPastLine (t.position n).column (t.position n).line n)
      else .ok (textInfo t n (t.position n)) := by
  have hstart := t.lineStart_le n
  have hsub : (n : Int) - (t.position n).column = t.lineStart n := by
    rw [Text.position_column]
    omega
  rw [resolveText_eq, hsub, if_neg, if_neg, if_neg]
  · simp only [Text.hasBreakBetween_lineStart]
  · intro h
    omega
  · intro h
    omega
  · rw [Text.position_column]
    omega

def resolveIn (t : Text) (v : Value) : Except LocationError LineInfo := do
  let l ← Location.read v (some t)
  resolve (.text t) l

theorem resolveIn_of_read {t : Text} {v : Value} {l : Location}
    (h : Location.read v (some t) = .ok l) : resolveIn t v = resolve (.text t) l := by
  simp only [resolveIn, h]
  rfl

theorem resolveIn_of_trusted {t : Text} {n : Nat} (hn : n ≤ t.length) {v : Value} {l : Location}
    (hread : Location.read v (some t) = .ok l) (hstart : l.start = n)
    (htrusted : l.trusted? = some (t.position n)) :
    resolveIn t v = if t.SplitsPair n then
      .error (.columnPastLine (t.position n).column (t.position n).line n)
      else .ok (textInfo t n (t.position n)) := by
  rw [resolveIn_of_read hread, resolve_text, Location.placeIn, hstart, htrusted]
  simpa using resolveText_position hn false

theorem resolveIn_of_looked {t : Text} {n : Nat} (hn : n ≤ t.length) {v : Value} {l : Location}
    (hread : Location.read v (some t) = .ok l) (hstart : l.start = n)
    (htrusted : l.trusted? = none) :
    resolveIn t v = .ok (textInfo t n (t.position n)) := by
  rw [resolveIn_of_read hread, resolve_text, Location.placeIn, hstart, htrusted]
  simpa using resolveText_position hn true

theorem Value.GivesOffset.resolveIn {t : Text} {n : Nat} (hn : n ≤ t.length) {stop : Int}
    (hstop : n ≤ stop) {v : Value} (hv : v.GivesOffset n stop) :
    resolveIn t v = .ok (textInfo t n (t.position n)) := by
  cases hv with
  | offset => exact resolveIn_of_looked hn rfl rfl rfl
  | range record loc start_eq stop_eq =>
    exact resolveIn_of_looked hn (read_range record _ hstop loc start_eq stop_eq) rfl rfl

theorem read_placed {v : Value} (record : v.isRecord = true) (text? : Option Text)
    {start last : Int} {p : LineColumn}
    (hstart : (if (v.field "start".toList).isNull then v.field "pos".toList
      else v.field "start".toList) = .int start)
    (hstop : readStop start (v.field "end".toList) = .ok last)
    (hloc : (v.field "loc".toList).Carries p)
    (flat : (v.field "loc".toList).field "start".toList = .null) :
    Location.read v text? = .ok (.placed start last p) := by
  rw [read_record record, readFields_loc text? hloc.isNull, hstart]
  exact readWithLoc_flat hstop hloc flat

theorem read_ranged {v : Value} (record : v.isRecord = true) (text? : Option Text)
    {start last : Int} {p q : LineColumn} (hstart : v.field "start".toList = .int start)
    (hstop : readStop start (v.field "end".toList) = .ok last)
    (first : ((v.field "loc".toList).field "start".toList).Carries p)
    (second : (v.field "loc".toList).field "end".toList = .null ∧ q = p ∨
      ((v.field "loc".toList).field "end".toList).Carries q) :
    Location.read v text? = .ok (.ranged start last p q) := by
  rw [read_record record, readFields_loc text? (Value.isNull_of_field first.isNull), hstart]
  exact readWithLoc_nested hstop first second

/-- Every shape that carries its line and column in `loc` is read as a location that carries them.
-/
theorem Value.GivesColumn.read_of_loc {start stop : Int} {p : LineColumn} {v : Value}
    (hv : v.GivesColumn start stop p) (hloc : (v.field "loc".toList).isNull = false)
    (text? : Option Text) :
    ∃ l, Location.read v text? = .ok l ∧ l.start = start ∧ l.trusted? = some p := by
  cases hv with
  | placed record start_eq stop_eq loc flat =>
    refine ⟨_, read_placed record _ ?_ (readStop_int stop_eq) loc flat, rfl, rfl⟩
    rw [start_eq]
    rfl
  | ranged record start_eq stop_eq first last =>
    have hstop : readStop start (v.field "end".toList) = .ok stop := readStop_int stop_eq
    rcases last with hnull | ⟨q, hq⟩
    · exact ⟨_, read_ranged record _ start_eq hstop first (.inl ⟨hnull, rfl⟩), rfl, rfl⟩
    · exact ⟨_, read_ranged record _ start_eq hstop first (.inr hq), rfl, rfl⟩
  | failure start_eq stop_eq pos_eq loc flat =>
    refine ⟨_, read_placed rfl _ ?_ (readStop_null stop_eq) loc flat, rfl, rfl⟩
    -- without a start the position is taken in its place
    simp only [field, ownField, start_eq]
    exact pos_eq
  | syntaxFailure start_eq pos_eq loc_eq line column =>
    simp only [field, ownField, loc_eq] at hloc
    cases hloc

/-- Every shape with a line and column is read as a location that carries them, except a syntax
failure, whose offset is looked up. -/
theorem Value.GivesColumn.read {t : Text} {n : Nat} {stop : Int} {p : LineColumn} {v : Value}
    (hv : v.GivesColumn n stop p) (hp : 0 ≤ p.column) :
    (∃ l, Location.read v (some t) = .ok l ∧ l.start = n ∧ l.trusted? = some p) ∨
      Location.read v (some t) =
        match t.offsetOf p.line p.column with
        | .ok start => .ok (.placed start start p)
        | .error e => .error (.noOffset e) := by
  by_cases hloc : (v.field "loc".toList).isNull = false
  · exact .inl (hv.read_of_loc hloc _)
  · right
    cases hv with
    | placed record start_eq stop_eq loc flat => exact absurd loc.isNull hloc
    | ranged record start_eq stop_eq first last =>
      exact absurd (isNull_of_field first.isNull) hloc
    | failure start_eq stop_eq pos_eq loc flat => exact absurd loc.isNull hloc
    | syntaxFailure start_eq pos_eq loc_eq line column =>
      rw [read_syntaxFailure start_eq pos_eq loc_eq line column, readSyntax_column hp]

theorem Value.GivesColumn.resolveIn {t : Text} {n : Nat} (hn : n ≤ t.length) {stop : Int}
    {v : Value} (hv : v.GivesColumn n stop (t.position n)) :
    (¬t.SplitsPair n → resolveIn t v = .ok (textInfo t n (t.position n))) ∧
      (t.SplitsPair n → ∃ e, resolveIn t v = .error e ∧ e.kind = .wrongValue) := by
  have hcolumn : 0 ≤ (t.position n).column := position_column_nonneg (Int.natCast_nonneg n)
  rcases hv.read hcolumn with ⟨l, hread, hstart, htrusted⟩ | hread
  · rw [resolveIn_of_trusted hn hread hstart htrusted]
    exact ⟨fun h => if_neg h, fun h => ⟨_, if_pos h, rfl⟩⟩
  · constructor
    · intro h
      rw [Text.offsetOf_position hn h] at hread
      rw [resolveIn_of_trusted hn hread rfl rfl]
      exact if_neg h
    · intro h
      obtain ⟨e, he⟩ := Text.offsetOf_position_of_splitsPair h
      rw [he] at hread
      refine ⟨.noOffset e, ?_, rfl⟩
      simp only [Pinpoint.resolveIn, hread]
      rfl

/-- **Every shape of a place that is not strictly inside a pair comes to the same line.** Inside a
pair the shapes without a column still do, and all others are refused. -/
theorem resolveIn_shapes {t : Text} {n : Nat} (hn : n ≤ t.length) {stop : Int} (hstop : n ≤ stop) :
    (∀ v : Value, v.GivesOffset n stop → resolveIn t v = .ok (textInfo t n (t.position n))) ∧
      ∀ v : Value, v.GivesColumn n stop (t.position n) →
        (¬t.SplitsPair n → resolveIn t v = .ok (textInfo t n (t.position n))) ∧
        (t.SplitsPair n → ∃ e, resolveIn t v = .error e ∧ e.kind = .wrongValue) :=
  ⟨fun _ hv => hv.resolveIn hn hstop, fun _ hv => hv.resolveIn hn⟩

/-- All shapes of one place, on a line between breaks of different kinds. -/
theorem resolveIn_shapes_on_third_line :
    let t : Text := ['a', '\r', '\n', 'b', '\u2028', 'c', '\r', 'd']
    let p : LineColumn := ⟨3, 1⟩
    let range : List (Text × Value) := [("start".toList, .int 6), ("end".toList, .int 9)]
    6 ≤ t.length ∧ (6 : Int) ≤ 9 ∧ ¬t.SplitsPair 6 ∧
      ∀ v ∈ [Value.int 6, .mapping [(.text "start".toList, .int 6), (.text "end".toList, .int 9)],
        .object (range ++ [("loc".toList, .ofLineColumn p)]),
        .object (range ++ [("loc".toList, .mapping [(.text "start".toList, .ofLineColumn p),
          (.text "end".toList, .ofLineColumn ⟨4, 1⟩)])]),
        .failure none [("pos".toList, .int 6), ("loc".toList, .ofLineColumn p)],
        .syntaxFailure [("lineno".toList, .int 3), ("offset".toList, .int 2)]],
        resolveIn t v = .ok ⟨3, 1, 5, 6, 8⟩ := by
  intro t p range
  have hn : 6 ≤ t.length := by decide
  have hstop : (6 : Int) ≤ 9 := by decide
  have hsplit : ¬t.SplitsPair 6 := by decide
  obtain ⟨alone, column⟩ := resolveIn_shapes hn hstop
  refine ⟨hn, hstop, hsplit, fun v hv => ?_⟩
  simp only [List.mem_cons, List.not_mem_nil, or_false] at hv
  rcases hv with rfl | rfl | rfl | rfl | rfl | rfl
  · exact alone _ .offset
  · exact alone _ (.range rfl rfl rfl rfl)
  · exact (column _ (.placed rfl rfl rfl ⟨rfl, rfl⟩ rfl)).1 hsplit
  · exact (column _ (.ranged rfl rfl rfl ⟨rfl, rfl⟩ (.inr ⟨⟨4, 1⟩, rfl, rfl⟩))).1 hsplit
  · exact (column _ (.failure rfl rfl rfl ⟨rfl, rfl⟩ rfl)).1 hsplit
  · exact (column _ (.syntaxFailure rfl rfl rfl rfl rfl)).1 hsplit

/-- Between a carriage return and its line feed a column is refused, and the bare offset is not. -/
theorem shapes_differ_inside_pair :
    ¬∀ (t : Text) (n : Nat) (stop : Int), n ≤ t.length → n ≤ stop → ∃ info, ∀ v : Value,
      v.GivesOffset n stop ∨ v.GivesColumn n stop (t.position n) → resolveIn t v = .ok info := by
  intro h
  obtain ⟨info, hinfo⟩ := h ['\r', '\n'] 1 1 (by decide) (by decide)
  have hrefused := hinfo (.object [("start".toList, .int 1), ("end".toList, .int 1),
    ("loc".toList, .ofLineColumn ⟨1, 1⟩)]) (.inr (.placed rfl rfl rfl ⟨rfl, rfl⟩ rfl))
  have herror : resolveIn ['\r', '\n'] (.object [("start".toList, .int 1),
    ("end".toList, .int 1), ("loc".toList, .ofLineColumn ⟨1, 1⟩)]) =
      .error (.columnPastLine 1 1 1) := rfl
  rw [herror] at hrefused
  cases hrefused

end Pinpoint
