import Pinpoint.Value.Basic

/-!
# Why a location is refused

The causes for which a source or a location cannot be used, their wording, and their kind: either a
value is of the wrong type, or it is of the right type and does not fit the source, or an integer is
too wide to be an offset at all.
-/

namespace Pinpoint

inductive ErrorKind where
  | wrongType
  | wrongValue
  | tooWide
  | other
deriving DecidableEq, Repr

/-- Why a source or a location is refused. -/
inductive LocationError where
  /-- The source is neither a text nor a line. -/
  | notASource
  /-- The source is neither a text, nor a line, nor a mapping that holds a line. -/
  | notReadableAsSource
  /-- A single line is no place for a location without line and column. -/
  | lineWithoutColumn
  | notALocation (typeName : Text)
  | notReadableAsLocation (typeName : Text)
  | incompleteLoc
  | notAnInteger (name : Text) (value : Value)
  /-- A syntax failure points into a full text only. -/
  | syntaxWithoutText
  | incomparable (typeName : Text)
  | noDifference (typeName : Text)
  | invertedSpan (start stop : Int)
  | noOffset (e : OffsetError)
  | columnBeforeText (column offset : Int)
  | offsetOutside (offset : Int) (length : Nat)
  | columnPastLine (column line offset : Int)
  | columnPastSourceLine (column : Int)
  | tooWide
  /-- What a parser reports as its failure cannot be described. -/
  | notDescribed (f : Fault)

/-- Whether an integer fits into a signed 64-bit word, as the bounds of a search must. -/
def fitsWord (n : Int) : Bool := -0x8000000000000000 ≤ n && n < 0x8000000000000000

def OffsetError.message : OffsetError → Except Fault Text
  | .lineTooSmall line => do
    return "line must be 1 or greater, got ".toList ++ (← printInteger line)
  | .linePastEnd line => do
    return "line ".toList ++ (← printInteger line) ++ " is past the end of the source".toList
  | .columnOutsideLine line column length => do
    return "column ".toList ++ (← printInteger column) ++ " is outside line ".toList ++
      (← printInteger line) ++ " (length ".toList ++ (← printInteger length) ++ [')']

namespace LocationError

/-- The wording of a cause. A cause that cannot be worded is reported as what keeps it from that. -/
def message (write : Writer) : LocationError → Except Fault Text
  | .notASource => .ok "source must be a string or a SourceLine".toList
  | .notReadableAsSource => .ok "source must be a string or \x7b line: <string> \x7d".toList
  | .lineWithoutColumn => .ok
    "a source line can only be used with a location that carries its line and column".toList
  | .notALocation name => .ok ("unsupported location type: ".toList ++ name)
  | .notReadableAsLocation name => .ok ("cannot use ".toList ++ name ++ " as an issue location".toList)
  | .incompleteLoc => .ok
    "loc must carry line and column, or start: \x7b line, column \x7d".toList
  | .notAnInteger name value => do
    return name ++ " must be an integer, got ".toList ++ (← write value)
  | .syntaxWithoutText => .ok "a SyntaxError location needs the full source text".toList
  | .incomparable name => .ok
    ("'<' not supported between instances of '".toList ++ name ++ "' and 'int'".toList)
  | .noDifference name => .ok
    ("unsupported operand type(s) for -: '".toList ++ name ++ "' and 'int'".toList)
  | .invertedSpan start stop => do
    return "span end ".toList ++ (← printInteger stop) ++ " is before its start ".toList ++
      (← printInteger start)
  | .noOffset e => e.message
  | .columnBeforeText column offset => do
    return "column ".toList ++ (← printInteger column) ++ " is larger than the offset ".toList ++
      (← printInteger offset) ++ " it belongs to".toList
  | .offsetOutside offset length => do
    return "offset ".toList ++ (← printInteger offset) ++ " is outside the source (length ".toList ++
      (← printInteger length) ++ [')']
  | .columnPastLine column line offset => do
    return "column ".toList ++ (← printInteger column) ++ " runs past the end of line ".toList ++
      (← printInteger line) ++ " at offset ".toList ++ (← printInteger offset)
  | .columnPastSourceLine column => do
    return "column ".toList ++ (← printInteger column) ++ " is past the end of the source line".toList
  | .tooWide => .ok "integer too large for an offset".toList
  | .notDescribed f => .error f

def kind : LocationError → ErrorKind
  | .notASource => .wrongType
  | .notReadableAsSource => .wrongType
  | .lineWithoutColumn => .wrongType
  | .notALocation _ => .wrongType
  | .notReadableAsLocation _ => .wrongType
  | .incompleteLoc => .wrongType
  | .notAnInteger _ _ => .wrongType
  | .syntaxWithoutText => .wrongType
  | .incomparable _ => .wrongType
  | .noDifference _ => .wrongType
  | .invertedSpan _ _ => .wrongValue
  | .noOffset _ => .wrongValue
  | .columnBeforeText _ _ => .wrongValue
  | .offsetOutside _ _ => .wrongValue
  | .columnPastLine _ _ _ => .wrongValue
  | .columnPastSourceLine _ => .wrongValue
  | .tooWide => .tooWide
  | .notDescribed f => if f.kind = .wrongValue then .wrongValue else .other

/-- What is said about a cause where nothing but a wrong value is expected. -/
def reason (write : Writer) (e : LocationError) : Except Fault Text :=
  match e.message write, e.kind with
  | .ok m, .wrongValue => .ok m
  | .ok m, .tooWide => .error ⟨.overflow, m⟩
  | .ok m, _ => .error ⟨.other, m⟩
  | .error f, _ => if f.kind = .wrongValue then .ok f.message else .error f

/-- What callers can tell of a refusal: its kind, or the fault that keeps it from being worded. -/
def reported (write : Writer) (e : LocationError) : Except Fault ErrorKind :=
  (e.message write).map fun _ => e.kind

end LocationError

end Pinpoint
