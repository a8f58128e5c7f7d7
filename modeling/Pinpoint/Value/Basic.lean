import Pinpoint.Number.Shortest
import Pinpoint.Location.Basic

/-!
# Values

What parsers and settings files hand over: plain data, objects with named attributes, the failures
that parsers raise, locations, and style functions. `Value.field` is the one way of looking inside,
and does not tell a mapping from an object.
-/

namespace Pinpoint

structure Date where
  year : Nat
  month : Nat
  day : Nat
deriving DecidableEq, Repr

/-- A date with a time of day, and the minutes east of Greenwich if the zone is known. -/
structure DateTime where
  date : Date
  hour : Nat
  minute : Nat
  second : Nat
  microsecond : Nat
  zone : Option Int
deriving DecidableEq, Repr

/-- A value without parts. Only these may be keys of a mapping. -/
inductive Scalar where
  | null
  | bool (b : Bool)
  | int (n : Int)
  | float (x : Binary64)
  | text (t : Text)
  | bytes (bs : List UInt8)
  | date (d : Date)
  | dateTime (d : DateTime)
deriving DecidableEq, Repr

/-- A function from plain to styled text, known by a name. It may fail with a message. -/
structure StyleFunction where
  name : Text
  apply : Text → Except Text Text

/-- A value handed over from outside. -/
inductive Value where
  | scalar (s : Scalar)
  | list (items : List Value)
  | tuple (items : List Value)
  | set (members : List Scalar)
  | mapping (entries : List (Scalar × Value))
  /-- An object with named attributes. -/
  | object (fields : List (Text × Value))
  /-- A failure that a parser raised, with the text that describes it, if any. -/
  | failure (text : Option Text) (fields : List (Text × Value))
  /-- A syntax failure: its attributes hold a message, a line number, a column counted from 1 and a
  file name, and whatever else was attached. -/
  | syntaxFailure (fields : List (Text × Value))
  | located (l : Location)
  /-- One physical line; the text is not checked. -/
  | sourceLine (line : Value)
  | function (f : StyleFunction)

/-- How many days lie before a date, counted from the first day of the first year. -/
def Date.dayNumber (d : Date) : Nat :=
  let (year, month) := if d.month ≤ 2 then (d.year - 1, d.month + 12) else (d.year, d.month)
  365 * year + year / 4 - year / 100 + year / 400 + (153 * (month - 3) + 2) / 5 + d.day

/-- The millionths of a second up to a moment, in Greenwich time if the zone is known. -/
def DateTime.microseconds (t : DateTime) : Int :=
  let minutes : Int := ((t.date.dayNumber * 24 + t.hour) * 60 + t.minute : Nat) - t.zone.getD 0
  (minutes * 60 + t.second) * 1000000 + t.microsecond

namespace Scalar

def number? : Scalar → Option Int
  | .bool b => some (if b then 1 else 0)
  | .int n => some n
  | .float x => x.toInt?
  | _ => none

/-- Whether two scalars are the same key: numbers of any kind by value, moments by where they lie in
time, all else by identity. -/
def sameKey (a b : Scalar) : Bool :=
  match a, b with
  | .dateTime s, .dateTime t => s.zone.isSome == t.zone.isSome && s.microseconds == t.microseconds
  | a, b =>
    match a.number?, b.number? with
    | some m, some n => m == n
    | none, none => a == b
    | _, _ => false

def typeName : Scalar → Text
  | .null => "NoneType".toList
  | .bool _ => "bool".toList
  | .int _ => "int".toList
  | .float _ => "float".toList
  | .text _ => "str".toList
  | .bytes _ => "bytes".toList
  | .date _ => "date".toList
  | .dateTime _ => "datetime".toList

/-- Whether a scalar counts as something rather than nothing. -/
def isTruthy : Scalar → Bool
  | .null => false
  | .bool b => b
  | .int n => n != 0
  | .float x => !x.isZero
  | .text t => !t.isEmpty
  | .bytes bs => !bs.isEmpty
  | .date _ => true
  | .dateTime _ => true

end Scalar

namespace Entries

def find? {α : Type} (entries : List (Scalar × α)) (key : Scalar) : Option α :=
  (entries.find? fun e => e.1.sameKey key).map (·.2)

/-- Puts a value under a key: a known key keeps its place, a new one goes to the end. -/
def insert {α : Type} (key : Scalar) (value : α) : List (Scalar × α) → List (Scalar × α)
  | [] => [(key, value)]
  | e :: rest => if e.1.sameKey key then (e.1, value) :: rest else e :: insert key value rest

/-- The entries that a list of pairs leaves: of pairs with one key the last one wins. -/
def ofPairs {α : Type} (pairs : List (Scalar × α)) : List (Scalar × α) :=
  pairs.foldl (fun entries p => insert p.1 p.2 entries) []

end Entries

namespace Value

def null : Value := .scalar .null

def int (n : Int) : Value := .scalar (.int n)

def text (t : Text) : Value := .scalar (.text t)

def isNull : Value → Bool
  | .scalar .null => true
  | _ => false

/-- Whether a value counts as something rather than nothing. -/
def isTruthy : Value → Bool
  | .scalar s => s.isTruthy
  | .list items => !items.isEmpty
  | .tuple items => !items.isEmpty
  | .set members => !members.isEmpty
  | .mapping entries => !entries.isEmpty
  | _ => true

def typeName : Value → Text
  | .scalar s => s.typeName
  | .list _ => "list".toList
  | .tuple _ => "tuple".toList
  | .set _ => "set".toList
  | .mapping _ => "dict".toList
  | .object _ => "SimpleNamespace".toList
  | .failure _ _ => "ParseException".toList
  | .syntaxFailure _ => "SyntaxError".toList
  | .located (.offset _) => "NumericOffset".toList
  | .located (.span _) => "Span".toList
  | .located (.placed ..) => "ResolvedLineColumn".toList
  | .located (.ranged ..) => "LineLoc".toList
  | .sourceLine _ => "SourceLine".toList
  | .function _ => "function".toList

def ofLineColumn (p : LineColumn) : Value :=
  .object [("line".toList, int p.line), ("column".toList, int p.column)]

/-- The attributes of a location, in the order in which they are written. -/
def fieldsOfLocation : Location → List (Text × Value)
  | .offset s => [("offset".toList, int s)]
  | .span r => [("start".toList, int r.start), ("end".toList, int r.stop)]
  | .placed s e p =>
    [("start".toList, int s), ("end".toList, int e), ("line".toList, int p.line),
      ("column".toList, int p.column)]
  | .ranged s e first last =>
    [("start".toList, int s), ("end".toList, int e), ("loc_start".toList, ofLineColumn first),
      ("loc_end".toList, ofLineColumn last)]

/-- The attribute of a name, or null. -/
def lookup (fields : List (Text × Value)) (name : Text) : Value :=
  ((fields.find? fun f => f.1 == name).map (·.2)).getD null

/-- The attribute of a value; null if there is none. A mapping has entries, but no attributes. -/
def ownField (v : Value) (name : Text) : Value :=
  match v with
  | .object fields => lookup fields name
  | .failure _ fields => lookup fields name
  | .syntaxFailure fields => lookup fields name
  | .located l => lookup (fieldsOfLocation l) name
  | .sourceLine line => if name == "line".toList then line else null
  | _ => null

/-- What a value holds under a name: an entry of a mapping or an attribute of anything else; null if
there is none. -/
def field (v : Value) (name : Text) : Value :=
  match v with
  | .mapping entries => (Entries.find? entries (.text name)).getD null
  | v => v.ownField name

def text? : Value → Option Text
  | .scalar (.text t) => some t
  | _ => none

/-- The integer that a value is; truth values are not integers. -/
def int? : Value → Option Int
  | .scalar (.int n) => some n
  | _ => none

end Value

/-- What writes values down inside messages. It may fail: on an integer of too many digits, on
values that are nested too deeply, or for reasons of a value's own. -/
abbrev Writer := Value → Except Fault Text

end Pinpoint
