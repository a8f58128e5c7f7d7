import Pinpoint.Value.Basic
import Pinpoint.Text.Quoted

/-!
# Written values

How a value is shown inside a message: texts quoted, numbers in their shortest form, collections
with their parts in order, and everything else by the name of its type and its attributes. Nothing
is shown of a value with an integer of too many digits, or with parts nested too deeply.
-/

namespace Pinpoint

/-- The parts between brackets, separated by commas. -/
def bracketed (opening closing : Text) (parts : List Text) : Text :=
  opening ++ Text.join [',', ' '] parts ++ closing

/-- A call: a name and its arguments. -/
def called (name : Text) (arguments : List Text) : Text := name ++ bracketed ['('] [')'] arguments

def named (name argument : Text) : Text := name ++ '=' :: argument

def namedInteger (name : String) (n : Int) : Except Fault Text :=
  (printInteger n).map (named name.toList)

def Date.arguments (d : Date) : List Text :=
  [decimal d.year, decimal d.month, decimal d.day]

/-- A span of time, given in minutes, by its whole days and the seconds left over. -/
def writtenMinutes (minutes : Int) : Text :=
  let days := minutes.fdiv 1440
  let seconds := (minutes.fmod 1440) * 60
  let parts := (if days == 0 then [] else [named "days".toList (decimal days)]) ++
    (if seconds == 0 then [] else [named "seconds".toList (decimal seconds)])
  called "datetime.timedelta".toList (if parts.isEmpty then [['0']] else parts)

def writtenZone (minutes : Int) : Text :=
  if minutes == 0 then "datetime.timezone.utc".toList
  else called "datetime.timezone".toList [writtenMinutes minutes]

def DateTime.written (d : DateTime) : Text :=
  let clock := d.date.arguments ++ [decimal d.hour, decimal d.minute]
  let clock := if d.second == 0 && d.microsecond == 0 then clock else clock ++ [decimal d.second]
  let clock := if d.microsecond == 0 then clock else clock ++ [decimal d.microsecond]
  let zone := match d.zone with
    | some z => [named "tzinfo".toList (writtenZone z)]
    | none => []
  called "datetime.datetime".toList (clock ++ zone)

def Scalar.write : Scalar → Except Fault Text
  | .null => .ok "None".toList
  | .bool true => .ok "True".toList
  | .bool false => .ok "False".toList
  | .int n => printInteger n
  | .float x => .ok x.write
  | .text t => .ok (Quoted.text t)
  | .bytes bs => .ok (Quoted.bytes bs)
  | .date d => .ok (called "datetime.date".toList d.arguments)
  | .dateTime d => .ok d.written

def LineColumn.write (p : LineColumn) : Except Fault Text := do
  return called "SourcePosition".toList
    [← namedInteger "line" p.line, ← namedInteger "column" p.column]

def Location.write : Location → Except Fault Text
  | .offset s => do return called "NumericOffset".toList [← namedInteger "offset" s]
  | .span r => do
    return called "Span".toList [← namedInteger "start" r.start, ← namedInteger "end" r.stop]
  | .placed s e p => do
    return called "ResolvedLineColumn".toList
      [← namedInteger "start" s, ← namedInteger "end" e, ← namedInteger "line" p.line,
        ← namedInteger "column" p.column]
  | .ranged s e first last => do
    return called "LineLoc".toList
      [← namedInteger "start" s, ← namedInteger "end" e, named "loc_start".toList (← first.write),
        named "loc_end".toList (← last.write)]

def Fault.tooDeep : Fault := ⟨.tooDeep, "the value is nested too deeply".toList⟩

namespace Value

def report? (fields : List (Text × Value)) : Option Value :=
  (fields.find? fun f => f.1 == "msg".toList && !f.2.isNull).map (·.2)

/-- Writes a value whose parts are not nested deeper in each other than a number says. -/
def write : Nat → Writer
  | 0, _ => .error .tooDeep
  | depth + 1, v =>
    match v with
    | .scalar s => s.write
    | .list items => do return bracketed ['['] [']'] (← items.mapM (write depth))
    | .tuple items => do
      match ← items.mapM (write depth) with
      | [one] => return '(' :: one ++ [',', ')']
      | parts => return bracketed ['('] [')'] parts
    | .set [] => .ok "set()".toList
    | .set members => do return bracketed ['\x7b'] ['\x7d'] (← members.mapM Scalar.write)
    | .mapping entries => do
      let parts ← entries.mapM fun e => do
        return (← e.1.write) ++ ':' :: ' ' :: (← write depth e.2)
      return bracketed ['\x7b'] ['\x7d'] parts
    | .object fields => do
      return called "namespace".toList
        (← fields.mapM fun f => do return named f.1 (← write depth f.2))
    | .failure text _ => .ok (called "ParseException".toList (text.toList.map Quoted.text))
    | .syntaxFailure fields => do
      return called "SyntaxError".toList (← (report? fields).toList.mapM (write depth))
    | .located l => l.write
    | .sourceLine line => do
      return called "SourceLine".toList [named "line".toList (← write depth line)]
    | .function f => .ok ('<' :: "function ".toList ++ f.name ++ ['>'])

end Value

/-- How deeply the parts of a value may be nested in each other. -/
def nestingLimit : Nat := 980

end Pinpoint
