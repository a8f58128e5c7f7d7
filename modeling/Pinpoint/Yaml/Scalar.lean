import Pinpoint.Text.Lowercase
import Pinpoint.Yaml.Token

/-!
# Scalars

What a plain scalar is taken for by its form alone, and how a scalar of a known kind becomes a
value. The forms are those of YAML 1.1: words like `yes` are truth values, integers may be binary,
octal, hexadecimal or in base sixty, and dates and times have forms of their own.
-/

namespace Pinpoint.Yaml

/-- What a node is. -/
inductive Tag where
  | null
  | bool
  | int
  | float
  | binary
  | timestamp
  | str
  | seq
  | map
  | omap
  | pairs
  | set
  /-- The key that merges mappings. -/
  | merge
  /-- The key of a default value. -/
  | value
  | other (t : Text)
deriving DecidableEq, Repr

/-- The stem of the standard tags. -/
def standardStem : Text := "tag:yaml.org,2002:".toList

/-- The tags by their names behind the standard stem. -/
def namedTags : List (Text × Tag) :=
  [("null".toList, .null), ("bool".toList, .bool), ("int".toList, .int), ("float".toList, .float),
    ("binary".toList, .binary), ("timestamp".toList, .timestamp), ("str".toList, .str),
    ("seq".toList, .seq), ("map".toList, .map), ("omap".toList, .omap), ("pairs".toList, .pairs),
    ("set".toList, .set), ("merge".toList, .merge), ("value".toList, .value)]

def Tag.ofText (t : Text) : Tag :=
  if standardStem.isPrefixOf t then
    match namedTags.find? fun n => n.1 == t.drop standardStem.length with
    | some n => n.2
    | none => .other t
  else .other t

/-! ## Forms of plain scalars -/

def isDigitOrUnderscore (c : Char) : Bool := c.isDigit || c == '_'

def dropSign : Text → Text
  | '-' :: rest => rest
  | '+' :: rest => rest
  | t => t

/-- Whether a text is a number below sixty, as the later places of a number in base sixty are. -/
def isSexagesimalPlace : Text → Bool
  | [d] => d.isDigit
  | [c, d] => '0' ≤ c && c ≤ '5' && d.isDigit
  | _ => false

/-- Whether a text is one or more places of a number in base sixty, each behind a colon. -/
def areSexagesimalPlaces : Text → Bool
  | ':' :: rest => (rest.splitOn ':').all isSexagesimalPlace
  | _ => false

/-- Whether a plain scalar has the form of an integer. -/
def isInteger (t : Text) : Bool :=
  match dropSign t with
  | ['0'] => true
  | '0' :: 'b' :: rest => !rest.isEmpty && rest.all fun c => c == '0' || c == '1' || c == '_'
  | '0' :: 'x' :: rest => !rest.isEmpty && rest.all fun c => isHexDigit c || c == '_'
  | '0' :: rest => rest.all fun c => ('0' ≤ c && c ≤ '7') || c == '_'
  | c :: rest =>
    let behind := rest.dropWhile isDigitOrUnderscore
    '1' ≤ c && c ≤ '9' && (behind.isEmpty || areSexagesimalPlaces behind)
  | [] => false

/-- Whether a text is empty or a signed power of ten. -/
def isPower : Text → Bool
  | [] => true
  | e :: s :: ds =>
    (e == 'e' || e == 'E') && (s == '-' || s == '+') && !ds.isEmpty && ds.all Char.isDigit
  | _ => false

/-- Whether a plain scalar has the form of a floating-point number. -/
def isFloat (t : Text) : Bool :=
  let body := dropSign t
  let signed := body.length < t.length
  match body with
  | '.' :: rest =>
    ["inf".toList, "Inf".toList, "INF".toList].contains rest ||
      (!signed && ["nan".toList, "NaN".toList, "NAN".toList].contains rest) ||
      (!signed && rest.head?.any Char.isDigit && isPower (rest.dropWhile isDigitOrUnderscore))
  | c :: rest =>
    c.isDigit &&
      match rest.dropWhile isDigitOrUnderscore with
      | '.' :: more => isPower (more.dropWhile isDigitOrUnderscore)
      | places =>
        areSexagesimalPlaces (places.takeWhile (· != '.')) &&
          match places.dropWhile (· != '.') with
          | '.' :: more => more.all isDigitOrUnderscore
          | _ => false
  | [] => false

/-! ## Dates and times -/

structure ClockForm where
  hour : Text
  minute : Text
  second : Text
  fraction : Text
  /-- The zone: none, or the minutes east of Greenwich. -/
  zone : Option Int
deriving DecidableEq, Repr

structure TimestampForm where
  year : Text
  month : Text
  day : Text
  clock : Option ClockForm
deriving DecidableEq, Repr

/-- Takes at least `least` and at most `most` digits from the front of a text. -/
def takeDigits? (least most : Nat) (t : Text) : Option (Text × Text) :=
  let ds := (t.take most).takeWhile Char.isDigit
  if ds.length < least then none else some (ds, t.drop ds.length)

def takeChar? (c : Char) : Text → Option Text
  | d :: rest => if c == d then some rest else none
  | [] => none

def digitsToNat (ds : Text) : Nat := ds.foldl (fun n c => 10 * n + (c.toNat - 48)) 0

/-- Reads a time zone up to the end of a text. -/
def readZone? (t : Text) : Option (Option Int) :=
  match t.dropWhile fun c => c == ' ' || c == '\t' with
  | [] => if t.isEmpty then some none else none
  | ['Z'] => some (some 0)
  | s :: rest => do
    if s != '-' && s != '+' then none
    let (hours, rest) ← takeDigits? 1 2 rest
    let minutes ← match rest with
      | [] => some []
      | ':' :: more =>
        (takeDigits? 2 2 more).bind fun (ds, rest) => if rest.isEmpty then some ds else none
      | _ => none
    let total : Int := 60 * digitsToNat hours + digitsToNat minutes
    return some (if s == '-' then -total else total)

/-- Reads a time of day and its zone up to the end of a text. -/
def readClock? (t : Text) : Option ClockForm := do
  let (hour, rest) ← takeDigits? 1 2 t
  let (minute, rest) ← takeDigits? 2 2 (← takeChar? ':' rest)
  let (second, rest) ← takeDigits? 2 2 (← takeChar? ':' rest)
  let (fraction, rest) := match rest with
    | '.' :: more => (more.takeWhile Char.isDigit, more.dropWhile Char.isDigit)
    | _ => ([], rest)
  let zone ← readZone? rest
  return ⟨hour, minute, second, fraction, zone⟩

def readTimestamp? (t : Text) : Option TimestampForm := do
  let (year, rest) ← takeDigits? 4 4 t
  let (month, rest) ← takeDigits? 1 2 (← takeChar? '-' rest)
  let (day, rest) ← takeDigits? 1 2 (← takeChar? '-' rest)
  match rest with
  | [] => return ⟨year, month, day, none⟩
  | c :: more =>
    let blank (c : Char) : Bool := c == ' ' || c == '\t'
    let clock ←
      if c == 'T' || c == 't' then readClock? more
      else if blank c then readClock? (more.dropWhile blank)
      else none
    return ⟨year, month, day, some clock⟩

/-- Whether a plain scalar has the form of a timestamp; a date alone has two-digit months and days.
-/
def isTimestamp (t : Text) : Bool :=
  (readTimestamp? t).any fun s => s.clock.isSome || (s.month.length == 2 && s.day.length == 2)

/-- A text without a line feed at its very end, which the forms do not look at. -/
def dropFinalFeed (t : Text) : Text :=
  if t.getLast? == some '\n' then t.dropLast else t

/-- The words for truth values and what they mean. -/
def truthWords : List (Text × Bool) :=
  [("yes".toList, true), ("no".toList, false), ("true".toList, true), ("false".toList, false),
    ("on".toList, true), ("off".toList, false)]

def capitalize : Text → Text
  | [] => []
  | c :: rest => c.toUpper :: rest

/-- Whether a text is a word in lowercase, capitalized or in uppercase. -/
def isCased (word t : Text) : Bool :=
  t == word || t == capitalize word || t == word.map Char.toUpper

/-- What a plain scalar is taken for. -/
def Tag.ofPlain (text : Text) : Tag :=
  let t := dropFinalFeed text
  if text.isEmpty || t == ['~'] || isCased "null".toList t then .null
  else if truthWords.any fun w => isCased w.1 t then .bool
  else if isFloat t then .float
  else if isInteger t then .int
  else if t == ['<', '<'] then .merge
  else if isTimestamp t then .timestamp
  else if t == ['='] then .value
  else .str

/-! ## Values of scalars -/

/-- The number whose digits in base sixty are given, the most significant first. -/
def sexagesimal (places : List Int) : Int := places.foldl (fun n d => 60 * n + d) 0

/-- Reads an integer, or fails with the text that is none. -/
def integerOf (base : Nat) (t : Text) : Except ScalarFault Int :=
  match readInteger? base t with
  | some n =>
    if base == 10 && digitLimit < t.countP isDecimalDigit then .error .tooManyDigits else .ok n
  | none => .error (.integer base t)

def readInt (text : Text) : Except ScalarFault Int := do
  let t := text.filter (· != '_')
  let sign : Int := if t.head? == some '-' then -1 else 1
  let body := dropSign t
  if t.isEmpty || body.isEmpty then throw .emptyNumber
  let n ← match body with
    | ['0'] => .ok 0
    | '0' :: 'b' :: rest => integerOf 2 rest
    | '0' :: 'x' :: rest => integerOf 16 rest
    | '0' :: _ => integerOf 8 body
    | _ =>
      if body.contains ':' then sexagesimal <$> (body.splitOn ':').mapM (integerOf 10)
      else integerOf 10 body
  return sign * n

def floatOf (t : Text) : Except ScalarFault Binary64 :=
  match Binary64.read? t with
  | some x => .ok x
  | none => .error (.float t)

/-- Adds up the places of a number in base sixty, the least significant first, with rounding at
every step. -/
def sexagesimalFloat : Nat → Binary64 → List Binary64 → Except ScalarFault Binary64
  | _, sum, [] => .ok sum
  | base, sum, d :: rest =>
    match Binary64.ofRatio false base 1 with
    | .infinite _ => .error .tooLarge
    | worth => sexagesimalFloat (60 * base) (sum.add (d.mul worth)) rest

def readFloat (text : Text) : Except ScalarFault Binary64 := do
  let t := (text.filter (· != '_')).flatMap lowercase
  if t.isEmpty then throw .emptyNumber
  let body := dropSign t
  let negative := t.head? == some '-'
  if body == ".inf".toList then return .infinite negative
  else if body == ".nan".toList then return .nan
  else
    let x ←
      if body.contains ':' then do
        let places ← (body.splitOn ':').mapM floatOf
        sexagesimalFloat 1 (Binary64.signedZero false) places.reverse
      else floatOf body
    return if negative then x.neg else x

def readBool (text : Text) : Except ScalarFault Bool :=
  match truthWords.find? fun w => w.1 == text.map Char.toLower with
  | some w => .ok w.2
  | none => .error (.boolean text)

def isLeap (year : Nat) : Bool := year % 4 == 0 && (year % 100 != 0 || year % 400 == 0)

def daysIn (year month : Nat) : Nat :=
  if month == 2 then (if isLeap year then 29 else 28)
  else if month == 4 || month == 6 || month == 9 || month == 11 then 30 else 31

def makeDate (year month day : Nat) : Except ScalarFault Date := do
  if year == 0 then throw (.year year)
  if month == 0 || 12 < month then throw .month
  if day == 0 || daysIn year month < day then throw .day
  return ⟨year, month, day⟩

/-- The millionths of a second that digits behind the point write; further digits are cut off. -/
def microseconds (fraction : Text) : Nat :=
  let ds := fraction.take 6
  digitsToNat (ds ++ List.replicate (6 - ds.length) '0')

def readMoment (text : Text) : Except ScalarFault Scalar := do
  let form ← match readTimestamp? (dropFinalFeed text) with
    | some form => .ok form
    | none => .error .timestamp
  let year := digitsToNat form.year
  let month := digitsToNat form.month
  let day := digitsToNat form.day
  match form.clock with
  | none => return .date (← makeDate year month day)
  | some clock =>
    if clock.zone.any fun z => 1440 ≤ z.natAbs then throw (.zone (clock.zone.getD 0))
    let date ← makeDate year month day
    let hour := digitsToNat clock.hour
    let minute := digitsToNat clock.minute
    let second := digitsToNat clock.second
    if 23 < hour then throw .hour
    if 59 < minute then throw .minute
    if 59 < second then throw .second
    return .dateTime ⟨date, hour, minute, second, microseconds clock.fraction, clock.zone⟩

/-- The value of a character among the digits of base sixty-four. -/
def base64Digit? (c : Char) : Option Nat :=
  if 'A' ≤ c && c ≤ 'Z' then some (c.toNat - 65)
  else if 'a' ≤ c && c ≤ 'z' then some (c.toNat - 71)
  else if c.isDigit then some (c.toNat + 4)
  else if c == '+' then some 62
  else if c == '/' then some 63
  else none

/-- Decodes base-64 data: `held` are the digits of the unfinished group, and `pads` the padding seen
behind them. Other characters are passed over. -/
def decodeBase64 (held : List Nat) (pads : Nat) : Text → Option (List UInt8)
  | [] => if held.isEmpty then some [] else none
  | c :: rest =>
    if c == '=' then
      match held with
      | [a, b] =>
        if 1 ≤ pads then some [UInt8.ofNat (a * 4 + b / 16)] else decodeBase64 held (pads + 1) rest
      | [a, b, d] => some [UInt8.ofNat (a * 4 + b / 16), UInt8.ofNat (b * 16 + d / 4)]
      | _ => decodeBase64 held pads rest
    else
      match base64Digit? c, held with
      | none, _ => decodeBase64 held pads rest
      | some d, [x, y, z] =>
        let group := [x * 4 + y / 16, y * 16 + z / 4, z * 64 + d].map UInt8.ofNat
        (decodeBase64 [] 0 rest).map (group ++ ·)
      | some d, _ => decodeBase64 (held ++ [d]) 0 rest

def readBytes (text : Text) : Except Fault (List UInt8) :=
  if text.all (·.toNat < 128) then
    match decodeBase64 [] 0 text with
    | some bs => .ok bs
    | none => .error .malformed
  else .error .malformed

/-- The value of a scalar of a kind. Kinds of collections and unknown kinds have none. -/
def readScalar (tag : Tag) (text : Text) : Except Fault Scalar :=
  match tag with
  | .null => .ok .null
  | .bool => ((readBool text).map Scalar.bool).mapError Fault.scalar
  | .int => ((readInt text).map Scalar.int).mapError Fault.scalar
  | .float => ((readFloat text).map Scalar.float).mapError Fault.scalar
  | .binary => (readBytes text).map Scalar.bytes
  | .timestamp => (readMoment text).mapError Fault.scalar
  | .str => .ok (.text text)
  | _ => .error .malformed

end Pinpoint.Yaml
