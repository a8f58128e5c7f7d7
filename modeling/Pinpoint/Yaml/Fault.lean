import Pinpoint.Value.Written

/-!
# Why a text gives no value

A text may fail to be YAML at all, or be YAML of which a scalar cannot be turned into the kind of
value that it claims to be. The two are told apart, because only the first is a matter of form.
-/

namespace Pinpoint.Yaml

/-- Why a scalar gives no value. -/
inductive ScalarFault where
  /-- An escape names a code point past the last one. -/
  | codePoint (n : Nat)
  | integer (base : Nat) (t : Text)
  /-- The decimal numeral of an integer has too many digits. -/
  | tooManyDigits
  | float (t : Text)
  /-- A place in base sixty is worth more than any floating-point number. -/
  | tooLarge
  | emptyNumber
  | boolean (t : Text)
  | timestamp
  | year (n : Nat)
  | month
  | day
  | hour
  | minute
  | second
  /-- A time zone is a day or more away from Greenwich. -/
  | zone (minutes : Int)
deriving DecidableEq, Repr

/-- Why a text gives no value. -/
inductive Fault where
  /-- The text is not a YAML document, or holds something that has no value. -/
  | malformed
  /-- The collections are nested too deeply. -/
  | tooDeep
  | scalar (e : ScalarFault)
deriving DecidableEq, Repr

/-- What kind of error a cause is reported as. -/
def ScalarFault.kind : ScalarFault → FaultKind
  | .codePoint n => if n < 0x80000000 then .wrongValue else .overflow
  | .tooLarge => .overflow
  | .emptyNumber => .noIndex
  | .boolean _ => .unknownKey
  | .timestamp => .noAttribute
  | _ => .wrongValue

def ScalarFault.message : ScalarFault → Text
  | .codePoint _ => "chr() arg not in range(0x110000)".toList
  | .integer base t =>
    "invalid literal for int() with base ".toList ++ decimal base ++ ": ".toList ++
      (Quoted.text t).take 200
  | .tooManyDigits => Pinpoint.Fault.tooManyDigits.message
  | .float t => "could not convert string to float: ".toList ++ Quoted.text t
  | .tooLarge => "int too large to convert to float".toList
  | .emptyNumber => "string index out of range".toList
  | .boolean t => Quoted.text t
  | .timestamp => "not a timestamp".toList
  | .year n => "year ".toList ++ decimal n ++ " is out of range".toList
  | .month => "month must be in 1..12".toList
  | .day => "day is out of range for month".toList
  | .hour => "hour must be in 0..23".toList
  | .minute => "minute must be in 0..59".toList
  | .second => "second must be in 0..59".toList
  | .zone minutes =>
    "offset must be a timedelta strictly between -timedelta(hours=24) and ".toList ++
      "timedelta(hours=24), not ".toList ++ writtenMinutes minutes ++ ['.']

end Pinpoint.Yaml
