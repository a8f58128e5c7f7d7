import Pinpoint.Text.Integer

/-!
# Double-precision numbers

Floating-point numbers as exact data: a sign, and an integer mantissa times a power of two. Every
operation computes the exact rational result and rounds it once, to the nearest number, a tie going
to the even mantissa.
-/

namespace Pinpoint

/-- A double-precision number. A finite one is `mantissa * 2 ^ exponent` in its one normal form: the
exponent is at least -1074, the mantissa below `2 ^ 53`, and at least `2 ^ 52` unless the exponent
is -1074. -/
inductive Binary64 where
  | nan
  | infinite (negative : Bool)
  | finite (negative : Bool) (mantissa : Nat) (exponent : Int)
deriving DecidableEq, Repr

namespace Binary64

def signedZero (negative : Bool) : Binary64 := .finite negative 0 (-1074)

/-- The ratio `num / den` divided by a power of two, as a ratio. -/
def scaled (num den : Nat) (e : Int) : Nat × Nat :=
  if e < 0 then (num <<< (-e).toNat, den) else (num, den <<< e.toNat)

/-- The integer nearest to `num / den`; of two, the even one. -/
def roundRatio (num den : Nat) : Nat :=
  let q := num / den
  let r := num % den
  if den < 2 * r || (2 * r == den && q % 2 == 1) then q + 1 else q

/-- The number nearest to the ratio of two natural numbers, the second one positive. -/
def ofRatio (negative : Bool) (num den : Nat) : Binary64 :=
  if num == 0 then signedZero negative
  else
    let guess : Int := num.log2 - den.log2 - 52
    let (a, b) := scaled num den guess
    let e := max (if a < b <<< 52 then guess - 1 else guess) (-1074)
    let (a, b) := scaled num den e
    let q := roundRatio a b
    let (q, e) := if q == 1 <<< 53 then (1 <<< 52, e + 1) else (q, e)
    if e > 971 then .infinite negative else .finite negative q e

/-- The number nearest to `digits * 10 ^ power`. Powers far out of range are not computed. -/
def ofDecimal (negative : Bool) (digits : Nat) (power : Int) : Binary64 :=
  let magnitude := (Nat.toDigits 10 digits).length + power
  if digits == 0 || magnitude < -400 then signedZero negative
  else if magnitude > 400 then .infinite negative
  else if power < 0 then ofRatio negative digits (Nat.pow 10 (-power).toNat)
  else ofRatio negative (digits * Nat.pow 10 power.toNat) 1

/-- A finite number as a ratio, without its sign. -/
def ratio (mantissa : Nat) (exponent : Int) : Nat × Nat :=
  scaled mantissa 1 (-exponent)

def neg : Binary64 → Binary64
  | .nan => .nan
  | .infinite s => .infinite !s
  | .finite s m e => .finite (!s) m e

def add : Binary64 → Binary64 → Binary64
  | .nan, _ => .nan
  | _, .nan => .nan
  | .infinite s, .infinite t => if s == t then .infinite s else .nan
  | .infinite s, _ => .infinite s
  | _, .infinite t => .infinite t
  | .finite s m e, .finite t n f =>
    let (a, b) := ratio m e
    let (c, d) := ratio n f
    let x : Int := if s then -(a * d : Nat) else (a * d : Nat)
    let y : Int := if t then -(c * b : Nat) else (c * b : Nat)
    if x + y == 0 then signedZero (s && t)
    else ofRatio (x + y < 0) (x + y).natAbs (b * d)

def mul : Binary64 → Binary64 → Binary64
  | .nan, _ => .nan
  | _, .nan => .nan
  | .infinite s, .infinite t => .infinite (s != t)
  | .infinite s, .finite t n _ => if n == 0 then .nan else .infinite (s != t)
  | .finite s m _, .infinite t => if m == 0 then .nan else .infinite (s != t)
  | .finite s m e, .finite t n f =>
    let (a, b) := ratio m e
    let (c, d) := ratio n f
    ofRatio (s != t) (a * c) (b * d)

def isZero : Binary64 → Bool
  | .finite _ m _ => m == 0
  | _ => false

/-- The integer that a number equals, if it is one. -/
def toInt? : Binary64 → Option Int
  | .finite s m e =>
    let (a, b) := ratio m e
    if a % b == 0 then some (if s then -(a / b : Nat) else (a / b : Nat)) else none
  | _ => none

/-- Reads a decimal numeral without its sign: digits around a point, and a power of ten. -/
def readUnsigned? (negative : Bool) (t : Text) : Option Binary64 :=
  let inRun (c : Char) : Bool := isDecimalDigit c || c == '_'
  let whole := t.takeWhile inRun
  let rest := t.dropWhile inRun
  let (fraction, rest) := match rest with
    | '.' :: more => (more.takeWhile inRun, more.dropWhile inRun)
    | _ => ([], rest)
  let run (r : Text) : Option Nat := if r.isEmpty then some 0 else readDigits? 10 r
  let power : Option Int := match rest with
    | [] => some 0
    | c :: more =>
      if c == 'e' || c == 'E' then
        match more with
        | '-' :: ds => (readDigits? 10 ds).map fun n => -(n : Int)
        | '+' :: ds => (readDigits? 10 ds).map Int.ofNat
        | ds => (readDigits? 10 ds).map Int.ofNat
      else none
  if whole.isEmpty && fraction.isEmpty then none
  else do
    let a ← run whole
    let b ← run fraction
    let k ← power
    let places := (fraction.filter isDecimalDigit).length
    return ofDecimal negative (a * Nat.pow 10 places + b) (k - places)

/-- Reads a floating-point numeral; words for infinity and not-a-number count, in any case. -/
def read? (t : Text) : Option Binary64 :=
  let (negative, rest) := match t.trim isNumeralBlank with
    | '-' :: rest => (true, rest)
    | '+' :: rest => (false, rest)
    | rest => (false, rest)
  let word := rest.map Char.toLower
  if word == ['i', 'n', 'f'] || word == ['i', 'n', 'f', 'i', 'n', 'i', 't', 'y'] then
    some (.infinite negative)
  else if word == ['n', 'a', 'n'] then some .nan
  else readUnsigned? negative rest

end Binary64

end Pinpoint
