import Pinpoint.Number.Binary64

/-!
# Shortest numerals

A number is written with the fewest digits that read back as the same number, and of those the
nearest. The notation is positional from `0.0001` up to, but not including, `10 ^ 16`, and otherwise
a power of ten of two digits or more.
-/

namespace Pinpoint.Binary64

/-- The decimal exponent of a positive ratio: the power of ten at or below it. -/
def decimalExponent (num den : Nat) : Int :=
  let guess : Int := (Nat.toDigits 10 num).length - (Nat.toDigits 10 den).length
  let reached : Bool :=
    if guess < 0 then den ≤ num * Nat.pow 10 (-guess).toNat else den * Nat.pow 10 guess.toNat ≤ num
  if reached then guess else guess - 1

/-- The value's neighbour on the grid of multiples of `10 ^ power` that reads back as the value, and
the nearer one if both do. -/
def onGrid? (mantissa : Nat) (exponent : Int) (power : Int) : Option Nat :=
  let (num, den) := ratio mantissa exponent
  let (a, b) :=
    if power < 0 then (num * Nat.pow 10 (-power).toNat, den)
    else (num, den * Nat.pow 10 power.toNat)
  let below := a / b
  let reads (d : Nat) : Bool := ofDecimal false d power == .finite false mantissa exponent
  match reads below, reads (below + 1) with
  | true, true => some (roundRatio a b)
  | true, false => some below
  | false, true => some (below + 1)
  | false, false => none

/-- Drops the zeros at the end of a digit string and counts them into the power of ten. -/
def dropZeros : Text → Int → Text × Int
  | [], power => ([], power)
  | '0' :: rest, power => dropZeros rest (power + 1)
  | digits, power => (digits, power)

/-- The digits of a positive finite number and the power of ten that they count. -/
def shortestDigits (mantissa : Nat) (exponent : Int) : Text × Int :=
  let (num, den) := ratio mantissa exponent
  let top := decimalExponent num den
  let found := (List.range 17).findSome? fun (i : Nat) =>
    (onGrid? mantissa exponent (top - (i : Int))).map fun d => (d, top - (i : Int))
  let (d, power) := found.getD (0, 0)
  let (digits, power) := dropZeros (Nat.toDigits 10 d).reverse power
  (digits.reverse, power)

def writeDigits (digits : Text) (power : Int) : Text :=
  let point : Int := digits.length + power
  if -4 < point && point ≤ 16 then
    if point ≤ 0 then '0' :: '.' :: List.replicate (-point).toNat '0' ++ digits
    else if digits.length ≤ point.toNat then
      digits ++ List.replicate (point.toNat - digits.length) '0' ++ ['.', '0']
    else digits.take point.toNat ++ '.' :: digits.drop point.toNat
  else
    let lead := match digits with
      | [] => []
      | [d] => [d]
      | d :: more => d :: '.' :: more
    let size := Nat.toDigits 10 (point - 1).natAbs
    lead ++ ['e', if point - 1 < 0 then '-' else '+'] ++
      List.replicate (2 - size.length) '0' ++ size

def write : Binary64 → Text
  | .nan => ['n', 'a', 'n']
  | .infinite s => (if s then ['-'] else []) ++ ['i', 'n', 'f']
  | .finite s m e =>
    let body := if m == 0 then ['0', '.', '0']
      else let (digits, power) := shortestDigits m e; writeDigits digits power
    if s then '-' :: body else body

end Pinpoint.Binary64
