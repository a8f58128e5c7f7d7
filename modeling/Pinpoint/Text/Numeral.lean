import Pinpoint.Text.Basic

/-!
# Numerals

Integers are unbounded, but a numeral of too many digits is neither read nor printed. So whatever
prints an integer may fail, and with it every message that an integer is part of.
-/

namespace Pinpoint

inductive FaultKind where
  | wrongValue
  | unknownKey
  | noIndex
  | noAttribute
  | overflow
  | tooDeep
  | other
deriving DecidableEq, Repr

/-- An error that comes from what writes values down or reads them. -/
structure Fault where
  kind : FaultKind
  message : Text
deriving DecidableEq, Repr

/-- The decimal numeral of an integer: no leading zeros, and a minus sign in front of the digits of
a negative one. -/
def decimal : Int → Text
  | .ofNat n => Nat.toDigits 10 n
  | .negSucc n => '-' :: Nat.toDigits 10 (n + 1)

/-- A numeral holds digits and a minus sign at most. -/
theorem not_mem_decimal {c : Char} (hdigit : c.isDigit = false) (hminus : c ≠ '-') (n : Int) :
    c ∉ decimal n := by
  have hdigits (m : Nat) : c ∉ Nat.toDigits 10 m := by
    intro hc
    rw [Nat.isDigit_of_mem_toDigits (by decide) (by decide) hc] at hdigit
    cases hdigit
  cases n with
  | ofNat n => exact hdigits n
  | negSucc n =>
    rw [decimal, List.mem_cons, not_or]
    exact ⟨hminus, hdigits (n + 1)⟩

theorem toDigits_inj {m n : Nat} (h : Nat.toDigits 10 m = Nat.toDigits 10 n) : m = n := by
  have hread := congrArg (fun digits => Nat.ofDigitChars 10 digits 0) h
  simpa only [Nat.ofDigitChars_ten_toDigits] using hread

theorem decimal_inj {m n : Int} (h : decimal m = decimal n) : m = n := by
  have hsign (a b : Nat) : decimal (.ofNat a) ≠ decimal (.negSucc b) := by
    intro h
    have hminus : '-' ∈ Nat.toDigits 10 a := List.mem_of_mem_head? (congrArg List.head? h)
    have := Nat.isDigit_of_mem_toDigits (by decide) (by decide) hminus
    exact absurd this (by decide)
  cases m with
  | ofNat a =>
    cases n with
    | ofNat b => rw [toDigits_inj h]
    | negSucc b => exact absurd h (hsign a b)
  | negSucc a =>
    cases n with
    | ofNat b => exact absurd h.symm (hsign b a)
    | negSucc b =>
      have := toDigits_inj (List.cons.inj h).2
      congr 1
      omega

/-! ## Printing -/

def digitLimit : Nat := 4300

def FewDigits (n : Int) : Prop := (Nat.toDigits 10 n.natAbs).length ≤ digitLimit

instance (n : Int) : Decidable (FewDigits n) := inferInstanceAs (Decidable (_ ≤ _))

theorem fewDigits_of_lt {n : Int} (h : n.natAbs < 0x10000000000000000) : FewDigits n := by
  have hlength : (Nat.toDigits 10 n.natAbs).length ≤ 20 :=
    (Nat.length_toDigits_le_iff (by decide) (by decide)).2 (by omega)
  exact Nat.le_trans hlength (by decide)

def Fault.tooManyDigits : Fault where
  kind := .wrongValue
  message := ("Exceeds the limit (4300 digits) for integer string conversion; use " ++
    "sys.set_int_max_str_digits() to increase the limit").toList

/-- Prints an integer, unless it has too many digits. -/
def printInteger (n : Int) : Except Fault Text :=
  if FewDigits n then .ok (decimal n) else .error .tooManyDigits

theorem printInteger_of_fewDigits {n : Int} (h : FewDigits n) : printInteger n = .ok (decimal n) :=
  if_pos h

theorem printInteger_of_not_fewDigits {n : Int} (h : ¬FewDigits n) :
    printInteger n = .error .tooManyDigits :=
  if_neg h

end Pinpoint
