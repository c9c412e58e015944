import IstanbulMonitor.Bytes.Hex

/-!
# Digit strings

`Radix.read` reads an unsigned number below a limit from its digits, after at
most one plus sign. Digits are taken from left to right and the first one that
cannot be used decides the fault: no digit of the radix, or a value that has
reached the limit.
-/

set_option autoImplicit false

namespace IstanbulMonitor.Radix

/-- What stops the reading of a digit string. -/
inductive Fault where
  | invalid
  | overflow
  deriving DecidableEq

/-- The value of a digit in a radix of at most sixteen. -/
def digit? (radix : Nat) (c : Char) : Option Nat :=
  (Hex.value? c).filter (· < radix)

/-- The value of `acc` followed by the digits. -/
def accumulate (radix limit : Nat) : Nat → List Char → Except Fault Nat
  | acc, [] => .ok acc
  | acc, c :: cs =>
    match digit? radix c with
    | none => .error .invalid
    | some d =>
      if acc * radix + d < limit then accumulate radix limit (acc * radix + d) cs
      else .error .overflow

/-- At least one digit, after an optional plus sign. -/
def read (radix limit : Nat) : List Char → Except Fault Nat
  | [] => .error .invalid
  | '+' :: c :: cs => accumulate radix limit 0 (c :: cs)
  | cs => accumulate radix limit 0 cs

/-- A 64-bit number in decimal digits. -/
def decimal64? (text : String) : Option UInt64 :=
  match read 10 UInt64.size text.toList with
  | .ok n => some (UInt64.ofNat n)
  | .error _ => none

end IstanbulMonitor.Radix
