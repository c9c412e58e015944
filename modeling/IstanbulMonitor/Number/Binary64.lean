/-!
# Double-precision numbers

A `Binary64` is a 64-bit pattern of the IEEE format. Results of arithmetic are
defined by rounding an exact quotient of natural numbers to the nearest
pattern, a tie going to the even one (`Binary64.ofRatio?`); there is no result
when the quotient is too large. Signs are handled apart: the operations work on
magnitudes.
-/

set_option autoImplicit false

namespace IstanbulMonitor

/-- A double-precision pattern. -/
structure Binary64 where
  bits : UInt64
  deriving DecidableEq

namespace Binary64

/-- The quotient rounded to the nearest natural number, a tie going to the even one. -/
def roundDiv (num den : Nat) : Nat :=
  let low := num / den
  let rest := 2 * (num % den)
  if rest < den then low
  else if den < rest then low + 1
  else low + low % 2

/-- The quotient `num / (den * 2 ^ e)` as a pair of natural numbers. -/
def shifted (num den : Nat) (e : Int) : Nat × Nat :=
  if 0 ≤ e then (num, den <<< e.toNat) else (num <<< (-e).toNat, den)

/-- The exponent of the greatest power of two that is at most a positive quotient. -/
def floorLog2 (num den : Nat) : Int :=
  let guess : Int := (Nat.log2 num : Int) - (Nat.log2 den : Int)
  let (n, d) := shifted num den guess
  if n < d then guess - 1 else guess

/-- The least exponent of the last place. -/
def leastExponent : Int := -1074

/-- The weight of the bit above the fraction of a pattern, which is left out of it. -/
def hiddenBit : Nat := 0x10000000000000

/-- The weight of the sign bit of a pattern. -/
def signBit : Nat := 0x8000000000000000

/-- The nearest pattern to a quotient, unless it is too large. -/
def ofRatio? (num den : Nat) : Option Binary64 :=
  if num = 0 then some ⟨0⟩
  else
    let e := max (floorLog2 num den - 52) leastExponent
    let (n, d) := shifted num den e
    let pattern := (e - leastExponent).toNat * hiddenBit + roundDiv n d
    if pattern < 0x7ff * hiddenBit then some ⟨UInt64.ofNat pattern⟩ else none

/-- The sign bit. -/
def isNegative (x : Binary64) : Bool := signBit ≤ x.bits.toNat

/-- The pattern with the sign bit set. -/
def negated (x : Binary64) : Binary64 := ⟨x.bits ||| 0x8000000000000000⟩

/-- The magnitude as `mantissa * 2 ^ exponent`. -/
def parts (x : Binary64) : Nat × Int :=
  let magnitude := x.bits.toNat % signBit
  let fraction := magnitude % hiddenBit
  let field := magnitude / hiddenBit
  if field = 0 then (fraction, leastExponent)
  else (fraction + hiddenBit, leastExponent + (field - 1 : Nat))

/-- The magnitude as an exact quotient. -/
def ratio (x : Binary64) : Nat × Nat :=
  let (m, e) := x.parts
  if 0 ≤ e then (m <<< e.toNat, 1) else (m, 1 <<< (-e).toNat)

/-- The rounded product of two magnitudes. -/
def times? (x y : Binary64) : Option Binary64 :=
  let (a, b) := x.ratio
  let (c, d) := y.ratio
  ofRatio? (a * c) (b * d)

/-- The rounded quotient of two magnitudes, the second not zero. -/
def over? (x y : Binary64) : Option Binary64 :=
  let (a, b) := x.ratio
  let (c, d) := y.ratio
  ofRatio? (a * d) (b * c)

/-- The nearest pattern to a natural number below `2 ^ 1023`. -/
def ofNat (n : Nat) : Binary64 :=
  (ofRatio? n 1).getD ⟨0⟩

/-- The nearest natural number that a pattern holds exactly; the counters of the metrics keep
their values in this form. -/
def roundNat (n : Nat) : Nat :=
  let (num, den) := (ofNat n).ratio
  num / den

/-- The greatest power of ten that is scaled by in one step. -/
def maxScale : Nat := 308

/-- A significand scaled by a power of ten, in steps of at most `maxScale` digits, each rounded.
There is no result when a step is too large. -/
def scaleWithin : Nat → Binary64 → Int → Option Binary64
  | 0, x, _ => some x
  | fuel + 1, x, e =>
    if e.natAbs ≤ maxScale then
      if 0 ≤ e then x.times? (ofNat (Nat.pow 10 e.toNat))
      else x.over? (ofNat (Nat.pow 10 (-e).toNat))
    else if x.bits = 0 then some x
    else if 0 ≤ e then none
    else do
      let y ← x.over? (ofNat (Nat.pow 10 maxScale))
      scaleWithin fuel y (e + maxScale)

/-- The double read from a significand and a decimal exponent. -/
def scale (significand : Nat) (exponent : Int) : Option Binary64 :=
  scaleWithin (exponent.natAbs / maxScale + 1) (ofNat significand) exponent

end Binary64

end IstanbulMonitor
