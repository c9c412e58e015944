import IstanbulMonitor.Number.Binary64

/-!
# The shortest decimal of a double

`shortest` finds, among the decimals that round to a given double, one with the
fewest digits, and of those the nearest; a tie goes to the even digit.
`Binary64.text` writes it with the point among the digits where the value lies
between `1e-5` and `1e16`, and with an exponent elsewhere. `Binary64.plain`
never writes an exponent.
-/

set_option autoImplicit false

namespace IstanbulMonitor

/-- The number `digits * 10 ^ exponent`. -/
structure Decimal where
  digits : Nat
  exponent : Int
  deriving DecidableEq

/-- The digits without at most `fuel` trailing zeros. -/
def Decimal.trimmed : Nat → Decimal → Decimal
  | 0, d => d
  | fuel + 1, d =>
    if d.digits ≠ 0 ∧ d.digits % 10 = 0 then trimmed fuel ⟨d.digits / 10, d.exponent + 1⟩ else d

namespace Binary64

/-- A comparison of `a * 10 ^ e` with the quotient `num / den`. -/
def compareScaled (a : Nat) (e : Int) (num den : Nat) : Ordering :=
  if 0 ≤ e then compare (a * Nat.pow 10 e.toNat * den) num
  else compare (a * den) (num * Nat.pow 10 (-e).toNat)

/-- The exponent of the greatest power of ten that is at most a positive quotient. The search
goes down from an exponent that is too large. -/
def floorLog10 (num den : Nat) : Nat → Int → Int
  | 0, e => e
  | fuel + 1, e =>
    if (compareScaled 1 e num den).isGT then floorLog10 num den fuel (e - 1) else e

/-- The ends and the middle of the interval of numbers that round to a double, as numerators
over one denominator; the ends belong to it when it is closed. -/
structure Interval where
  low : Nat
  middle : Nat
  high : Nat
  den : Nat
  closed : Bool

/-- The numbers that round to a positive double. -/
def interval (x : Binary64) : Interval :=
  let (m, e) := x.parts
  let down := if m = hiddenBit ∧ leastExponent < e then 1 else 2
  let (scale, den) := if 0 ≤ e then (1 <<< e.toNat, 4) else (1, 4 <<< (-e).toNat)
  ⟨(4 * m - down) * scale, 4 * m * scale, (4 * m + 2) * scale, den, m % 2 == 0⟩

/-- Whether `a * 10 ^ e` rounds to the double of an interval. -/
def Interval.contains (i : Interval) (a : Nat) (e : Int) : Bool :=
  let low := compareScaled a e i.low i.den
  let high := compareScaled a e i.high i.den
  (low.isGT || (i.closed && low.isEq)) && (high.isLT || (i.closed && high.isEq))

/-- The best point of the grid of multiples of `10 ^ e`, if one rounds to the double. -/
def Interval.onGrid? (i : Interval) (e : Int) : Option Decimal :=
  let (n, d) :=
    if 0 ≤ e then (i.middle, i.den * Nat.pow 10 e.toNat)
    else (i.middle * Nat.pow 10 (-e).toNat, i.den)
  let below := n / d
  let above := below + 1
  let rest := 2 * (n % d)
  let lower := i.contains below e
  let upper := i.contains above e
  if lower && upper then
    if rest < d || (rest == d && below % 2 == 0) then some ⟨below, e⟩ else some ⟨above, e⟩
  else if lower then some ⟨below, e⟩
  else if upper then some ⟨above, e⟩
  else none

/-- The first grid with a hit, starting from multiples of `10 ^ e`. -/
def Interval.search (i : Interval) : Nat → Int → Decimal
  | 0, e => ⟨0, e⟩
  | fuel + 1, e =>
    match i.onGrid? e with
    | some d => d
    | none => i.search fuel (e - 1)

/-- The shortest decimal that rounds to a finite double, as a magnitude. -/
def shortest (x : Binary64) : Decimal :=
  let i := x.interval
  if i.middle = 0 then ⟨0, 0⟩
  else
    let top := floorLog10 i.middle i.den 700 309
    (i.search 18 top).trimmed 20

/-- Decimal digits of a number. -/
def digitChars (n : Nat) : List Char := Nat.toDigits 10 n

/-- A magnitude in positional notation; `whole` is what follows the digits of an integral value. -/
def positional (d : Decimal) (whole : List Char) : List Char :=
  let digits := digitChars d.digits
  let count : Int := digits.length
  if 0 ≤ d.exponent then digits ++ List.replicate d.exponent.toNat '0' ++ whole
  else if 0 < count + d.exponent then
    let split := (count + d.exponent).toNat
    digits.take split ++ '.' :: digits.drop split
  else '0' :: '.' :: List.replicate (-(count + d.exponent)).toNat '0' ++ digits

/-- A magnitude with one digit before the point and a signed exponent. -/
def scientific (d : Decimal) : List Char :=
  let digits := digitChars d.digits
  let power : Int := d.exponent + digits.length - 1
  let mantissa :=
    match digits with
    | first :: second :: rest => first :: '.' :: second :: rest
    | _ => digits
  mantissa ++ 'e' :: (if power < 0 then '-' else '+') :: digitChars power.natAbs

/-- The sign and the magnitude's text. -/
def signed (x : Binary64) (text : List Char) : String :=
  String.ofList (if x.isNegative then '-' :: text else text)

/-- The text of a finite double: positional for exponents from -5 to 15. -/
def text (x : Binary64) : String :=
  let d := x.shortest
  let power : Int := d.exponent + (digitChars d.digits).length - 1
  x.signed (if -5 ≤ power ∧ power ≤ 15 then positional d ['.', '0'] else scientific d)

/-- The text of a finite double without exponent and without a fraction of zeros. -/
def plain (x : Binary64) : String :=
  x.signed (positional x.shortest [])

end Binary64

end IstanbulMonitor
