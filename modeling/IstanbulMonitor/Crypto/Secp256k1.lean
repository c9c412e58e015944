import IstanbulMonitor.Bytes.Basic

/-!
# The curve secp256k1

Field and point arithmetic of the curve `y ^ 2 = x ^ 3 + 7` over the prime
field of `fieldPrime` elements. Points are kept in Jacobian coordinates, so
that only the way back to affine coordinates divides. `onCurve` decides
membership of a pair of coordinates, `lift?` finds the point with a given
abscissa and parity, and `recoverPoint?` solves the signature equation for the
public key.
-/

set_option autoImplicit false

namespace IstanbulMonitor.Secp256k1

/-- The number of elements of the field. -/
def fieldPrime : Nat :=
  0xfffffffffffffffffffffffffffffffffffffffffffffffffffffffefffffc2f

/-- The number of points of the curve. -/
def groupOrder : Nat :=
  0xfffffffffffffffffffffffffffffffebaaedce6af48a03bbfd25e8cd0364141

/-- A power modulo `modulus`, for an exponent of at most `bits` binary digits. -/
def powMod (modulus base : Nat) : Nat → Nat → Nat
  | 0, _ => 1 % modulus
  | bits + 1, exponent =>
    let root := powMod modulus base bits (exponent / 2)
    let square := root * root % modulus
    if exponent % 2 = 1 then square * base % modulus else square

/-- The inverse modulo a prime below `2 ^ 256`; zero for zero. -/
def inverse (prime n : Nat) : Nat :=
  powMod prime n 256 (prime - 2)

/-- A difference modulo the field prime. -/
def sub (a b : Nat) : Nat :=
  (a + fieldPrime - b % fieldPrime) % fieldPrime

/-- A product modulo the field prime. -/
def mul (a b : Nat) : Nat :=
  a * b % fieldPrime

/-- The right-hand side of the curve equation. -/
def cubic (x : Nat) : Nat :=
  (mul (mul x x) x + 7) % fieldPrime

/-- Both coordinates are field elements and satisfy the curve equation. -/
def onCurve (x y : Nat) : Bool :=
  x < fieldPrime && y < fieldPrime && mul y y == cubic x

/-- A point in affine coordinates. -/
structure Affine where
  x : Nat
  y : Nat
  deriving DecidableEq

/-- A point in Jacobian coordinates: `(x / z ^ 2, y / z ^ 3)`, or infinity when `z = 0`. -/
structure Jacobian where
  x : Nat
  y : Nat
  z : Nat
  deriving DecidableEq

/-- The neutral element. -/
def infinity : Jacobian := ⟨1, 1, 0⟩

/-- An affine point in Jacobian coordinates. -/
def Affine.toJacobian (p : Affine) : Jacobian := ⟨p.x, p.y, 1⟩

/-- The affine form of a point other than infinity. -/
def Jacobian.toAffine? (p : Jacobian) : Option Affine :=
  if p.z = 0 then none
  else
    let inv := inverse fieldPrime p.z
    let square := mul inv inv
    some ⟨mul p.x square, mul p.y (mul square inv)⟩

/-- Twice a point. -/
def Jacobian.double (p : Jacobian) : Jacobian :=
  if p.z = 0 ∨ p.y = 0 then infinity
  else
    let yy := mul p.y p.y
    let s := mul 4 (mul p.x yy)
    let m := mul 3 (mul p.x p.x)
    let x := sub (mul m m) (2 * s)
    ⟨x, sub (mul m (sub s x)) (mul 8 (mul yy yy)), mul 2 (mul p.y p.z)⟩

/-- The sum of two points. -/
def Jacobian.add (p q : Jacobian) : Jacobian :=
  if p.z = 0 then q
  else if q.z = 0 then p
  else
    let pz := mul p.z p.z
    let qz := mul q.z q.z
    let u := mul p.x qz
    let s := mul p.y (mul qz q.z)
    let h := sub (mul q.x pz) u
    let r := sub (mul q.y (mul pz p.z)) s
    if h = 0 then
      if r = 0 then p.double else infinity
    else
      let hh := mul h h
      let hhh := mul hh h
      let v := mul u hh
      let x := sub (sub (mul r r) hhh) (2 * v)
      ⟨x, sub (mul r (sub v x)) (mul s hhh), mul h (mul p.z q.z)⟩

/-- A multiple of a point, for a factor of at most `bits` binary digits. -/
def Jacobian.times (p : Jacobian) : Nat → Nat → Jacobian
  | 0, _ => infinity
  | bits + 1, factor =>
    let half := p.times bits (factor / 2)
    if factor % 2 = 1 then half.double.add p else half.double

/-- The generator of the group. -/
def generator : Affine :=
  ⟨0x79be667ef9dcbbac55a06295ce870b07029bfcdb2dce28d959f2815b16f81798,
   0x483ada7726a3c4655da4fbfc0e1108a8fd17b448a68554199c47d08ffb10d4b8⟩

/-- The point of the curve with abscissa `x` whose ordinate has the given parity. -/
def lift? (x : Nat) (odd : Bool) : Option Affine :=
  let target := cubic x
  let root := powMod fieldPrime target 256 ((fieldPrime + 1) / 4)
  if x < fieldPrime ∧ mul root root = target then
    if (root % 2 == 1) == odd then some ⟨x, root⟩
    else some ⟨x, sub 0 root⟩
  else none

/-- The public key under which `(r, s)` signs `digest` with a nonce point of
abscissa `r` and the given parity: `(s / r) * R - (digest / r) * G`. -/
def recoverPoint? (digest r s : Nat) (odd : Bool) : Option Affine := do
  let nonce ← lift? r odd
  let rInverse := inverse groupOrder r
  let u := (groupOrder - digest % groupOrder * rInverse % groupOrder) % groupOrder
  let v := s * rInverse % groupOrder
  ((generator.toJacobian.times 256 u).add (nonce.toJacobian.times 256 v)).toAffine?

end IstanbulMonitor.Secp256k1
