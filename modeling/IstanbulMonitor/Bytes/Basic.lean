/-!
# Byte strings

A byte string is a list of bytes. Numbers are read from byte strings and
written to them most significant byte first: `Bytes.toNat` reads any length,
`Bytes.ofNat` writes a fixed width, and `Bytes.minimal` writes the shortest
form, which is empty for zero.
-/

set_option autoImplicit false

namespace IstanbulMonitor

/-- A byte string. -/
abbrev Bytes := List UInt8

namespace Bytes

/-- The number a byte string denotes, most significant byte first. -/
def toNat (bytes : Bytes) : Nat :=
  bytes.foldl (fun acc byte => 256 * acc + byte.toNat) 0

/-- The last `width` base-256 digits of `n`, most significant first. -/
def ofNat : Nat → Nat → Bytes
  | 0, _ => []
  | width + 1, n => ofNat width (n / 256) ++ [UInt8.ofNat n]

/-- The number of base-256 digits of `n`; zero has none. -/
def width (n : Nat) : Nat :=
  if n = 0 then 0 else Nat.log2 n / 8 + 1

/-- The shortest byte string that denotes `n`. -/
def minimal (n : Nat) : Bytes :=
  ofNat (width n) n

theorem length_ofNat (w n : Nat) : (ofNat w n).length = w := by
  induction w generalizing n with
  | zero => rfl
  | succ w ih => simp [ofNat, ih]

end Bytes

end IstanbulMonitor
