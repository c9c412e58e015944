import IstanbulMonitor.Bytes.Basic

/-!
# Hexadecimal text

Bytes are written as two lower-case digits each (`Hex.encode`) and read back
from digits of either case (`Hex.decode?`). `Hex.decode?_encode` states that
reading undoes writing.
-/

set_option autoImplicit false

namespace IstanbulMonitor.Hex

/-- The lower-case digit of a value below sixteen. -/
def digit (n : Nat) : Char :=
  if n < 10 then Char.ofNat (48 + n) else Char.ofNat (87 + n)

/-- The value of a hex digit of either case. -/
def value? (c : Char) : Option Nat :=
  if '0' ≤ c ∧ c ≤ '9' then some (c.toNat - 48)
  else if 'a' ≤ c ∧ c ≤ 'f' then some (c.toNat - 87)
  else if 'A' ≤ c ∧ c ≤ 'F' then some (c.toNat - 55)
  else none

/-- Two digits for each byte. -/
def encode : Bytes → List Char
  | [] => []
  | b :: bs => digit (b.toNat / 16) :: digit (b.toNat % 16) :: encode bs

/-- An even number of digits, two for each byte. -/
def decode? : List Char → Option Bytes
  | [] => some []
  | [_] => none
  | a :: b :: cs => do
    let high ← value? a
    let low ← value? b
    let bytes ← decode? cs
    some (UInt8.ofNat (16 * high + low) :: bytes)

/-- The text after an optional `0x` or `0X`. -/
def unprefixed : List Char → List Char
  | '0' :: 'x' :: cs => cs
  | '0' :: 'X' :: cs => cs
  | cs => cs

/-- Bytes as digits, without a leading mark. -/
def bare (bytes : Bytes) : String :=
  String.ofList (encode bytes)

/-- Bytes as `0x` and digits. -/
def marked (bytes : Bytes) : String :=
  String.ofList ('0' :: 'x' :: encode bytes)

/-- The digits of `n`, without leading zeros; zero is one digit. -/
def digits (n : Nat) : List Char :=
  Nat.toDigits 16 n

/-- A number as `0x` and the fewest digits. -/
def quantity (n : Nat) : String :=
  String.ofList ('0' :: 'x' :: digits n)

theorem value?_digit (n : Nat) (h : n < 16) : value? (digit n) = some n := by
  match n, h with
  | 0, _ | 1, _ | 2, _ | 3, _ | 4, _ | 5, _ | 6, _ | 7, _
  | 8, _ | 9, _ | 10, _ | 11, _ | 12, _ | 13, _ | 14, _ | 15, _ => rfl
  | n + 16, h => omega

theorem decode?_encode (bytes : Bytes) : decode? (encode bytes) = some bytes := by
  induction bytes with
  | nil => rfl
  | cons b bs ih =>
    have hb := b.toNat_lt
    have h1 : value? (digit (b.toNat / 16)) = some (b.toNat / 16) := value?_digit _ (by omega)
    have h2 : value? (digit (b.toNat % 16)) = some (b.toNat % 16) := value?_digit _ (by omega)
    have h3 : 16 * (b.toNat / 16) + b.toNat % 16 = b.toNat := by omega
    simp only [encode, decode?, h1, h2, ih, h3, Option.bind_eq_bind, Option.bind_some,
      UInt8.ofNat_toNat]

end IstanbulMonitor.Hex
