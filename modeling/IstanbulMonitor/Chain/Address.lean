import IstanbulMonitor.Chain.Quantity
import IstanbulMonitor.Crypto.Keccak

/-!
# Addresses as text

The checksum form of an address capitalises the letters among its hex digits by
the digest of the lower-case digits. It is also the key of the canonical order
of validators. `Address.parse` reads digits of any case.
-/

set_option autoImplicit false

namespace IstanbulMonitor.Address

/-- The characters of a text as bytes; used on digits only. -/
def ascii (cs : List Char) : Bytes := cs.map fun c => UInt8.ofNat c.toNat

/-- A digit, in upper case if the nibble beside it is at least eight. -/
def capitalise (c : Char) (nibble : Nat) : Char :=
  if 'a' ≤ c ∧ c ≤ 'f' ∧ 8 ≤ nibble then c.toUpper else c

/-- The nibbles of a byte string, the upper half of each byte first. -/
def nibbles (bytes : Bytes) : List Nat :=
  bytes.flatMap fun b => [b.toNat / 16, b.toNat % 16]

/-- The digits of the checksum form. -/
def checksumDigits (a : Address) : List Char :=
  let lower := Hex.encode a.toList
  List.zipWith capitalise lower (nibbles (Keccak.keccak256 (ascii lower)).toList)

/-- The checksum form: `0x` and digits in mixed case. -/
def checksum (a : Address) : String :=
  String.ofList ('0' :: 'x' :: a.checksumDigits)

/-- The address a text of forty hex digits denotes, after an optional mark. -/
def parse (text : String) : Except ParseError Address := do
  let bytes ← Hex.parse text
  match FixedBytes.ofBytes? bytes with
  | some a => .ok a
  | none => .error (.invalidHex text)

end IstanbulMonitor.Address
