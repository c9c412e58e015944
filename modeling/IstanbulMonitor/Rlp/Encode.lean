import IstanbulMonitor.Bytes.Basic

/-!
# Recursive length encoding: writing

An item is a byte string (`Rlp.data`) or a list of items (`Rlp.list`). Each is
written as a header that holds its length, followed by its payload; a single
byte below `0x80` is its own encoding.
-/

set_option autoImplicit false

namespace IstanbulMonitor.Rlp

/-- The header of a payload of length `len`; `base` is `0x80` for data and `0xc0` for lists. -/
def header (base len : Nat) : Bytes :=
  if len ≤ 55 then [UInt8.ofNat (base + len)]
  else
    let digits := Bytes.minimal len
    UInt8.ofNat (base + 55 + digits.length) :: digits

/-- A byte string as an item. -/
def data : Bytes → Bytes
  | [b] => if b < 0x80 then [b] else header 0x80 1 ++ [b]
  | bytes => header 0x80 bytes.length ++ bytes

/-- A number as an item: its shortest byte string. -/
def number (n : Nat) : Bytes :=
  data (Bytes.minimal n)

/-- A list of encoded items as an item. -/
def list (items : List Bytes) : Bytes :=
  let payload := items.flatten
  header 0xc0 payload.length ++ payload

end IstanbulMonitor.Rlp
