import IstanbulMonitor.Bytes.Basic

/-!
# Recursive length encoding: reading

`Rlp.extent` reads the header of the item a byte string starts with and checks
that the item fits. `Rlp.items` cuts a payload into items for as long as
headers are good, and drops the rest; every item it returns has a good header.
`Rlp.payload` reads the bytes of a data item.
-/

set_option autoImplicit false

namespace IstanbulMonitor.Rlp

/-- Why bytes are no item of the wanted kind. -/
inductive Fault where
  | tooShort
  | tooBig
  | expectedList
  | expectedData
  | zeroLengthPrefix
  | badIndirection
  | inconsistentLength
  deriving DecidableEq

/-- The name under which a fault is reported. -/
def Fault.name : Fault → String
  | .tooShort => "RlpIsTooShort"
  | .tooBig => "RlpIsTooBig"
  | .expectedList => "RlpExpectedToBeList"
  | .expectedData => "RlpExpectedToBeData"
  | .zeroLengthPrefix => "RlpDataLenWithZeroPrefix"
  | .badIndirection => "RlpInvalidIndirection"
  | .inconsistentLength => "RlpInconsistentLengthAndData"

/-- The lengths of an item's header and payload. -/
structure Extent where
  header : Nat
  payload : Nat
  deriving DecidableEq

/-- The length of the whole item. -/
def Extent.total (e : Extent) : Nat := e.header + e.payload

/-- The extent announced by a header whose length field has `digits` bytes. -/
def longExtent (digits : Nat) (tail : Bytes) : Except Fault Extent :=
  match tail with
  | [] => .error .tooShort
  | first :: _ =>
    if first = 0 then .error .zeroLengthPrefix
    else if tail.length < digits then .error .tooShort
    else
      let len := Bytes.toNat (tail.take digits)
      if len ≤ 55 then .error .badIndirection else .ok ⟨1 + digits, len⟩

/-- The extent announced by the header at the start of a byte string. -/
def announced : Bytes → Except Fault Extent
  | [] => .error .tooShort
  | b :: tail =>
    let n := b.toNat
    if n ≤ 0x7f then .ok ⟨0, 1⟩
    else if n ≤ 0xb7 then .ok ⟨1, n - 0x80⟩
    else if n ≤ 0xbf then longExtent (n - 0xb7) tail
    else if n ≤ 0xf7 then .ok ⟨1, n - 0xc0⟩
    else longExtent (n - 0xf7) tail

/-- The extent of the item at the start of a byte string, which has to hold all of it. -/
def extent (bytes : Bytes) : Except Fault Extent := do
  let e ← announced bytes
  if e.total ≤ bytes.length then .ok e else .error .tooShort

/-- Whether an item is a list. -/
def isList : Bytes → Bool
  | [] => false
  | b :: _ => 0xc0 ≤ b

/-- At most `fuel` items from the start of a payload, up to the first bad header. -/
def itemsWithin : Nat → Bytes → List Bytes
  | 0, _ => []
  | fuel + 1, bytes =>
    match extent bytes with
    | .error _ => []
    | .ok e => bytes.take e.total :: itemsWithin fuel (bytes.drop e.total)

/-- The items of a payload up to the first bad header. Every item has at least one byte. -/
def cut (payload : Bytes) : List Bytes :=
  itemsWithin payload.length payload

/-- The items of a list, up to the first bad header; none if it is no list. -/
def items (bytes : Bytes) : List Bytes :=
  if isList bytes then
    match extent bytes with
    | .error _ => []
    | .ok e => cut ((bytes.take e.total).drop e.header)
  else []

/-- The bytes of a data item. A length field of any size is accepted here. -/
def payload : Bytes → Except Fault Bytes
  | [] => .error .tooShort
  | b :: tail =>
    let n := b.toNat
    if n ≤ 0x7f then .ok [b]
    else if n ≤ 0xb7 then
      if tail.length < n - 0x80 then .error .inconsistentLength
      else
        let body := tail.take (n - 0x80)
        if n = 0x81 ∧ body.all (· < 0x80) then .error .badIndirection else .ok body
    else if n ≤ 0xbf then
      let digits := n - 0xb7
      if tail.length < digits then .error .inconsistentLength
      else if (tail.take digits).head? = some 0 then .error .badIndirection
      else
        let len := Bytes.toNat (tail.take digits)
        if tail.length < digits + len then .error .inconsistentLength
        else .ok ((tail.drop digits).take len)
    else .error .expectedData

/-- The bytes of a data item of exactly `n` bytes. -/
def fixedPayload (n : Nat) (bytes : Bytes) : Except Fault Bytes := do
  let body ← payload bytes
  if body.length < n then .error .tooShort
  else if n < body.length then .error .tooBig
  else .ok body

end IstanbulMonitor.Rlp
