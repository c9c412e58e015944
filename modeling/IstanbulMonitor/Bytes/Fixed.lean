import IstanbulMonitor.Bytes.Hex

/-!
# Byte strings of a fixed length

Addresses and hashes are byte strings whose length is part of the type.
`FixedBytes.ofBytes?` accepts exactly the byte strings of that length.
-/

set_option autoImplicit false

namespace IstanbulMonitor

/-- A byte string of length `n`. -/
structure FixedBytes (n : Nat) where
  toList : Bytes
  length_toList : toList.length = n
  deriving DecidableEq

namespace FixedBytes

variable {n : Nat}

/-- The value with these bytes, if there are `n` of them. -/
def ofBytes? (bytes : Bytes) : Option (FixedBytes n) :=
  if h : bytes.length = n then some ⟨bytes, h⟩ else none

/-- The last `n` base-256 digits of a number. -/
def ofNat (n value : Nat) : FixedBytes n :=
  ⟨Bytes.ofNat n value, Bytes.length_ofNat n value⟩

/-- The last `n` bytes of a byte string, which starts with zeros if it is shorter. -/
def ofSuffix (n : Nat) (bytes : Bytes) : FixedBytes n :=
  ⟨List.replicate (n - bytes.length) 0 ++ bytes.drop (bytes.length - n), by simp; omega⟩

/-- The first `n` bytes of a byte string, filled up with zeros. -/
def ofStart (n : Nat) (bytes : Bytes) : FixedBytes n :=
  ⟨bytes.take n ++ List.replicate (n - bytes.length) 0, by simp; omega⟩

/-- All bytes zero. -/
def zero : FixedBytes n := ofNat n 0

/-- The number the bytes denote, most significant byte first. -/
def toNat (x : FixedBytes n) : Nat := Bytes.toNat x.toList

/-- Two lower-case digits a byte after `0x`. -/
def hex (x : FixedBytes n) : String := Hex.marked x.toList

instance : Inhabited (FixedBytes n) := ⟨zero⟩

theorem ofBytes?_toList (x : FixedBytes n) : ofBytes? x.toList = some x := by
  simp [ofBytes?, x.length_toList]

theorem toList_inj {x y : FixedBytes n} : x.toList = y.toList ↔ x = y := by
  cases x
  cases y
  rw [mk.injEq]

/-- The last bytes of a byte string that is long enough. -/
theorem toList_ofSuffix {bytes : Bytes} (h : n ≤ bytes.length) :
    (ofSuffix n bytes).toList = bytes.drop (bytes.length - n) := by
  show List.replicate (n - bytes.length) 0 ++ bytes.drop (bytes.length - n) = _
  rw [Nat.sub_eq_zero_of_le h, List.replicate_zero, List.nil_append]

end FixedBytes

/-- An account address. -/
abbrev Address := FixedBytes 20

/-- A 32-byte digest. -/
abbrev Hash := FixedBytes 32

end IstanbulMonitor
