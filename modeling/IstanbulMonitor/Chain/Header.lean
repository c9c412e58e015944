import IstanbulMonitor.Bytes.Fixed

/-!
# Block headers

The fields of a header as a node reports them. Counters and the timestamp are
64-bit words, the difficulty and the base fee 256-bit words.
-/

set_option autoImplicit false

namespace IstanbulMonitor

/-- An unsigned 256-bit word. -/
abbrev U256 := BitVec 256

/-- A block header. -/
structure Header where
  parentHash : Hash
  unclesHash : Hash
  coinbase : Address
  stateRoot : Hash
  transactionsRoot : Hash
  receiptsRoot : Hash
  logsBloom : Bytes
  difficulty : U256
  number : UInt64
  gasLimit : UInt64
  gasUsed : UInt64
  timestamp : UInt64
  extraData : Bytes
  mixDigest : Hash
  nonce : Bytes
  baseFee : Option U256
  hash : Option Hash
  deriving DecidableEq

/-- The header with every field at rest: zeros, a bloom of 256 bytes, a nonce of eight, and
difficulty one. -/
def Header.blank : Header where
  parentHash := .zero
  unclesHash := .zero
  coinbase := .zero
  stateRoot := .zero
  transactionsRoot := .zero
  receiptsRoot := .zero
  logsBloom := List.replicate 256 0
  difficulty := 1
  number := 0
  gasLimit := 0
  gasUsed := 0
  timestamp := 0
  extraData := []
  mixDigest := .zero
  nonce := List.replicate 8 0
  baseFee := none
  hash := none

/-! ## Numbers -/

/-- The last number that a block can have. -/
def lastNumber : UInt64 := 0xffffffffffffffff

/-- The number of the next block. There is none after the last number: arithmetic is checked, and a
program that needs that number panics. -/
def successor? (n : UInt64) : Option UInt64 := if n = lastNumber then none else some (n + 1)

section Numbers

variable {n : UInt64}

theorem successor?_of_ne (h : n ≠ lastNumber) : successor? n = some (n + 1) := if_neg h

theorem successor?_lastNumber : successor? lastNumber = none := if_pos rfl

/-- The number of the next block is one more as long as it has room in 64 bits. -/
theorem toNat_next (room : n.toNat + 1 < 0x10000000000000000) : (n + 1).toNat = n.toNat + 1 := by
  rw [UInt64.toNat_add, UInt64.toNat_one]
  exact Nat.mod_eq_of_lt room

/-- A number with room above it is not the last one. -/
theorem ne_lastNumber_of_room (room : n.toNat + 1 < 0x10000000000000000) : n ≠ lastNumber := by
  rintro rfl
  exact absurd room (by decide)

/-- Only the last number has none after it. -/
theorem toNat_next_of_ne (h : n ≠ lastNumber) : (n + 1).toNat = n.toNat + 1 := by
  have hlt := n.toNat_lt
  have hne : n.toNat ≠ lastNumber.toNat := mt UInt64.toNat_inj.mp h
  have hlast : lastNumber.toNat = 0xffffffffffffffff := rfl
  exact toNat_next (by omega)

end Numbers

end IstanbulMonitor
