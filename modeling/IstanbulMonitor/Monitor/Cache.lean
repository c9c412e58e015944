import IstanbulMonitor.Chain.Header

/-!
# The header cache

Headers by block number, for as many blocks as the cache has room for. The
entries stand in the order of their last use, the latest first; a new entry in
a full cache takes the place of the one whose last use is longest ago. A `put`
and a `get` that finds its block are uses, a `contains` is not.
-/

set_option autoImplicit false

namespace IstanbulMonitor

/-- Headers by block number, the latest used first. -/
structure HeaderCache where
  capacity : Nat
  entries : List (UInt64 × Header)
  deriving DecidableEq

namespace HeaderCache

/-- A cache with room for `capacity` headers, but at least for one. -/
def empty (capacity : Nat) : HeaderCache := ⟨max capacity 1, []⟩

/-- The number of headers kept. -/
def size (c : HeaderCache) : Nat := c.entries.length

/-- Whether there is a header for a block. -/
def contains (c : HeaderCache) (n : UInt64) : Bool := c.entries.any (·.1 = n)

/-- The entries for other blocks. -/
def others (c : HeaderCache) (n : UInt64) : List (UInt64 × Header) :=
  c.entries.filter (·.1 ≠ n)

/-- The cache with a header stored for a block. -/
def put (c : HeaderCache) (n : UInt64) (h : Header) : HeaderCache :=
  { c with entries := ((n, h) :: c.others n).take c.capacity }

/-- The header kept for a block, and the cache after this use of it. -/
def get (c : HeaderCache) (n : UInt64) : Option Header × HeaderCache :=
  match c.entries.find? (·.1 = n) with
  | some entry => (some entry.2, { c with entries := entry :: c.others n })
  | none => (none, c)

theorem size_put_le (c : HeaderCache) (n : UInt64) (h : Header) :
    (c.put n h).size ≤ c.capacity := by
  simp only [put, size, List.length_take]
  exact Nat.min_le_left ..

theorem contains_put (c : HeaderCache) (n : UInt64) (h : Header) (pos : 0 < c.capacity) :
    (c.put n h).contains n = true := by
  obtain ⟨k, hk⟩ : ∃ k, c.capacity = k + 1 := ⟨c.capacity - 1, by omega⟩
  simp [put, contains, hk]

end HeaderCache

end IstanbulMonitor
