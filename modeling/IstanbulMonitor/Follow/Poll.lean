import IstanbulMonitor.Follow.Process

/-!
# Polled heads

A run that polls asks for the head of the chain again and again, and takes in
every block from the last one on. A block that cannot be fetched is the first
one that is asked for the next time.
-/

set_option autoImplicit false

namespace IstanbulMonitor.Follow

/-- The number of the last block taken in, and its timestamp. -/
structure Progress where
  last : UInt64
  previous : UInt64
  deriving DecidableEq

/-- The head from which polling starts. -/
def firstHead : Inquiry RunError Progress := do
  let head ← (Monitor.header .latest).mapError .chainHead
  process head head.timestamp
  return ⟨head.number, head.timestamp⟩

/-- At most `n` blocks after the last one, all of them up to some head. -/
def catchUp : Nat → Progress → Inquiry RunError Progress
  | 0, p => return p
  | n + 1, p => do
    let number := p.last + 1
    match ← (Monitor.header (.number number)).attempt with
    | .error e =>
      tolerate .headerNotFetched e
      return p
    | .ok h =>
      -- a block that could not be processed is not asked for again
      process h p.previous
      catchUp n ⟨number, h.timestamp⟩

/-- The number of blocks after `last` up to `head`, counted from the number after `last`. -/
def ahead? (last head : UInt64) : Option Nat :=
  (successor? last).map fun first => head.toNat + 1 - first.toNat

theorem ahead?_of_ne {last : UInt64} (h : last ≠ lastNumber) (head : UInt64) :
    ahead? last head = some (head.toNat - last.toNat) := by
  rw [ahead?, successor?_of_ne h, Option.map_some, toNat_next_of_ne h]
  congr 1
  omega

/-- Nothing can be told to be ahead of the last number. -/
theorem ahead?_lastNumber (head : UInt64) : ahead? lastNumber head = none := by
  rw [ahead?, successor?_lastNumber, Option.map_none]

theorem ahead?_eq_none {last head : UInt64} : ahead? last head = none ↔ last = lastNumber := by
  constructor
  · intro hnone
    refine Decidable.byContradiction fun hne => ?_
    rw [ahead?_of_ne hne] at hnone
    cases hnone
  · rintro rfl
    exact ahead?_lastNumber head

theorem ahead?_eq_some {last head : UInt64} {n : Nat} :
    ahead? last head = some n ↔ last ≠ lastNumber ∧ n = head.toNat - last.toNat := by
  constructor
  · intro hsome
    have hne : last ≠ lastNumber := by
      rintro rfl
      rw [ahead?_lastNumber] at hsome
      cases hsome
    rw [ahead?_of_ne hne] at hsome
    exact ⟨hne, (Option.some.inj hsome).symm⟩
  · rintro ⟨hne, rfl⟩
    exact ahead?_of_ne hne head

/-- The head asked for once, and the blocks up to it taken in. There is no result if the program
panics: the number after the last block is needed as soon as the head is known. -/
def poll (p : Progress) : Inquiry RunError (Option Progress) := do
  match ← Monitor.headNumber.attempt with
  | .error e =>
    tolerate .headNotFetched e
    return some p
  | .ok head =>
    match ahead? p.last head with
    | none => return none
    | some n => return some (← catchUp n p)

end IstanbulMonitor.Follow
