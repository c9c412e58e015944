import IstanbulMonitor.Chain.Json
import IstanbulMonitor.Validator.Set

/-!
# Participation statistics

How often each account proposed a block and endorsed one. The statistics keep
the number of the last block counted, and `Statistics.apply` counts a block
only if its number is greater.

Counts are natural numbers, where the program has 64 bits for each. The proposals
add up to no more than the watermark, so they stay in this range. An account
endorses a block as often as the block has committed seals of it, so its
endorsements are not bounded by the watermark; it is assumed that they stay below
`2 ^ 64`.
-/

set_option autoImplicit false

namespace IstanbulMonitor

/-- Counts by account. -/
structure Tally where
  entries : List (Address × Nat) := []
  deriving DecidableEq

namespace Tally

/-- The count of an account; zero if it is not listed. -/
def count (t : Tally) (a : Address) : Nat :=
  match t.entries.find? (·.1 = a) with
  | some entry => entry.2
  | none => 0

/-- Whether an account is listed. -/
def lists (t : Tally) (a : Address) : Bool := t.entries.any (·.1 = a)

/-- The entries with one more for an account. -/
def bump (a : Address) : List (Address × Nat) → List (Address × Nat)
  | [] => [(a, 1)]
  | (b, n) :: rest => if b = a then (b, n + 1) :: rest else (b, n) :: bump a rest

/-- One more for an account. -/
def add (t : Tally) (a : Address) : Tally := ⟨bump a t.entries⟩

/-- The counts as an object, by the hex form of the account. -/
def toJson (t : Tally) : Json := .ofMembers (t.entries.map fun entry => (entry.1.hex, .nat entry.2))

/-- Every one of the given accounts, with count zero. -/
def zeros (accounts : List Address) : Tally := ⟨accounts.map (·, 0)⟩

end Tally

/-- Blocks proposed and endorsed, by account. -/
structure Counters where
  proposals : Tally := {}
  endorsements : Tally := {}
  deriving DecidableEq

namespace Counters

/-- A block counted for its proposer, and for each endorser as often as it is named. -/
def record (c : Counters) (proposer : Address) (endorsers : List Address) : Counters :=
  ⟨c.proposals.add proposer, endorsers.foldl Tally.add c.endorsements⟩

end Counters

/-- The counters and the number of the last block counted. -/
structure Statistics where
  counters : Counters := {}
  lastProcessed : UInt64 := 0
  deriving DecidableEq

namespace Statistics

/-- No block counted, and every validator listed. -/
def seeded (set : ValidatorSet) : Statistics :=
  { counters := ⟨.zeros set.members, .zeros set.members⟩ }

/-- Whether a block is still to be counted. -/
def isFresh (s : Statistics) (number : UInt64) : Bool := s.lastProcessed < number

/-- The statistics after a block: counted if its number is greater than that of the last one. -/
def apply (s : Statistics) (number : UInt64) (proposer : Address) (endorsers : List Address) :
    Statistics :=
  if s.isFresh number then ⟨s.counters.record proposer endorsers, number⟩ else s

/-- The statistics as an object. -/
def toJson (s : Statistics) : Json :=
  .ofMembers
    [("lastProcessed", .word s.lastProcessed), ("proposalsBy", s.counters.proposals.toJson),
     ("endorsementsBy", s.counters.endorsements.toJson)]

end Statistics

end IstanbulMonitor
