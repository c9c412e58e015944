import IstanbulMonitor.Chain.Json

/-!
# Block reports

What is told about a block once its signers are known and counted, with one row
for each validator. `BlockReport.toJson` is the form in which a report is passed
on.
-/

set_option autoImplicit false

namespace IstanbulMonitor

/-- The part a validator took in a block, and its counts so far. -/
structure ValidatorRow where
  address : Address
  operator : Option String
  proposals : Nat
  endorsements : Nat
  isProposer : Bool
  isEndorser : Bool
  deriving DecidableEq

/-- The report on one block. -/
structure BlockReport where
  number : UInt64
  timestamp : UInt64
  elapsed : UInt64
  proposer : Address
  operator : Option String
  proposerCount : Nat
  nextOperator : Option String
  nextProposer : Option Address
  endorsers : List Address
  gasLimit : UInt64
  gasUsed : UInt64
  validators : List ValidatorRow
  deriving DecidableEq

/-- A row as an object. -/
def ValidatorRow.toJson (r : ValidatorRow) : Json :=
  .ofMembers
    [("address", r.address.toJson), ("operator", .ofOption (r.operator.map .string)),
     ("proposals", .nat r.proposals), ("endorsements", .nat r.endorsements),
     ("isProposer", .bool r.isProposer), ("isEndorser", .bool r.isEndorser)]

/-- A report as an object. -/
def BlockReport.toJson (r : BlockReport) : Json :=
  .ofMembers
    [("number", .word r.number), ("timestamp", .word r.timestamp), ("elapsed", .word r.elapsed),
     ("proposer", r.proposer.toJson), ("operator", .ofOption (r.operator.map .string)),
     ("proposerCount", .nat r.proposerCount),
     ("nextOperator", .ofOption (r.nextOperator.map .string)),
     ("nextProposer", .ofOption (r.nextProposer.map (·.toJson))),
     ("endorsers", .array (r.endorsers.map (·.toJson))), ("gasLimit", .word r.gasLimit),
     ("gasUsed", .word r.gasUsed), ("validators", .array (r.validators.map (·.toJson)))]

/-- The time from one timestamp to another; zero if the second is not later. -/
def elapsedBetween (previous current : UInt64) : UInt64 :=
  if previous ≤ current then current - previous else 0

theorem toNat_elapsedBetween (previous current : UInt64) :
    (elapsedBetween previous current).toNat = current.toNat - previous.toNat := by
  unfold elapsedBetween
  split
  · next hle => exact UInt64.toNat_sub_of_le _ _ hle
  · next hlt =>
    rw [UInt64.not_le, UInt64.lt_iff_toNat_lt] at hlt
    rw [UInt64.toNat_zero]
    omega

end IstanbulMonitor
