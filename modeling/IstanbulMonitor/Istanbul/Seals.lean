import IstanbulMonitor.Istanbul.Digest
import IstanbulMonitor.Istanbul.Recovery

/-!
# The signers of a header

The signers are named in two steps: the proposer's seal gives a `Proposal`, and
the committed seals, which sign the hash of the block proposed, give the
endorsers in their order. One seal that cannot be read spoils the whole.
-/

set_option autoImplicit false

namespace IstanbulMonitor

/-- A header whose proposer is known. -/
structure Proposal where
  extra : Extra
  proposer : Address
  blockHash : Hash
  deriving DecidableEq

/-- The signers of a header, and its hash. -/
structure Seals where
  proposer : Address
  endorsers : List Address
  blockHash : Hash
  deriving DecidableEq

namespace Proposal

/-- The proposer named by the seal of a header. -/
def ofHeader (recover : SignerRecovery) (h : Header) : Except RecoveryError Proposal := do
  let extra ← Extra.decode h.extraData
  let proposer ← recover (h.proposerDigest extra) extra.proposerSeal
  return ⟨extra, proposer, h.blockHash extra⟩

/-- Whether the node reports another hash than that of the block. -/
def isDisputedBy (p : Proposal) (h : Header) : Bool := h.hash.any (· ≠ p.blockHash)

/-- The signers, once the committed seals are read. -/
def seals (recover : SignerRecovery) (p : Proposal) : Except RecoveryError Seals := do
  let endorsers ← p.extra.committedSeals.mapM (recover (commitDigest p.blockHash))
  return ⟨p.proposer, endorsers, p.blockHash⟩

end Proposal

/-- The signers of a header. -/
def Seals.ofHeader (recover : SignerRecovery) (h : Header) : Except RecoveryError Seals := do
  (← Proposal.ofHeader recover h).seals recover

end IstanbulMonitor
