import IstanbulMonitor.Istanbul.Seals
import IstanbulMonitor.Monitor.Cache
import IstanbulMonitor.Monitor.Config
import IstanbulMonitor.Monitor.Report
import IstanbulMonitor.Monitor.Statistics
import IstanbulMonitor.Telemetry.Journal
import IstanbulMonitor.Validator.Registry

/-!
# The monitor

The monitor of one network: its validators, who operates them, and what was
counted of them. This module holds the operations that need no answer of the
node. Each gives a result and the monitor afterwards; the statistics change only
if the signers of the header are known.
-/

set_option autoImplicit false

namespace IstanbulMonitor

/-- A monitor. The set of validators does not change once the monitor has it. -/
structure Monitor where
  config : MonitorConfig
  registry : Registry
  recover : SignerRecovery
  cache : HeaderCache
  validators : ValidatorSet := .ofMembers []
  statistics : Statistics := {}
  journal : Journal := {}
  published : List BlockReport := []

namespace Monitor

/-- A monitor that does not know its validators yet. -/
def make (config : MonitorConfig) (registry : Registry) (recover : SignerRecovery) : Monitor :=
  { config, registry, recover, cache := .empty config.cacheCapacity }

/-- The monitor with a warning given. -/
def warn (m : Monitor) (w : Warning) : Monitor := { m with journal := m.journal.warn w }

/-- The monitor with a metric changed. -/
def measure (m : Monitor) (change : Metrics → Metrics) : Monitor :=
  { m with journal := m.journal.measure change }

theorem statistics_warn (m : Monitor) (w : Warning) : (m.warn w).statistics = m.statistics := rfl

theorem recover_warn (m : Monitor) (w : Warning) : (m.warn w).recover = m.recover := rfl

theorem statistics_measure (m : Monitor) (change : Metrics → Metrics) :
    (m.measure change).statistics = m.statistics := rfl

/-- The monitor with a set of validators and nothing counted. A validator without an operator is
warned of. -/
def watch (m : Monitor) (set : ValidatorSet) : Monitor :=
  let m := { m with validators := set, statistics := .seeded set }
  set.members.foldl
    (fun m a => if (m.registry.get? a).isNone then m.warn .unknownOperator else m) m

/-- A header whose signers cannot be named. -/
def rejectHeader (m : Monitor) (e : RecoveryError) : Except MonitorError Seals × Monitor :=
  (.error (.recovery e), (m.measure Metrics.countRecoveryFailure).warn .recoveryFailed)

/-- The signers of a header. -/
def extract (m : Monitor) (h : Header) : Except MonitorError Seals × Monitor :=
  match Proposal.ofHeader m.recover h with
  | .error e => m.rejectHeader e
  | .ok proposal =>
    let m := if proposal.isDisputedBy h then m.warn .hashDiffers else m
    match proposal.seals m.recover with
    | .error e => m.rejectHeader e
    | .ok seals => (.ok seals, m)

theorem statistics_rejectHeader (m : Monitor) (e : RecoveryError) :
    (m.rejectHeader e).2.statistics = m.statistics := by
  rw [rejectHeader, statistics_warn, statistics_measure]

/-- Whatever the seals say, naming the signers counts nothing. -/
theorem statistics_extract (m : Monitor) (h : Header) :
    (m.extract h).2.statistics = m.statistics := by
  unfold extract
  cases Proposal.ofHeader m.recover h with
  | error e => exact statistics_rejectHeader m e
  | ok p =>
    -- the warning about the hash comes before the committed seals are read
    have key : ∀ m' : Monitor, m'.statistics = m.statistics →
        (match p.seals m'.recover with
          | .error e => m'.rejectHeader e
          | .ok seals => (.ok seals, m')).2.statistics = m.statistics := by
      intro m' h'
      cases p.seals m'.recover with
      | error e => exact (statistics_rejectHeader m' e).trans h'
      | ok seals => exact h'
    exact key _ (by split <;> rfl)

/-- The result of naming the signers is that of reading the seals. -/
theorem extract_fst (m : Monitor) (h : Header) :
    (m.extract h).1 = (Seals.ofHeader m.recover h).mapError .recovery := by
  unfold extract Seals.ofHeader
  cases Proposal.ofHeader m.recover h with
  | error e => rfl
  | ok p =>
    have key : ∀ m' : Monitor, m'.recover = m.recover →
        (match p.seals m'.recover with
          | .error e => m'.rejectHeader e
          | .ok seals => (.ok seals, m')).1 = (p.seals m.recover).mapError .recovery := by
      intro m' h'
      rw [h']
      cases p.seals m.recover <;> rfl
    exact key _ (by split <;> rfl)

/-- A block whose signers are known, counted unless it was counted before or is older than the
last one counted. -/
def record (m : Monitor) (number : UInt64) (seals : Seals) : Monitor :=
  if m.statistics.isFresh number then
    { m with statistics := m.statistics.apply number seals.proposer seals.endorsers }.measure
      fun metrics => (metrics.countBlocks 1).setLastBlock number
  else m

/-- A header counted, and its signers. -/
def count (m : Monitor) (h : Header) : Except MonitorError Seals × Monitor :=
  match m.extract h with
  | (.error e, m) => (.error e, m)
  | (.ok seals, m) => (.ok seals, m.record h.number seals)

/-- A header whose signers cannot be named is not counted. -/
theorem statistics_count_of_error {m : Monitor} {h : Header} {e : MonitorError}
    (he : (m.count h).1 = .error e) : (m.count h).2.statistics = m.statistics := by
  rw [← statistics_extract m h]
  unfold count at he ⊢
  split <;> simp_all

/-- The row of a validator in the report on a block. -/
def row (m : Monitor) (seals : Seals) (a : Address) : ValidatorRow where
  address := a
  operator := m.registry.operator? a
  proposals := m.statistics.counters.proposals.count a
  endorsements := m.statistics.counters.endorsements.count a
  isProposer := a = seals.proposer
  isEndorser := seals.endorsers.contains a

/-- The report on a block whose signers are known. -/
def describe (m : Monitor) (h : Header) (previous : UInt64) (seals : Seals) : BlockReport :=
  let next := (m.validators.nextAfter seals.proposer).toOption
  { number := h.number
    timestamp := h.timestamp
    elapsed := elapsedBetween previous h.timestamp
    proposer := seals.proposer
    operator := m.registry.operator? seals.proposer
    proposerCount := m.statistics.counters.proposals.count seals.proposer
    nextOperator := next.bind m.registry.operator?
    nextProposer := next
    endorsers := seals.endorsers
    gasLimit := h.gasLimit
    gasUsed := h.gasUsed
    validators := m.validators.members.map (m.row seals) }

/-- A header counted and reported on; `previous` is the timestamp of the block before it. -/
def report (m : Monitor) (h : Header) (previous : UInt64) :
    Except MonitorError BlockReport × Monitor :=
  match m.count h with
  | (.error e, m) => (.error e, m)
  | (.ok seals, m) => (.ok (m.describe h previous seals), m)

/-- The monitor with a report published. -/
def publish (m : Monitor) (r : BlockReport) : Monitor := { m with published := m.published ++ [r] }

end Monitor

end IstanbulMonitor
