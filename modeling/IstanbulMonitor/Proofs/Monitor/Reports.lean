import IstanbulMonitor.Proofs.Monitor.Endorsements
import IstanbulMonitor.Proofs.Validator.RoundRobin

/-!
# Reports agree with the statistics

A report joins what four sources say of a block: the signers that its seals name, the counters once
the block is counted, the turns of the validators, and the registry of operators. The proposer, an
endorser or a validator may be missing in any of the others. `BlockReport.Agrees` says what each
part of a report owes to its source. It holds of every report that is made
(`Monitor.report_agrees`), whether the block was counted by it or had been counted before.
-/

set_option autoImplicit false

namespace IstanbulMonitor

/-- What a report on a block owes to the signers that the seals of the block name, to the addresses
of which the set of validators was made, to the registry, and to the statistics right after it. -/
structure BlockReport.Agrees (r : BlockReport) (h : Header) (previous : UInt64) (seals : Seals)
    (addresses : List Address) (registry : Registry) (snapshot : Statistics) : Prop where
  /-- The report is on this block. -/
  block : r.number = h.number ∧ r.timestamp = h.timestamp ∧ r.gasLimit = h.gasLimit ∧
    r.gasUsed = h.gasUsed
  /-- It names the signers in the order of the seals. -/
  signers : r.proposer = seals.proposer ∧ r.endorsers = seals.endorsers
  /-- There is a row for each validator, and no other. -/
  rows : ∀ a, r.validators.countP (·.address = a) = if a ∈ addresses then 1 else 0
  /-- The rows stand in the strict order of the checksum texts. -/
  ordered : r.validators.Pairwise fun row later =>
    row.address.checksumBytes < later.address.checksumBytes
  /-- The counts of each row are those of the statistics. -/
  counts : ∀ row ∈ r.validators,
    row.proposals = snapshot.counters.proposals.count row.address ∧
      row.endorsements = snapshot.counters.endorsements.count row.address
  /-- The row of the proposer is marked, and no other. -/
  marksProposer : ∀ row ∈ r.validators, row.isProposer = true ↔ row.address = seals.proposer
  /-- No row is marked if the proposer is outside the set. -/
  proposerRows : r.validators.countP (·.isProposer) = if seals.proposer ∈ addresses then 1 else 0
  /-- The rows of the endorsers are marked, and no others. -/
  marksEndorsers : ∀ row ∈ r.validators, row.isEndorser = true ↔ row.address ∈ seals.endorsers
  /-- The count of the proposer is told also if it is outside the set. -/
  proposerCount : r.proposerCount = snapshot.counters.proposals.count seals.proposer
  /-- The next proposer follows the proposer in the order of the checksum texts. -/
  next : ∀ a, r.nextProposer = some a ↔ ValidatorSet.Succeeds addresses seals.proposer a
  /-- There is none exactly if the proposer is outside the set. -/
  noNext : r.nextProposer = none ↔ seals.proposer ∉ addresses
  /-- The operators are those that the registry knows. -/
  operators : r.operator = registry.operator? seals.proposer ∧
    r.nextOperator = r.nextProposer.bind registry.operator? ∧
    ∀ row ∈ r.validators, row.operator = registry.operator? row.address
  /-- The time since the block before is not negative. -/
  elapsed : (r.elapsed.toNat : Int) = max 0 ((h.timestamp.toNat : Int) - previous.toNat)

namespace ValidatorSet

variable {addresses : List Address} {a : Address}

/-- Only members have a successor. -/
theorem exists_nextAfter_ofList_iff :
    (∃ b, (ofList addresses).nextAfter a = .ok b) ↔ a ∈ addresses := by
  constructor
  · rintro ⟨b, hb⟩
    cases nextAfter_ofList_eq_ok_iff.mp hb with
    | next current => exact current
    | wrap current => exact current
  · intro ha
    have member : a ∈ (ofList addresses).members := mem_members_ofList.mpr ha
    exact ⟨_, nextAfter_eq_formPerm (indexed_ofList addresses) member⟩

/-- An address is found once among the members if it was given, and else not at all. -/
theorem countP_members_ofList (a : Address) :
    (ofList addresses).members.countP (fun b => decide (b = a)) =
      if a ∈ addresses then 1 else 0 := by
  have counted : (ofList addresses).members.countP (fun b => decide (b = a)) =
      (ofList addresses).members.count a :=
    List.countP_congr fun b _ => by simp
  rw [counted, (ascending_ofList addresses).nodup.count]
  exact if_congr mem_members_ofList rfl rfl

end ValidatorSet

namespace Monitor

variable {γ : Type} {m : Monitor} {addresses : List Address} {h : Header} {seals : Seals}

theorem elapsedBetween_eq_max (previous current : UInt64) :
    ((elapsedBetween previous current).toNat : Int) =
      max 0 ((current.toNat : Int) - previous.toNat) := by
  rw [toNat_elapsedBetween]
  omega

/-- The description of a block agrees with the monitor that gives it. -/
theorem agrees_describe (hset : m.validators = .ofList addresses) (h : Header)
    (previous : UInt64) (seals : Seals) :
    (m.describe h previous seals).Agrees h previous seals addresses m.registry m.statistics := by
  -- every row is that of a member
  have each : ∀ {p : ValidatorRow → Prop}, (∀ a, p (m.row seals a)) →
      ∀ row ∈ (m.describe h previous seals).validators, p row := by
    intro p hp row mem
    obtain ⟨a, -, rfl⟩ := List.mem_map.mp mem
    exact hp a
  have next : ∀ a, (m.describe h previous seals).nextProposer = some a ↔
      m.validators.nextAfter seals.proposer = .ok a := by
    intro a
    show (m.validators.nextAfter seals.proposer).toOption = some a ↔ _
    cases m.validators.nextAfter seals.proposer <;> simp [Except.toOption]
  refine
    { block := ⟨rfl, rfl, rfl, rfl⟩, signers := ⟨rfl, rfl⟩, rows := fun a => ?rows,
      ordered := ?ordered, counts := each fun a => ⟨rfl, rfl⟩,
      marksProposer := each fun a => decide_eq_true_iff, proposerRows := ?proposerRows,
      marksEndorsers := each fun a => List.contains_iff_mem, proposerCount := rfl,
      next := fun a => ?next, noNext := ?noNext, operators := ⟨rfl, rfl, each fun a => rfl⟩,
      elapsed := elapsedBetween_eq_max previous h.timestamp }
  case rows =>
    show (m.validators.members.map (m.row seals)).countP _ = _
    rw [List.countP_map, hset]
    exact ValidatorSet.countP_members_ofList a
  case ordered =>
    show (m.validators.members.map (m.row seals)).Pairwise _
    rw [List.pairwise_map, hset]
    exact (ValidatorSet.ascending_ofList addresses).imp Address.checksumBytes_lt_iff.mpr
  case proposerRows =>
    show (m.validators.members.map (m.row seals)).countP _ = _
    rw [List.countP_map, hset]
    exact ValidatorSet.countP_members_ofList seals.proposer
  case next => rw [next, hset, ValidatorSet.nextAfter_ofList_eq_ok_iff]
  case noNext =>
    rw [← ValidatorSet.exists_nextAfter_ofList_iff, ← hset, Option.eq_none_iff_forall_ne_some,
      not_exists]
    exact forall_congr' fun a => not_congr (next a)

/-- A block whose signers are known is applied to the statistics and described as the monitor then
stands. -/
theorem report_of_signed (hseals : Seals.ofHeader m.recover h = .ok seals) (previous : UInt64) :
    ∃ after : Monitor,
      after.statistics = m.statistics.apply h.number seals.proposer seals.endorsers ∧
        after.validators = m.validators ∧ after.registry = m.registry ∧
        m.report h previous = (.ok (after.describe h previous seals), after) := by
  rcases m.count_cases h with ⟨e, journal, hunread, -⟩ | ⟨seals', journal, hseals', hcount⟩
  · cases hseals.symm.trans hunread
  · cases hseals.symm.trans hseals'
    refine ⟨{ m with
      statistics := m.statistics.apply h.number seals.proposer seals.endorsers, journal },
      rfl, rfl, rfl, ?_⟩
    simp only [report, hcount]

/-! ## The main theorem -/

/-- **Reports agree with the statistics.** Whatever a monitor has done before, a block whose signers
are known is reported on, and the statistics right after are those with the block applied: counted
if its number is above the watermark, and else as they were. In either case the report agrees with
them, with the signers, with the turns of the validators and with the registry. -/
theorem report_agrees (g : Gateway γ) (hset : m.validators = .ofList addresses)
    (hseals : Seals.ofHeader m.recover h = .ok seals) (previous : UInt64) (x : γ) :
    ∃ r after, (reportHeader h previous).runWith g m x = (.ok r, after, x) ∧
      after.statistics = m.statistics.apply h.number seals.proposer seals.endorsers ∧
      r.Agrees h previous seals addresses m.registry after.statistics := by
  obtain ⟨after, hstatistics, hvalidators, hregistry, hreport⟩ := report_of_signed hseals previous
  refine ⟨after.describe h previous seals, after, ?_, hstatistics, ?_⟩
  · rw [reportHeader, Inquiry.runWith_ofOperation, hreport]
  · rw [← hregistry]
    exact agrees_describe (hvalidators.trans hset) h previous seals

/-- A monitor of the accounts one and two that knows the operator of account two and has counted
block five. -/
def operated : Monitor :=
  (((make {} ⟨[⟨.ofNat 20 2, "second", none⟩]⟩ spelledOut).watch
    (.ofList [.ofNat 20 2, .ofNat 20 1])).count (sealedBlock 5)).2

/-- Block four comes after block five and is not counted. Account one proposed it, and the accounts
two and three endorsed it; account three is no validator. -/
theorem report_agrees_belated :
    operated.validators = .ofList [.ofNat 20 2, .ofNat 20 1] ∧
      ∃ seals, Seals.ofHeader operated.recover (coSigned 4) = .ok seals ∧
        seals.proposer = .ofNat 20 1 ∧ seals.endorsers = [.ofNat 20 2, .ofNat 20 3] ∧
        ∃ r after, (reportHeader (coSigned 4) 7).runWith threeBlocks operated () =
            (.ok r, after, ()) ∧
          r.Agrees (coSigned 4) 7 seals [.ofNat 20 2, .ofNat 20 1] operated.registry
            after.statistics ∧
          after.statistics = operated.statistics ∧ r.proposerCount = 1 ∧
          r.nextProposer = some (.ofNat 20 2) ∧ r.nextOperator = some "second" := by
  have hset : operated.validators = .ofList [.ofNat 20 2, .ofNat 20 1] := rfl
  obtain ⟨seals, hseals, hproposer, hendorsers⟩ : ∃ seals,
      Seals.ofHeader operated.recover (coSigned 4) = .ok seals ∧
        seals.proposer = .ofNat 20 1 ∧ seals.endorsers = [.ofNat 20 2, .ofNat 20 3] :=
    ⟨_, rfl, rfl, rfl⟩
  obtain ⟨r, after, hrun, hafter, agrees⟩ := report_agrees threeBlocks hset hseals 7 ()
  have belated : after.statistics = operated.statistics :=
    hafter.trans (Statistics.apply_of_le (by decide +kernel) seals.proposer seals.endorsers)
  have follows : ValidatorSet.Succeeds [.ofNat 20 2, .ofNat 20 1] (.ofNat 20 1) (.ofNat 20 2) := by
    -- there is no letter in the texts of both accounts, so the digest does not matter
    have above : Address.checksumBytes (.ofNat 20 1) < Address.checksumBytes (.ofNat 20 2) := by
      rw [Address.checksumBytes, Address.checksumBytes, Address.mixedCase_of_numerals (by decide),
        Address.mixedCase_of_numerals (by decide)]
      decide
    refine .next (by decide) (by decide) above fun c hc hac hcb => ?_
    rw [Address.checksumBytes_lt_iff] at hac hcb
    rcases List.mem_pair.mp hc with rfl | rfl
    · exact lt_irrefl _ hcb
    · exact lt_irrefl _ hac
  have hnext : r.nextProposer = some (.ofNat 20 2) := by
    rw [agrees.next, hproposer]
    exact follows
  refine ⟨hset, seals, hseals, hproposer, hendorsers, r, after, hrun, agrees, belated, ?_, hnext,
    ?_⟩
  · rw [agrees.proposerCount, belated, hproposer]
    decide +kernel
  · rw [agrees.operators.2.1, hnext]
    rfl

end Monitor

end IstanbulMonitor
