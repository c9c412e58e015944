import IstanbulMonitor.Proofs.Monitor.Transparency
import IstanbulMonitor.Proofs.Monitor.Watermark

/-!
# The metrics mirror the statistics

Three metrics go with the statistics; a `Meter` is their values. Naming the signers of a header
moves the meter only if it fails (`Monitor.meter_extract_of_error`), and counting a header moves it
together with the statistics (`Monitor.meter_count_of_ok`). A replay does not count its blocks one
by one but adds how many there are from the first to the head, when all of them are counted; against
a node that serves blocks under their numbers it has counted just as many
(`Monitor.ensures_counted_replay`). So each request of a run makes an `Entry`, which says what was
added to the statistics and which header could not be read, and the metrics are the sums of the
entries (`Monitor.mirrors_afterRequests`).
-/

set_option autoImplicit false

namespace IstanbulMonitor

/-- Why the signers of a header could not be named, if this is the failure. -/
def MonitorError.recovery? : MonitorError → Option RecoveryError
  | .recovery e => some e
  | _ => none

/-- Asking for the next proposer does not fail because of a header. -/
theorem ValidatorSet.recovery?_of_nextAfter {set : ValidatorSet} {a : Address} {e : MonitorError}
    (failed : set.nextAfter a = .error e) : e.recovery? = none := by
  rw [nextAfter] at failed
  split at failed
  · cases failed
    rfl
  · split at failed
    · cases failed
      rfl
    · cases failed

/-! ## Meters -/

/-- The metrics that go with the statistics: the blocks counted, the number of the last of them, and
the headers whose signers could not be named. -/
structure Meter where
  blocks : Nat
  lastBlock : Nat
  failures : Nat

namespace Meter

/-- Blocks counted, up to the one with the given number. -/
def count (t : Meter) (amount : Nat) (number : UInt64) : Meter :=
  { t with blocks := Metrics.increase t.blocks amount, lastBlock := Binary64.roundNat number.toNat }

/-- A header whose signers could not be named. -/
def fail (t : Meter) : Meter := { t with failures := Metrics.increase t.failures 1 }

-- Each change is stated with any number first: a comparison of rounded numbers would never end.

theorem blocks_failures (t : Meter) (n : Nat) : { t with failures := n }.blocks = t.blocks := rfl

theorem lastBlock_failures (t : Meter) (n : Nat) :
    { t with failures := n }.lastBlock = t.lastBlock := rfl

theorem failures_blocks (t : Meter) (n last : Nat) :
    { t with blocks := n, lastBlock := last }.failures = t.failures := rfl

theorem blocks_fail (t : Meter) : t.fail.blocks = t.blocks := blocks_failures t _

theorem lastBlock_fail (t : Meter) : t.fail.lastBlock = t.lastBlock := lastBlock_failures t _

theorem failures_count (t : Meter) (amount : Nat) (number : UInt64) :
    (t.count amount number).failures = t.failures := failures_blocks t _ _

end Meter

namespace Metrics

/-- The metrics that go with the statistics. -/
def meter (m : Metrics) : Meter := ⟨m.blocks, m.lastBlock, m.recoveryFailures⟩

theorem meter_recoveryFailures (m : Metrics) (n : Nat) :
    { m with recoveryFailures := n }.meter = { m.meter with failures := n } := rfl

theorem meter_blocks (m : Metrics) (n last : Nat) :
    { m with blocks := n, lastBlock := last }.meter =
      { m.meter with blocks := n, lastBlock := last } := rfl

theorem meter_countRecoveryFailure (m : Metrics) : m.countRecoveryFailure.meter = m.meter.fail :=
  meter_recoveryFailures m _

theorem meter_countBlocks (m : Metrics) (amount : Nat) (number : UInt64) :
    ((m.countBlocks amount).setLastBlock number).meter = m.meter.count amount number :=
  meter_blocks m _ _

end Metrics

/-- What a request does to the statistics: the blocks that it adds to them, and the headers whose
signers it could not name. -/
structure Entry where
  added : List Header := []
  failed : List Header := []

/-- A meter moves by an entry. A counter is exact as long as it stays below `2 ^ 53`. -/
structure Meter.Moves (before after : Meter) (e : Entry) (watermark : UInt64) : Prop where
  lastBlock_eq : after.lastBlock = watermark.toNat
  blocks_eq : before.blocks + e.added.length < 2 ^ 53 →
    after.blocks = before.blocks + e.added.length
  failures_eq : before.failures + e.failed.length < 2 ^ 53 →
    after.failures = before.failures + e.failed.length

namespace Meter.Moves

variable {t : Meter} {watermark : UInt64}

theorem nothing (mirrors : t.lastBlock = watermark.toNat) : Moves t t {} watermark where
  lastBlock_eq := mirrors
  blocks_eq _ := rfl
  failures_eq _ := rfl

theorem fail (mirrors : t.lastBlock = watermark.toNat) (h : Header) :
    Moves t t.fail ⟨[], [h]⟩ watermark where
  lastBlock_eq := t.lastBlock_fail.trans mirrors
  blocks_eq _ := t.blocks_fail
  failures_eq small :=
    (Metrics.increase_of_lt small : Metrics.increase t.failures 1 = t.failures + 1)

theorem count (small : watermark.toNat < 2 ^ 53) (blocks : List Header) :
    Moves t (t.count blocks.length watermark) ⟨blocks, []⟩ watermark where
  lastBlock_eq := Binary64.roundNat_of_lt small
  blocks_eq := Metrics.increase_of_lt
  failures_eq _ := t.failures_count _ _

end Meter.Moves

namespace Monitor

variable {γ : Type} {g : Gateway γ} {recover : SignerRecovery} {set : ValidatorSet}
  {s : Statistics} {t : Meter} {m : Monitor} {h : Header}

/-- The meter of a monitor. -/
def meter (m : Monitor) : Meter := m.journal.metrics.meter

theorem meter_warn (m : Monitor) (w : Warning) : (m.warn w).meter = m.meter := rfl

theorem meter_rejectHeader (m : Monitor) (e : RecoveryError) :
    (m.rejectHeader e).2.meter = m.meter.fail := by
  rw [rejectHeader, meter_warn]
  exact m.journal.metrics.meter_countRecoveryFailure

/-- Naming the signers of a header moves nothing. -/
theorem meter_extract_of_ok {seals : Seals} (named : Seals.ofHeader m.recover h = .ok seals) :
    (m.extract h).2.meter = m.meter := by
  unfold Seals.ofHeader at named
  unfold extract
  cases hproposal : Proposal.ofHeader m.recover h with
  | error e =>
    rw [hproposal] at named
    cases named
  | ok p =>
    rw [hproposal] at named
    have named : p.seals m.recover = .ok seals := named
    -- the warning about the hash comes before the committed seals are read
    by_cases disputed : p.isDisputedBy h = true
    · simp only [disputed, if_true, recover_warn, named]
      exact m.meter_warn .hashDiffers
    · simp only [disputed, Bool.false_eq_true, if_false, named]

/-- The meter shows that the signers of a header could not be named. -/
theorem meter_extract_of_error {e : RecoveryError}
    (unread : Seals.ofHeader m.recover h = .error e) :
    (m.extract h).2.meter = m.meter.fail := by
  unfold Seals.ofHeader at unread
  unfold extract
  cases hproposal : Proposal.ofHeader m.recover h with
  | error e => exact meter_rejectHeader m e
  | ok p =>
    rw [hproposal] at unread
    have unread : p.seals m.recover = .error e := unread
    by_cases disputed : p.isDisputedBy h = true
    · simp only [disputed, if_true, recover_warn, unread]
      exact meter_rejectHeader (m.warn .hashDiffers) e
    · simp only [disputed, Bool.false_eq_true, if_false, unread]
      exact meter_rejectHeader m e

theorem meter_record (m : Monitor) (number : UInt64) (seals : Seals) :
    (m.record number seals).meter =
      if m.statistics.isFresh number then m.meter.count 1 number else m.meter := by
  unfold record
  split
  · exact m.journal.metrics.meter_countBlocks 1 number
  · rfl

/-- The meter moves with the statistics: if a header is counted, so is one block. -/
theorem meter_count_of_ok {seals : Seals} (named : Seals.ofHeader m.recover h = .ok seals) :
    (m.count h).2.meter =
      if m.statistics.isFresh h.number then m.meter.count 1 h.number else m.meter := by
  have hfst := extract_fst m h
  have hmeter := meter_extract_of_ok named
  have hstatistics := statistics_extract m h
  rw [named] at hfst
  unfold count
  rcases hextract : m.extract h with ⟨result, m'⟩
  rw [hextract] at hfst hmeter hstatistics
  obtain rfl : result = .ok seals := hfst
  have hstatistics : m'.statistics = m.statistics := hstatistics
  have hmeter : m'.meter = m.meter := hmeter
  rw [← hstatistics, ← hmeter]
  exact m'.meter_record h.number seals

theorem meter_count_of_error {e : RecoveryError} (unread : Seals.ofHeader m.recover h = .error e) :
    (m.count h).2.meter = m.meter.fail := by
  have hfst := extract_fst m h
  have hmeter := meter_extract_of_error unread
  rw [unread] at hfst
  unfold count
  rcases hextract : m.extract h with ⟨result, m'⟩
  rw [hextract] at hfst hmeter
  obtain rfl : result = .error (.recovery e) := hfst
  exact hmeter

/-! ## Inquiries -/

/-- A monitor at rest whose meter stands at `t`. -/
def Steady (g : Gateway γ) (recover : SignerRecovery) (set : ValidatorSet) (s : Statistics)
    (t : Meter) (m : Monitor) (_ : γ) : Prop :=
  m.Rests g recover set s ∧ m.meter = t

/-- An error that is not about the seals of a header, or that the node itself has answered with. -/
def Unrelated (g : Gateway γ) (e : MonitorError) : Prop := e.recovery? = none ∨ g.Fails e

/-- What holds once an inquiry has failed: a header of the node could not be read, and the meter
shows it, or there was another reason. -/
def Stopped (g : Gateway γ) (recover : SignerRecovery) (set : ValidatorSet) (s : Statistics)
    (t : Meter) (e : MonitorError) (m : Monitor) (x : γ) : Prop :=
  (Unrelated g e ∧ Steady g recover set s t m x) ∨
    ∃ h reason, e = .recovery reason ∧ g.Serves h ∧ Seals.ofHeader recover h = .error reason ∧
      Steady g recover set s t.fail m x

/-- An inquiry that leaves the statistics and the meter alone unless a header cannot be read. -/
def Reads {α : Type} (g : Gateway γ) (recover : SignerRecovery) (set : ValidatorSet)
    (s : Statistics) (t : Meter) (i : Inquiry MonitorError α) : Prop :=
  i.Ensures g Eq (fun _ _ => True) (Steady g recover set s t)
    (fun _ => Steady g recover set s t) (Stopped g recover set s t)

theorem ensures_meter_fetch (block : BlockNumber) :
    Inquiry.Ensures g Eq (fun _ _ => True) (fun m _ => m.meter = t) (fetch block)
      (fun _ m _ => m.meter = t) (fun e m _ => Unrelated g e ∧ m.meter = t) := by
  refine .bind (Q := fun _ m _ => m.meter = t) (.ask (fun _ _ _ => trivial)
    (fun m x y a hm _ _ => hm) fun m x y e hm _ he => ⟨.inr ⟨_, _, he⟩, hm⟩) ?_
  intro answer
  cases answer with
  | none => exact .fail fun m x hm => ⟨.inl rfl, hm⟩
  | some h => exact .bind (.change fun m x hm => hm) fun _ => .pure fun m x hm => hm

theorem ensures_meter_header (block : BlockNumber) :
    Inquiry.Ensures g Eq (fun _ _ => True) (fun m _ => m.meter = t) (header block)
      (fun _ m _ => m.meter = t) (fun e m _ => Unrelated g e ∧ m.meter = t) := by
  cases block with
  | latest => exact .bind (.change fun m x hm => hm) fun _ => ensures_meter_fetch .latest
  | number n =>
    refine .bind (Q := fun _ m _ => m.meter = t) (.ofOperation (fun m x a hm _ => hm) ?_) ?_
    · intro m x e hm he
      cases he
    · intro found
      cases found with
      | none => exact ensures_meter_fetch (.number n)
      | some h => exact .pure fun m x hm => hm

/-- A look-up moves nothing. -/
theorem ensures_steady_header (numbered : g.Numbered) (block : BlockNumber) :
    Inquiry.Ensures g Eq (fun _ _ => True) (Steady g recover set s t) (header block)
      (fun h m x =>
        Steady g recover set s t m x ∧ g.Serves h ∧ ∀ n, block = .number n → h.number = n)
      (Stopped g recover set s t) := by
  refine ((Inquiry.Ensures.of_meets (meets_header numbered block)).and
    (ensures_meter_header block)).weaken (fun m x hm => hm) ?_ ?_
  · rintro h m x ⟨⟨rests, served, hnumber⟩, hmeter⟩
    exact ⟨⟨rests, hmeter⟩, served, hnumber⟩
  · rintro e m x ⟨rests, other, hmeter⟩
    exact Or.inl ⟨other, rests, hmeter⟩

/-- Naming the signers of a header of the node moves nothing, or it fails and the meter shows it. -/
theorem ensures_steady_signers (served : g.Serves h) :
    Inquiry.Ensures g Eq (fun _ _ => True) (Steady g recover set s t) (signers h)
      (fun seals m x => Seals.ofHeader recover h = .ok seals ∧ Steady g recover set s t m x)
      (Stopped g recover set s t) := by
  refine .ofOperation ?_ ?_
  · rintro m x seals ⟨rests, rfl⟩ named
    have hseals := ofHeader_of_extract named
    exact ⟨rests.recover_eq ▸ hseals, rests.extract h, meter_extract_of_ok hseals⟩
  · rintro m x e ⟨rests, rfl⟩ failed
    rw [extract_fst] at failed
    cases hseals : Seals.ofHeader m.recover h with
    | ok seals =>
      rw [hseals] at failed
      cases failed
    | error reason =>
      rw [hseals] at failed
      cases failed
      exact Or.inr ⟨h, reason, rfl, served, rests.recover_eq ▸ hseals, rests.extract h,
        meter_extract_of_error hseals⟩

/-- Statistics that count a header of the node for each of `n` numbers, besides what was counted
before. -/
def Recounts (g : Gateway γ) (recover : SignerRecovery) (set : ValidatorSet) (first n : Nat)
    (counted : List Header) (after : Statistics) : Prop :=
  ∃ blocks : List Header, blocks.map (·.number.toNat) = (List.range' first n).reverse ∧
    (∀ h ∈ blocks, g.Serves h) ∧ after.Accounts recover set (blocks ++ counted)

theorem recounts_zero {first : Nat} {counted : List Header} {after : Statistics}
    (accounts : after.Accounts recover set counted) :
    Recounts g recover set first 0 counted after :=
  ⟨[], rfl, fun _ mem => absurd mem List.not_mem_nil, accounts⟩

/-- The header of the first number may be seen as one that was counted before. -/
theorem Recounts.succ {n : Nat} {counted : List Header} {after : Statistics} (served : g.Serves h)
    (recounts : Recounts g recover set (h.number.toNat + 1) n (h :: counted) after) :
    Recounts g recover set h.number.toNat (n + 1) counted after := by
  obtain ⟨blocks, numbers, hblocks, accounts⟩ := recounts
  refine ⟨blocks ++ [h], ?_, ?_, ?_⟩
  · simp [numbers, List.range'_succ]
  · intro b mem
    rcases List.mem_append.mp mem with mem | mem
    · exact hblocks b mem
    · rwa [List.mem_singleton.mp mem]
  · rwa [List.append_assoc]

/-- A replay from a number above the watermark counts one header for each number up to the head. -/
theorem ensures_counted_replay (numbered : g.Numbered) {head : Header} (served : g.Serves head)
    (n : Nat) (number : UInt64) (fresh : Statistics) (counted : List Header)
    (left : n ≠ 0 → number.toNat + n = head.number.toNat + 1)
    (above : n ≠ 0 → fresh.lastProcessed < number) (below : fresh.lastProcessed ≤ head.number)
    (accounts : fresh.Accounts recover set counted) :
    Inquiry.Ensures g Eq (fun _ _ => True) (Steady g recover set s t) (replay head n number fresh)
      (fun fresh' m x => Steady g recover set s t m x ∧ fresh'.lastProcessed ≤ head.number ∧
        Recounts g recover set number.toNat n counted fresh')
      (Stopped g recover set s t) := by
  induction n generalizing number fresh counted with
  | zero => exact .pure fun m x steady => ⟨steady, below, recounts_zero accounts⟩
  | succ n ih =>
    -- the numbers that are left end with the head, so adding one does not wrap around before it
    have hsum := left n.succ_ne_zero
    have hbound := head.number.toNat_lt
    have hle : number ≤ head.number := by
      rw [UInt64.le_iff_toNat_le]
      omega
    have rest : ∀ h : Header, g.Serves h → h.number = number →
        Inquiry.Ensures g Eq (fun _ _ => True) (Steady g recover set s t)
          (do
            let seals ← signers h
            replay head n (number + 1) (fresh.apply h.number seals.proposer seals.endorsers))
          (fun fresh' m x => Steady g recover set s t m x ∧ fresh'.lastProcessed ≤ head.number ∧
            Recounts g recover set number.toNat (n + 1) counted fresh')
          (Stopped g recover set s t) := by
      rintro h hserved rfl
      have isFresh : fresh.isFresh h.number = true := decide_eq_true (above n.succ_ne_zero)
      refine .bind (ensures_steady_signers hserved) ?_
      rintro seals m x ⟨hseals, steady⟩
      have last : (fresh.apply h.number seals.proposer seals.endorsers).lastProcessed =
          h.number := by
        rw [Statistics.apply, if_pos isFresh]
      refine (ih (h.number + 1) _ (h :: counted) ?_ ?_ ?_
        (accounts.apply_fresh isFresh hseals)).weaken (fun m x hm => hm) ?_
          (fun e m x hE => hE) m x steady
      · intro hn
        rw [toNat_next (by omega)]
        omega
      · intro hn
        rw [last, UInt64.lt_iff_toNat_lt, toNat_next (by omega)]
        omega
      · rw [last]
        exact hle
      · rintro fresh' m x ⟨steady, below, recounts⟩
        refine ⟨steady, below, Recounts.succ hserved ?_⟩
        rcases Nat.eq_zero_or_pos n with rfl | pos
        · exact recounts
        · rwa [toNat_next (by omega)] at recounts
    rw [replay]
    by_cases hhead : number = head.number
    · rw [if_pos hhead]
      exact rest head served hhead.symm
    · rw [if_neg hhead]
      refine .bind (ensures_steady_header numbered (.number number)) ?_
      rintro h m x ⟨steady, hserved, hnumber⟩
      exact rest h hserved (hnumber number rfl) m x steady

/-- The numbers that a replay goes through, the head first. -/
def replayedNumbers (head window : UInt64) : List Nat :=
  let first := max (head.toNat - window.toNat) 1
  (List.range' first (head.toNat + 1 - first)).reverse

theorem meter_commit (m : Monitor) (fresh : Statistics) (first : UInt64) {head : UInt64}
    (h : head ≠ lastNumber) :
    (m.commit fresh first head).meter =
      m.meter.count (head.toNat + 1 - first.toNat) head := by
  simp only [commit, successor?_of_ne h, ← toNat_next_of_ne h]
  exact m.journal.metrics.meter_countBlocks _ head

/-- The program panics before it comes to the metrics. -/
theorem meter_commit_lastNumber (m : Monitor) (fresh : Statistics) (first : UInt64) :
    (m.commit fresh first lastNumber).meter = m.meter := by
  simp only [commit, successor?_lastNumber]
  rfl

/-- A restart with a window counts the last blocks anew: the statistics are those of these blocks,
and the meter moves by as many. -/
theorem ensures_counted_restart (numbered : g.Numbered)
    (heads : ∀ x head, (g (.header .latest) x).1 = .ok (some head) → head.number.toNat < 2 ^ 53)
    {window : UInt64} (positive : window ≠ 0) :
    Inquiry.Ensures g Eq (fun _ _ => True) (Steady g recover set s t) (restart window)
      (fun _ m _ => ∃ (head : Header) (blocks : List Header), head.number.toNat < 2 ^ 53 ∧
        blocks.map (·.number.toNat) = replayedNumbers head.number window ∧
        (∀ h ∈ head :: blocks, g.Serves h) ∧ m.statistics.Accounts recover set blocks ∧
        m.watermark = head.number ∧ m.Rests g recover set m.statistics ∧
        m.meter = t.count blocks.length head.number)
      (Stopped g recover set s t) := by
  unfold restart
  rw [if_neg positive]
  refine .bind (Q := fun m' m x => Steady g recover set s t m x ∧ m'.validators = set)
    (.current fun m x steady => ⟨steady, steady.1.validators_eq⟩) ?_
  rintro m' m x ⟨steady, rfl⟩
  -- the bound on the numbers is about the header that the node reports as its head
  refine Inquiry.Ensures.bind (((Inquiry.Ensures.of_meets (meets_header_latest x)).and
    (ensures_steady_header numbered .latest)).weaken (fun m x hm => hm) (fun h m x hQ => hQ)
      fun e m x hE => hE.2) ?_ m x ⟨rfl, steady⟩
  rintro head m x' ⟨answered, steady, served, -⟩
  have small := heads x head answered
  have hfirst := toNat_firstReplayed head.number window
  refine Inquiry.Ensures.bind (ensures_counted_replay numbered served _ _ _ [] ?_ ?_ ?_
    (Statistics.accounts_seeded recover _ 0)) (fun fresh => .change_pure ?_) m x' steady
  · intro left
    omega
  · intro left
    rw [UInt64.lt_iff_toNat_lt, hfirst]
    show 0 < _
    omega
  · exact UInt64.le_iff_toNat_le.mpr (Nat.zero_le _)
  · rintro m x' ⟨⟨rests, hmeter⟩, below, blocks, hnumbers, hblocks, accounts⟩
    -- the amount that is added at once is the number of headers counted one by one
    have hlength : blocks.length = head.number.toNat + 1 -
        (firstReplayed head.number window).toNat := by
      have := congrArg List.length hnumbers
      rwa [List.length_map, List.length_reverse, List.length_range'] at this
    have room : head.number ≠ lastNumber := ne_lastNumber_of_room (by omega)
    have moved := m.meter_commit fresh (firstReplayed head.number window) room
    rw [List.append_nil] at accounts
    rw [hfirst] at hnumbers
    obtain ⟨journal, hcommit⟩ :=
      m.exists_journal_commit fresh (firstReplayed head.number window) head.number
    dsimp only
    rw [hcommit] at moved ⊢
    refine ⟨head, blocks, small, hnumbers, List.forall_mem_cons.mpr ⟨served, hblocks⟩,
      accounts.raise below, rfl, ?_, ?_⟩
    · exact ⟨rests.recover_eq, rests.validators_eq, rfl, rests.cached⟩
    · rw [moved, hmeter, hlength]

/-! ## Requests that only read -/

theorem reads_header (numbered : g.Numbered) (block : BlockNumber) :
    Reads g recover set s t (header block) :=
  (ensures_steady_header numbered block).weaken (fun _ _ h => h) (fun _ _ _ h => h.1)
    fun _ _ _ h => h

theorem reads_headNumber (numbered : g.Numbered) : Reads g recover set s t headNumber :=
  .bind (reads_header numbered .latest) fun _ => .pure fun _ _ h => h

theorem reads_signerData (numbered : g.Numbered) (block : BlockNumber) :
    Reads g recover set s t (signerData block) := by
  refine .bind (ensures_steady_header numbered block) ?_
  rintro h m x ⟨steady, served, -⟩
  refine Inquiry.Ensures.bind (ensures_steady_signers served) ?_ m x steady
  exact fun seals => .pure fun m x named => named.2

/-- A question that the node does not answer is not about a header that cannot be read. -/
theorem reads_ask (q : Query) : Reads g recover set s t (Inquiry.ask q) :=
  .ask (fun _ _ _ => trivial) (fun _ _ _ _ steady _ _ => steady)
    fun _ _ _ _ steady _ he => Or.inl ⟨.inr ⟨_, _, he⟩, steady⟩

theorem reads_nodeInfo : Reads g recover set s t nodeInfo := by
  refine .bind (reads_ask .nodeInfo) ?_
  intro answer
  cases answer with
  | none => exact .fail fun m x steady => Or.inl ⟨.inl rfl, steady⟩
  | some info => exact .pure fun m x steady => steady

theorem reads_peers : Reads g recover set s t peers := by
  refine .bind (reads_ask .peers) ?_
  intro answer
  cases answer with
  | none => exact .fail fun m x steady => Or.inl ⟨.inl rfl, steady⟩
  | some list => exact .pure fun m x steady => steady

theorem reads_nextProposer (a : Address) : Reads g recover set s t (nextProposer a) := by
  refine .ofOperation (fun m x next steady _ => steady) ?_
  exact fun m x e steady failed => Or.inl
    ⟨.inl (ValidatorSet.recovery?_of_nextAfter failed), steady⟩

end Monitor

/-! ## Entries -/

/-- The headers whose signers a request is to name. -/
def MonitorRequest.handed : MonitorRequest → List Header
  | .call (.signers h) => [h]
  | .call c => c.submitted
  | .nextProposer _ => []

/-- The entry of a request, by its result and the statistics before and after it. -/
inductive Enters {γ : Type} (g : Gateway γ) (recover : SignerRecovery) (set : ValidatorSet)
    (before : Statistics) :
    MonitorRequest → Except MonitorError Unit → Entry → Statistics → Prop where
  /-- A header above the watermark is counted. -/
  | counted {r : MonitorRequest} {h : Header} {seals : Seals} (counts : r.counts = true)
      (handed : h ∈ r.handed) (signed : Seals.ofHeader recover h = .ok seals)
      (fresh : before.lastProcessed < h.number) :
      Enters g recover set before r (.ok ()) { added := [h] }
        (before.apply h.number seals.proposer seals.endorsers)
  /-- A stale header is not. -/
  | stale {r : MonitorRequest} {h : Header} {seals : Seals} (counts : r.counts = true)
      (handed : h ∈ r.handed) (signed : Seals.ofHeader recover h = .ok seals)
      (stale : h.number ≤ before.lastProcessed) :
      Enters g recover set before r (.ok ()) {} before
  /-- The last blocks are counted anew, and the statistics are those of these blocks. -/
  | replayed {window : UInt64} {head : Header} {blocks : List Header} {after : Statistics}
      (positive : window ≠ 0) (served : ∀ h ∈ head :: blocks, g.Serves h)
      (numbers : blocks.map (·.number.toNat) = Monitor.replayedNumbers head.number window)
      (accounts : after.Accounts recover set blocks)
      (watermark : after.lastProcessed = head.number) :
      Enters g recover set before (.call (.restart window)) (.ok ()) { added := blocks } after
  /-- Without a window nothing is counted. -/
  | reset : Enters g recover set before (.call (.restart 0)) (.ok ()) {}
      { Statistics.seeded set with lastProcessed := before.lastProcessed }
  /-- A request that only reads succeeds, and the signers that it is to name are known. -/
  | read {r : MonitorRequest} (reads : r.counts = false)
      (signed : ∀ h ∈ r.handed, ∃ seals, Seals.ofHeader recover h = .ok seals) :
      Enters g recover set before r (.ok ()) {} before
  /-- A header cannot be read, and so the request fails. -/
  | rejected {r : MonitorRequest} {h : Header} {reason : RecoveryError}
      (origin : h ∈ r.handed ∨ r.handed = [] ∧ g.Serves h)
      (unread : Seals.ofHeader recover h = .error reason) :
      Enters g recover set before r (.error (.recovery reason)) { failed := [h] } before
  /-- A request fails for another reason. -/
  | failed {r : MonitorRequest} {e : MonitorError} (handed : r.handed = [])
      (other : Monitor.Unrelated g e) : Enters g recover set before r (.error e) {} before

namespace Monitor

section Requests

variable {γ : Type} {g : Gateway γ} {recover : SignerRecovery} {set : ValidatorSet}
  {m m' : Monitor} {x : γ} {r : MonitorRequest}

/-- A request makes an entry: the statistics change by it, and the meter moves by it. -/
structure Books (g : Gateway γ) (recover : SignerRecovery) (set : ValidatorSet) (m : Monitor)
    (r : MonitorRequest) (result : Except MonitorError Unit) (m' : Monitor) (e : Entry) : Prop where
  enters : Enters g recover set m.statistics r result e m'.statistics
  moves : m.meter.Moves m'.meter e m'.watermark

/-- A monitor at rest whose meter shows the watermark. -/
structure Shows (g : Gateway γ) (recover : SignerRecovery) (set : ValidatorSet) (m : Monitor) :
    Prop where
  rests : m.Rests g recover set m.statistics
  mirrors : m.meter.lastBlock = m.watermark.toNat

/-- A request makes an entry and leaves a monitor at rest. -/
def Settles (g : Gateway γ) (recover : SignerRecovery) (set : ValidatorSet) (m : Monitor)
    (r : MonitorRequest) (result : Except MonitorError Unit) (m' : Monitor) : Prop :=
  m'.Rests g recover set m'.statistics ∧ ∃ e, Books g recover set m r result m' e

/-- The meter shows the watermark after any entry. -/
theorem Settles.shows {result : Except MonitorError Unit}
    (settles : Settles g recover set m r result m') : m'.Shows g recover set := by
  obtain ⟨rests, e, books⟩ := settles
  exact ⟨rests, books.moves.lastBlock_eq⟩

/-- An inquiry that settles a request, however it ends. -/
def Serving {α : Type} (g : Gateway γ) (recover : SignerRecovery) (set : ValidatorSet) (m : Monitor)
    (r : MonitorRequest) (i : Inquiry MonitorError α) : Prop :=
  i.Ensures g Eq (fun _ _ => True) (fun m₁ _ => m₁ = m)
    (fun _ m' _ => Settles g recover set m r (.ok ()) m')
    fun e m' _ => Settles g recover set m r (.error e) m'

theorem Serving.discard {α : Type} {i : Inquiry MonitorError α}
    (serving : Serving g recover set m r i) :
    Serving g recover set m r (i >>= fun _ => pure ()) :=
  Inquiry.Ensures.bind serving fun _ => .pure fun _ _ settles => settles

/-- An operation that does not ask the node settles a request if it does so in any case. -/
theorem serving_ofOperation {α : Type} {f : Monitor → Except MonitorError α × Monitor}
    (settles : Settles g recover set m r ((f m).1.map fun _ => ()) (f m).2) :
    Serving g recover set m r (Inquiry.ofOperation f) := by
  refine .ofOperation ?_ ?_
  · rintro _ x a rfl done
    rwa [done] at settles
  · rintro _ x e rfl failed
    rwa [failed] at settles

section Shown

variable (shows : m.Shows g recover set)
include shows

/-- Nothing is entered if the statistics and the meter stay. -/
theorem Shows.settles_nothing {result : Except MonitorError Unit}
    (enters : Enters g recover set m.statistics r result {} m.statistics)
    (rests : m'.Rests g recover set m.statistics) (hmeter : m'.meter = m.meter) :
    Settles g recover set m r result m' := by
  refine ⟨rests.statistics_eq.symm ▸ rests, {}, rests.statistics_eq.symm ▸ enters, ?_⟩
  rw [hmeter, watermark, rests.statistics_eq]
  exact .nothing shows.mirrors

/-- A header that cannot be read is entered as such. -/
theorem Shows.settles_failure {h : Header} {reason : RecoveryError}
    (origin : h ∈ r.handed ∨ r.handed = [] ∧ g.Serves h)
    (unread : Seals.ofHeader recover h = .error reason)
    (rests : m'.Rests g recover set m.statistics) (hmeter : m'.meter = m.meter.fail) :
    Settles g recover set m r (.error (.recovery reason)) m' := by
  refine ⟨rests.statistics_eq.symm ▸ rests, { failed := [h] },
    rests.statistics_eq.symm ▸ .rejected origin unread, ?_⟩
  rw [hmeter, watermark, rests.statistics_eq]
  exact .fail shows.mirrors h

theorem Shows.settles_stopped {e : MonitorError} (handed : r.handed = [])
    (stopped : Stopped g recover set m.statistics m.meter e m' x) :
    Settles g recover set m r (.error e) m' := by
  obtain ⟨other, rests, hmeter⟩ | ⟨h, reason, rfl, served, unread, rests, hmeter⟩ := stopped
  · exact shows.settles_nothing (.failed handed other) rests hmeter
  · exact shows.settles_failure (.inr ⟨handed, served⟩) unread rests hmeter

theorem Shows.settles_count {h : Header} (counts : r.counts = true) (handed : h ∈ r.handed)
    (small : h.number.toNat < 2 ^ 53) :
    Settles g recover set m r ((m.count h).1.map fun _ => ()) (m.count h).2 := by
  have hrecover := shows.rests.recover_eq
  rcases m.count_cases h with ⟨reason, journal, hseals, hcount⟩ | ⟨seals, journal, hseals, hcount⟩
  · have hmeter := meter_count_of_error hseals
    rw [hcount] at hmeter ⊢
    exact shows.settles_failure (.inl handed) (hrecover ▸ hseals)
      (shows.rests.of_journal journal) hmeter
  · have hmeter := meter_count_of_ok hseals
    -- the statistics and the meter ask the same question: is the header above the watermark?
    by_cases fresh : m.statistics.isFresh h.number = true
    · rw [if_pos fresh, hcount] at hmeter
      rw [hcount]
      have hlast : (m.statistics.apply h.number seals.proposer seals.endorsers).lastProcessed =
          h.number := by
        rw [Statistics.apply, if_pos fresh]
      refine ⟨⟨hrecover, shows.rests.validators_eq, rfl, shows.rests.cached⟩, { added := [h] },
        .counted counts handed (hrecover ▸ hseals) (of_decide_eq_true fresh), ?_⟩
      rw [hmeter, watermark, hlast]
      exact .count small [h]
    · have hle : h.number ≤ m.statistics.lastProcessed :=
        UInt64.not_lt.mp fun above => fresh (decide_eq_true above)
      rw [if_neg fresh, hcount, Statistics.apply_of_le hle] at hmeter
      rw [hcount, Statistics.apply_of_le hle]
      exact shows.settles_nothing (.stale counts handed (hrecover ▸ hseals) hle)
        (shows.rests.of_journal journal) hmeter

theorem Shows.settles_report {h : Header} (previous : UInt64) (counts : r.counts = true)
    (handed : h ∈ r.handed) (small : h.number.toNat < 2 ^ 53) :
    Settles g recover set m r ((m.report h previous).1.map fun _ => ())
      (m.report h previous).2 := by
  have settles := shows.settles_count counts handed small
  have hfst : (m.report h previous).1.map (fun _ => ()) = (m.count h).1.map fun _ => () := by
    unfold report
    rcases m.count h with ⟨result, m'⟩
    cases result <;> rfl
  rwa [report_snd, hfst]

theorem Shows.settles_extract (h : Header) :
    Settles g recover set m (.call (.signers h)) ((m.extract h).1.map fun _ => ())
      (m.extract h).2 := by
  have hrests := shows.rests.extract h
  have hrecover := shows.rests.recover_eq
  rw [extract_fst]
  cases hseals : Seals.ofHeader m.recover h with
  | error reason =>
    exact shows.settles_failure (.inl (List.mem_singleton_self h)) (hrecover ▸ hseals) hrests
      (meter_extract_of_error hseals)
  | ok seals =>
    refine shows.settles_nothing (.read rfl ?_) hrests (meter_extract_of_ok hseals)
    intro h' mem
    rw [List.mem_singleton.mp mem]
    exact ⟨seals, hrecover ▸ hseals⟩

/-- A request that only reads enters nothing, unless a header of the node cannot be read. -/
theorem Shows.serving_reads {α : Type} {i : Inquiry MonitorError α} (reads : r.counts = false)
    (handed : r.handed = []) (ensures : Reads g recover set m.statistics m.meter i) :
    Serving g recover set m r i := by
  refine Inquiry.Ensures.weaken ensures ?_ ?_ ?_
  · rintro _ x rfl
    exact ⟨shows.rests, rfl⟩
  · rintro a m' x ⟨rests, hmeter⟩
    refine shows.settles_nothing (.read reads ?_) rests hmeter
    rw [handed]
    exact fun h mem => absurd mem List.not_mem_nil
  · exact fun e m' x stopped => shows.settles_stopped handed stopped

theorem Shows.serving_restart (numbered : g.Numbered)
    (heads : ∀ x head, (g (.header .latest) x).1 = .ok (some head) → head.number.toNat < 2 ^ 53)
    (window : UInt64) : Serving g recover set m (.call (.restart window)) (restart window) := by
  by_cases hwindow : window = 0
  · -- the counts are set to zero, and the watermark stays
    subst hwindow
    refine .change_pure ?_
    rintro _ x rfl
    refine ⟨⟨shows.rests.recover_eq, shows.rests.validators_eq, rfl, shows.rests.cached⟩, {}, ?_,
      .nothing shows.mirrors⟩
    exact shows.rests.validators_eq ▸ .reset
  · have steady : ∀ m₁ x, m₁ = m → Steady g recover set m.statistics m.meter m₁ x := by
      rintro _ x rfl
      exact ⟨shows.rests, rfl⟩
    refine (ensures_counted_restart numbered heads hwindow).weaken steady ?_ ?_
    · rintro _ m' x ⟨head, blocks, small, numbers, served, accounts, hwatermark, rests, hmeter⟩
      refine ⟨rests, { added := blocks }, .replayed hwindow served numbers accounts hwatermark, ?_⟩
      rw [hmeter, hwatermark]
      exact .count small blocks
    · exact fun e m' x stopped => shows.settles_stopped rfl stopped

/-- Every request makes an entry. -/
theorem Shows.serving_request (numbered : g.Numbered)
    (heads : ∀ x head, (g (.header .latest) x).1 = .ok (some head) → head.number.toNat < 2 ^ 53)
    (r : MonitorRequest) (handed : ∀ h ∈ r.handed, h.number.toNat < 2 ^ 53) :
    Serving g recover set m r r.inquiry := by
  cases r with
  | nextProposer a => exact (shows.serving_reads rfl rfl (reads_nextProposer a)).discard
  | call c =>
    cases c with
    | update h =>
      have mem : h ∈ (MonitorRequest.call (.update h)).handed := List.mem_singleton_self h
      exact (serving_ofOperation (shows.settles_count rfl mem (handed h mem))).discard
    | report h previous =>
      have mem : h ∈ (MonitorRequest.call (.report h previous)).handed := List.mem_singleton_self h
      exact (serving_ofOperation (shows.settles_report previous rfl mem (handed h mem))).discard
    | restart window => exact (shows.serving_restart numbered heads window).discard
    | header block => exact (shows.serving_reads rfl rfl (reads_header numbered block)).discard
    | headNumber => exact (shows.serving_reads rfl rfl (reads_headNumber numbered)).discard
    | signers h => exact (serving_ofOperation (shows.settles_extract h)).discard
    | signerData block =>
      exact (shows.serving_reads rfl rfl (reads_signerData numbered block)).discard
    | nodeInfo => exact (shows.serving_reads rfl rfl reads_nodeInfo).discard
    | peers => exact (shows.serving_reads rfl rfl reads_peers).discard

end Shown

theorem Serving.runWith {i : Inquiry MonitorError Unit} (serving : Serving g recover set m r i)
    (x : γ) :
    Settles g recover set m r (i.runWith g m x).1 (i.runWith g m x).2.1 := by
  have hrun := Inquiry.Ensures.runWith serving (x := x) rfl
  rcases hafter : i.runWith g m x with ⟨result, m', x'⟩
  rw [hafter] at hrun
  cases result <;> exact hrun

end Requests

/-! ## Runs -/

variable {γ : Type}

/-- The monitor and the node after a list of requests. -/
def afterRequests (g : Gateway γ) (requests : List MonitorRequest) (m : Monitor) (x : γ) :
    Monitor × γ :=
  requests.foldl (fun s r => (r.inquiry.runWith g s.1 s.2).2) (m, x)

theorem afterRequests_concat (g : Gateway γ) (requests : List MonitorRequest) (r : MonitorRequest)
    (m : Monitor) (x : γ) :
    m.afterRequests g (requests ++ [r]) x =
      let before := m.afterRequests g requests x
      (r.inquiry.runWith g before.1 before.2).2 := by
  simp only [afterRequests, List.foldl_append, List.foldl_cons, List.foldl_nil]

/-- The entries of a run, one for each request, each with the state it was made in. -/
inductive Entered (g : Gateway γ) (recover : SignerRecovery) (set : ValidatorSet) (m : Monitor)
    (x : γ) : List MonitorRequest → List Entry → Prop where
  | nil : Entered g recover set m x [] []
  | concat {requests : List MonitorRequest} {entries : List Entry} {r : MonitorRequest} {e : Entry}
      (earlier : Entered g recover set m x requests entries)
      (books : let before := m.afterRequests g requests x
        let after := r.inquiry.runWith g before.1 before.2
        Books g recover set before.1 r after.1 after.2.1 e) :
      Entered g recover set m x (requests ++ [r]) (entries ++ [e])

end Monitor

/-- The blocks that the entries of a run add to the statistics. -/
def Entry.addedIn (entries : List Entry) : List Header := entries.flatMap (·.added)

/-- The headers that could not be read in a run. -/
def Entry.failedIn (entries : List Entry) : List Header := entries.flatMap (·.failed)

namespace Monitor

section Main

variable {γ : Type} {g : Gateway γ} {recover : SignerRecovery} {set : ValidatorSet}

/-- A monitor that has only been given its validators shows the watermark, and nothing was
counted. -/
theorem shows_watch (g : Gateway γ) (config : MonitorConfig) (registry : Registry)
    (recover : SignerRecovery) (set : ValidatorSet) :
    ((make config registry recover).watch set).Shows g recover set ∧
      ((make config registry recover).watch set).meter = ⟨0, 0, 0⟩ := by
  have hmeter : ((make config registry recover).watch set).meter = ⟨0, 0, 0⟩ :=
    congrArg Metrics.meter (metrics_watch (make config registry recover) set)
  obtain ⟨journal, hwatch⟩ := exists_journal_watch (make config registry recover) set
  refine ⟨⟨?_, ?_⟩, hmeter⟩
  · rw [hwatch]
    exact ⟨rfl, rfl, rfl, fun entry mem => absurd mem List.not_mem_nil⟩
  · rw [hmeter, watermark, hwatch]
    rfl

/-- The metrics of a run are the sums of its entries. -/
structure Totals (m : Monitor) (entries : List Entry) : Prop where
  blocks_eq : (Entry.addedIn entries).length < 2 ^ 53 →
    m.meter.blocks = (Entry.addedIn entries).length
  failures_eq : (Entry.failedIn entries).length < 2 ^ 53 →
    m.meter.failures = (Entry.failedIn entries).length

/-- One more entry adds to the totals. -/
theorem Totals.concat {m m' : Monitor} {entries : List Entry} {e : Entry}
    (totals : Totals m entries) (moves : m.meter.Moves m'.meter e m'.watermark) :
    Totals m' (entries ++ [e]) where
  blocks_eq small := by
    have hlength : (Entry.addedIn (entries ++ [e])).length =
        (Entry.addedIn entries).length + e.added.length := by
      simp [Entry.addedIn]
    rw [hlength] at small ⊢
    have hbefore := totals.blocks_eq (by omega)
    rw [moves.blocks_eq (by omega), hbefore]
  failures_eq small := by
    have hlength : (Entry.failedIn (entries ++ [e])).length =
        (Entry.failedIn entries).length + e.failed.length := by
      simp [Entry.failedIn]
    rw [hlength] at small ⊢
    have hbefore := totals.failures_eq (by omega)
    rw [moves.failures_eq (by omega), hbefore]

/-- A run from a monitor without counts makes an entry for each request, and the metrics are the
sums of the entries. -/
theorem Shows.entered_afterRequests {start : Monitor} (shows : start.Shows g recover set)
    (zeroed : start.meter = ⟨0, 0, 0⟩) (numbered : g.Numbered)
    (heads : ∀ x head, (g (.header .latest) x).1 = .ok (some head) → head.number.toNat < 2 ^ 53)
    (requests : List MonitorRequest)
    (handed : ∀ r ∈ requests, ∀ h ∈ r.handed, h.number.toNat < 2 ^ 53) (x : γ) :
    ∃ entries, Entered g recover set start x requests entries ∧
      (start.afterRequests g requests x).1.Shows g recover set ∧
      Totals (start.afterRequests g requests x).1 entries := by
  -- the last request is made in the state that the earlier ones left
  induction requests using List.reverseRecOn with
  | nil =>
    refine ⟨[], .nil, shows, fun _ => ?_, fun _ => ?_⟩
    · exact congrArg Meter.blocks zeroed
    · exact congrArg Meter.failures zeroed
  | append_singleton requests r ih =>
    obtain ⟨entries, entered, shown, totals⟩ :=
      ih fun earlier mem => handed earlier (List.mem_append_left _ mem)
    have small := handed r (List.mem_append_right _ (List.mem_singleton_self r))
    have settles := (shown.serving_request numbered heads r small).runWith
      (start.afterRequests g requests x).2
    have showsAfter := settles.shows
    obtain ⟨-, e, books⟩ := settles
    refine ⟨entries ++ [e], .concat entered books, ?_, ?_⟩
    · rw [afterRequests_concat]
      exact showsAfter
    · rw [afterRequests_concat]
      exact totals.concat books.moves

/-- **The metrics mirror the statistics.** Against a node that serves blocks under their numbers,
every request of a run makes an entry: it says which headers were added to the statistics and which
could not be read. After any run the metric of the last block is the watermark, and the counters of
blocks and of failures, which are exact below `2 ^ 53`, are what the entries add up to. -/
theorem mirrors_afterRequests (g : Gateway γ) (numbered : g.Numbered)
    (heads : ∀ x head, (g (.header .latest) x).1 = .ok (some head) → head.number.toNat < 2 ^ 53)
    (config : MonitorConfig) (registry : Registry) (recover : SignerRecovery) (set : ValidatorSet)
    (requests : List MonitorRequest)
    (handed : ∀ r ∈ requests, ∀ h ∈ r.handed, h.number.toNat < 2 ^ 53) (x : γ) :
    let start := (make config registry recover).watch set
    let m := (start.afterRequests g requests x).1
    ∃ entries, Entered g recover set start x requests entries ∧
      m.journal.metrics.lastBlock = m.statistics.lastProcessed.toNat ∧
      ((Entry.addedIn entries).length < 2 ^ 53 →
        m.journal.metrics.blocks = (Entry.addedIn entries).length) ∧
      ((Entry.failedIn entries).length < 2 ^ 53 →
        m.journal.metrics.recoveryFailures = (Entry.failedIn entries).length) := by
  intro start m
  obtain ⟨shows, hmeter⟩ := shows_watch g config registry recover set
  obtain ⟨entries, entered, shown, totals⟩ :=
    shows.entered_afterRequests hmeter numbered heads requests handed x
  exact ⟨entries, entered, shown.mirrors, totals.blocks_eq, totals.failures_eq⟩

/-- Block five is counted, then the last two blocks up to block three; block three is handed in
again, and a header without seals is. -/
def unevenly : List MonitorRequest :=
  [.call (.update (sealedBlock 5)), .call (.restart 1), .call (.update (sealedBlock 3)),
   .call (.update { Header.blank with number := 9 })]

/-- The monitor after these requests. -/
def uneven : Monitor :=
  (((make {} ⟨[]⟩ spelledOut).watch (.ofMembers [.zero])).afterRequests threeBlocks unevenly ()).1

theorem meter_uneven : uneven.journal.metrics.lastBlock = 3 ∧
    uneven.journal.metrics.blocks = 3 ∧ uneven.journal.metrics.recoveryFailures = 1 := by
  decide +kernel

/-- Three blocks are counted in all, the last of them is block three, and one header is not read. -/
theorem mirrors_unevenly :
    threeBlocks.Numbered ∧ (∀ r ∈ unevenly, ∀ h ∈ r.handed, h.number.toNat < 2 ^ 53) ∧
      ∃ entries, Entered threeBlocks spelledOut (.ofMembers [.zero])
          ((make {} ⟨[]⟩ spelledOut).watch (.ofMembers [.zero])) () unevenly entries ∧
        uneven.statistics.lastProcessed = 3 ∧
        ((Entry.addedIn entries).length < 2 ^ 53 → (Entry.addedIn entries).length = 3) ∧
        ((Entry.failedIn entries).length < 2 ^ 53 → (Entry.failedIn entries).length = 1) := by
  have numbered : threeBlocks.Numbered := by
    intro n x h hserved
    cases hserved
    rfl
  have heads : ∀ x head, (threeBlocks (.header .latest) x).1 = .ok (some head) →
      head.number.toNat < 2 ^ 53 := by
    intro x head hserved
    cases hserved
    decide
  have handed : ∀ r ∈ unevenly, ∀ h ∈ r.handed, h.number.toNat < 2 ^ 53 := by
    simp [unevenly, MonitorRequest.handed, MonitorCall.submitted, sealedBlock]
  obtain ⟨entries, entered, last, blocks, failures⟩ := mirrors_afterRequests threeBlocks numbered
    heads {} ⟨[]⟩ spelledOut (.ofMembers [.zero]) unevenly handed ()
  rw [← uneven] at last blocks failures
  obtain ⟨hlast, hblocks, hfailures⟩ := meter_uneven
  refine ⟨numbered, handed, entries, entered, ?_, ?_, ?_⟩
  · rw [← UInt64.toNat_inj, ← last, hlast]
    rfl
  · exact fun small => (blocks small).symm.trans hblocks
  · exact fun small => (failures small).symm.trans hfailures

end Main

end Monitor

end IstanbulMonitor
