import IstanbulMonitor.Proofs.Monitor.Endorsements
import IstanbulMonitor.Proofs.Monitor.Metering
import Mathlib.Algebra.BigOperators.Group.Finset.Piecewise
import Mathlib.Algebra.Order.BigOperators.Group.Finset

/-!
# Room in the proposal counters

A block is counted for one proposer, and only if its number is above the watermark; so whenever the
proposals of all accounts add up to one more, the watermark has risen by one at least. A replay sets
the watermark to the head, whatever the numbers of the headers were that it was given, but it counts
no more blocks than there are numbers from one to the head. A reset keeps the watermark and takes
the counts away. So the proposals never add up to more than the watermark, and neither a count nor
the sum outgrows a word of 64 bits (`Statistics.Fits`, `Monitor.proposals_afterRequests`).
-/

set_option autoImplicit false

namespace IstanbulMonitor

open scoped BigOperators

/-! ## The sum of the counts -/

namespace Tally

variable (t : Tally) (a : Address)

theorem names_bump (entries : List (Address × Nat)) :
    ((bump a entries).map (·.1)).toFinset = insert a (entries.map (·.1)).toFinset := by
  induction entries with
  | nil => rfl
  | cons entry rest ih =>
    obtain ⟨b, n⟩ := entry
    unfold bump
    split
    · next hba =>
      subst hba
      simp
    · rw [List.map_cons, List.toFinset_cons, ih, List.map_cons, List.toFinset_cons,
        Finset.insert_comm]

theorem count_le_total : t.count a ≤ t.total := by
  by_cases hpos : 0 < t.count a
  · exact Finset.single_le_sum (fun _ _ => Nat.zero_le _)
      (List.mem_toFinset.mpr (mem_of_count_pos hpos))
  · omega

/-- One more for an account is one more in all. -/
theorem total_add : (t.add a).total = t.total + 1 := by
  have unlisted : a ∉ (t.entries.map (·.1)).toFinset → t.count a = 0 := by
    intro hnot
    by_contra hne
    exact hnot (List.mem_toFinset.mpr (mem_of_count_pos (Nat.pos_of_ne_zero hne)))
  calc (t.add a).total
    _ = ∑ b ∈ insert a (t.entries.map (·.1)).toFinset, (t.add a).count b := by
        rw [total, add, names_bump]
    _ = ∑ b ∈ insert a (t.entries.map (·.1)).toFinset, (t.count b + if a = b then 1 else 0) :=
        Finset.sum_congr rfl fun b _ => count_add t a b
    _ = (∑ b ∈ insert a (t.entries.map (·.1)).toFinset, t.count b) + 1 := by
        rw [Finset.sum_add_distrib, Finset.sum_ite_eq, if_pos (Finset.mem_insert_self _ _)]
    _ = t.total + 1 := by
        rw [Finset.sum_insert_of_eq_zero_if_notMem unlisted, total]

theorem total_zeros (accounts : List Address) : (zeros accounts).total = 0 :=
  Finset.sum_eq_zero fun a _ => count_zeros a accounts

end Tally

namespace Statistics

variable {s : Statistics}

/-- Statistics whose proposals are no more than the watermark, so that 64-bit words hold them. -/
structure Fits (s : Statistics) : Prop where
  total_le : s.counters.proposals.total ≤ s.lastProcessed.toNat
  total_lt : s.counters.proposals.total < UInt64.size
  count_lt : ∀ a, s.counters.proposals.count a < UInt64.size

theorem fits_iff : s.Fits ↔ s.counters.proposals.total ≤ s.lastProcessed.toNat := by
  refine ⟨Fits.total_le, fun hle => ?_⟩
  have hlt : s.counters.proposals.total < UInt64.size :=
    Nat.lt_of_le_of_lt hle s.lastProcessed.toNat_lt
  exact ⟨hle, hlt, fun a => Nat.lt_of_le_of_lt (Tally.count_le_total _ a) hlt⟩

/-- Without counts every watermark will do. -/
theorem fits_seeded (set : ValidatorSet) (watermark : UInt64) :
    Fits { seeded set with lastProcessed := watermark } := by
  rw [fits_iff]
  exact (Tally.total_zeros set.members).le.trans (Nat.zero_le _)

theorem total_apply_of_fresh {number : UInt64} (fresh : s.isFresh number = true)
    (proposer : Address) (endorsers : List Address) :
    (s.apply number proposer endorsers).counters.proposals.total =
      s.counters.proposals.total + 1 := by
  rw [apply, if_pos fresh]
  exact Tally.total_add _ proposer

theorem total_apply_le (number : UInt64) (proposer : Address) (endorsers : List Address) :
    (s.apply number proposer endorsers).counters.proposals.total ≤
      s.counters.proposals.total + 1 := by
  by_cases fresh : s.isFresh number = true
  · exact (total_apply_of_fresh fresh proposer endorsers).le
  · rw [apply, if_neg fresh]
    exact Nat.le_succ _

/-- A block raises the watermark by at least as much as the proposals. -/
theorem Fits.apply (fits : s.Fits) (number : UInt64) (proposer : Address)
    (endorsers : List Address) : (s.apply number proposer endorsers).Fits := by
  by_cases fresh : s.isFresh number = true
  · have hlt : s.lastProcessed.toNat < number.toNat :=
      UInt64.lt_iff_toNat_lt.mp (of_decide_eq_true fresh)
    have hle := fits.total_le
    have hlast : (s.apply number proposer endorsers).lastProcessed = number := by
      rw [Statistics.apply, if_pos fresh]
    rw [fits_iff, total_apply_of_fresh fresh, hlast]
    omega
  · rwa [Statistics.apply, if_neg fresh]

end Statistics

namespace Monitor

variable {γ : Type} {g : Gateway γ} {later : γ → γ → Prop} {s : Statistics}

/-! ## Replays -/

/-- A replay of `n` blocks adds `n` proposals at most to its own statistics, and these fit at every
point if they did before. -/
theorem ensures_replay_total (head : Header) (n : Nat) (number : UInt64) (fresh : Statistics) :
    Inquiry.Ensures g later (fun m _ => m.statistics = s) (fun m _ => m.statistics = s)
      (replay head n number fresh)
      (fun fresh' m _ => m.statistics = s ∧ (fresh.Fits → fresh'.Fits) ∧
        fresh'.counters.proposals.total ≤ fresh.counters.proposals.total + n)
      (fun _ m _ => m.statistics = s) := by
  induction n generalizing number fresh with
  | zero => exact .pure fun m x same => ⟨same, id, Nat.le_refl _⟩
  | succ n ih =>
    have counted : ∀ h, Inquiry.Ensures g later (fun m _ => m.statistics = s)
        (fun m _ => m.statistics = s)
        (do
          let seals ← signers h
          replay head n (number + 1) (fresh.apply h.number seals.proposer seals.endorsers))
        (fun fresh' m _ => m.statistics = s ∧ (fresh.Fits → fresh'.Fits) ∧
          fresh'.counters.proposals.total ≤ fresh.counters.proposals.total + (n + 1))
        (fun _ m _ => m.statistics = s) := by
      intro h
      refine .bind (spares_signers h) fun seals => (ih (number + 1) _).weaken (fun _ _ same => same)
        ?_ fun _ _ _ same => same
      rintro fresh' m x ⟨same, fits, hle⟩
      have hone := fresh.total_apply_le h.number seals.proposer seals.endorsers
      exact ⟨same, fun before => fits (before.apply _ _ _), by omega⟩
    rw [replay]
    split
    · exact counted head
    · exact .bind (spares_header _) counted

/-- A replay counts from block one at the earliest, so it commits no more blocks than the number of
the head; without a window all counts are taken away. -/
theorem ensures_restart_fits (fits : s.Fits) (window : UInt64) :
    Inquiry.Ensures g later (fun m _ => m.statistics = s) (fun m _ => m.statistics = s)
      (restart window) (fun _ m _ => m.statistics.Fits) (fun _ m _ => m.statistics.Fits) := by
  have kept : ∀ (e : MonitorError) (m : Monitor) (x : γ), m.statistics = s → m.statistics.Fits := by
    rintro e m x rfl
    exact fits
  unfold restart
  split
  · exact .change_pure fun m x same =>
      Statistics.fits_seeded m.validators m.statistics.lastProcessed
  · refine .bind (Q := fun _ m _ => m.statistics = s) (.current fun m x same => same)
      fun before => ?_
    refine .bind ((spares_header .latest).weaken (fun _ _ same => same) (fun _ _ _ same => same)
      kept) fun head => ?_
    refine .bind ((ensures_replay_total head _ _ _).weaken (fun _ _ same => same)
      (fun _ _ _ done => done) kept) fun fresh => .change_pure ?_
    rintro m x ⟨-, -, hle⟩
    have hzero : (Statistics.seeded before.validators).counters.proposals.total = 0 :=
      Tally.total_zeros before.validators.members
    have hfirst := toNat_firstReplayed head.number window
    rw [statistics_commit, Statistics.fits_iff]
    show fresh.counters.proposals.total ≤ head.number.toNat
    omega

/-! ## Requests -/

theorem fits_count {m : Monitor} (fits : m.statistics.Fits) (h : Header) :
    (m.count h).2.statistics.Fits := by
  obtain ⟨e, journal, -, hcount⟩ | ⟨seals, journal, -, hcount⟩ := count_cases m h
  · rw [hcount]
    exact fits
  · rw [hcount]
    exact fits.apply h.number seals.proposer seals.endorsers

/-- Whatever is requested, the statistics fit in the end if they did before. -/
theorem ensures_inquiry_fits (fits : s.Fits) (request : MonitorRequest) :
    Inquiry.Ensures g later (fun m _ => m.statistics = s) (fun m _ => m.statistics = s)
      request.inquiry (fun _ m _ => m.statistics.Fits) (fun _ m _ => m.statistics.Fits) := by
  have reads : request.counts = false → Inquiry.Ensures g later (fun m _ => m.statistics = s)
      (fun m _ => m.statistics = s) request.inquiry (fun _ m _ => m.statistics.Fits)
      (fun _ m _ => m.statistics.Fits) := by
    intro hcounts
    refine (spares_inquiry request hcounts).weaken (fun _ _ same => same) ?_ ?_
    · rintro a m x rfl
      exact fits
    · rintro e m x rfl
      exact fits
  have submits : ∀ {α : Type} {f : Monitor → Except MonitorError α × Monitor} (h : Header),
      (∀ m, (f m).2 = (m.count h).2) →
      Inquiry.Ensures g later (fun m _ => m.statistics = s) (fun m _ => m.statistics = s)
        (Inquiry.ofOperation f >>= fun _ => Pure.pure ()) (fun _ m _ => m.statistics.Fits)
        (fun _ m _ => m.statistics.Fits) := by
    intro α f h counts
    have counted : ∀ m, m.statistics = s → (f m).2.statistics.Fits := by
      rintro m rfl
      rw [counts]
      exact fits_count fits h
    exact .bind (.ofOperation (fun m _ _ same _ => counted m same)
      fun m _ _ same _ => counted m same) fun _ => .pure fun _ _ after => after
  cases request with
  | nextProposer a => exact reads rfl
  | call c =>
    cases c with
    | update h => exact submits h fun m => rfl
    | report h previous => exact submits h fun m => report_snd m h previous
    | restart window =>
      exact .bind (ensures_restart_fits fits window) fun _ => .pure fun _ _ after => after
    | _ => exact reads rfl

/-- The statistics fit whenever a request waits for an answer, and in the end. -/
theorem ensures_request_fits {m : Monitor} (fits : m.statistics.Fits) (request : MonitorRequest)
    (x : γ) :
    (request.inquiry m).Ensures g later (fun waiting _ => waiting.statistics.Fits)
      (fun _ after _ => after.statistics.Fits) x := by
  refine ((ensures_inquiry_fits fits request m x rfl).weaken_waiting ?_).weaken ?_
  · rintro waiting x same
    rw [same]
    exact fits
  · rintro result after x hafter
    cases result <;> exact hafter

theorem fits_afterRequests (g : Gateway γ) {start : Monitor} (fits : start.statistics.Fits)
    (requests : List MonitorRequest) (x : γ) :
    (start.afterRequests g requests x).1.statistics.Fits := by
  induction requests using List.reverseRecOn with
  | nil => exact fits
  | append_singleton requests request ih =>
    rw [afterRequests_concat]
    exact (ensures_request_fits ih request _).run

/-! ## The main theorem -/

/-- **The proposals never outgrow the watermark.** Whatever was requested of a monitor, whatever the
node answered and whatever the seals recover to, the proposals of all accounts add up to the
watermark at most, and 64-bit words hold each count and the sum. The same holds whenever one more
request waits for an answer, however the node changes in the meantime, and when the request has
ended. It also holds of the statistics of a replay, after any number of blocks from any number on,
and whatever the head is. -/
theorem proposals_afterRequests (g : Gateway γ) (config : MonitorConfig) (registry : Registry)
    (recover : SignerRecovery) (set : ValidatorSet) (requests : List MonitorRequest) (x : γ) :
    let m := (((make config registry recover).watch set).afterRequests g requests x).1
    m.statistics.Fits ∧
      (∀ (request : MonitorRequest) (later : γ → γ → Prop) (y : γ),
        (request.inquiry m).Ensures g later (fun waiting _ => waiting.statistics.Fits)
          (fun _ after _ => after.statistics.Fits) y) ∧
      ∀ (head : Header) (n : Nat) (number : UInt64) (later : γ → γ → Prop) (y : γ),
        (replay head n number (.seeded m.validators) m).Ensures g later
          (fun waiting _ => waiting.statistics.Fits)
          (fun result _ _ => ∀ fresh, result = .ok fresh →
            fresh.Fits ∧ fresh.counters.proposals.total ≤ n) y := by
  intro m
  have fits : m.statistics.Fits := by
    obtain ⟨journal, hwatch⟩ := exists_journal_watch (make config registry recover) set
    apply fits_afterRequests
    rw [hwatch]
    exact Statistics.fits_seeded set 0
  refine ⟨fits, fun request later y => ensures_request_fits fits request y, ?_⟩
  intro head n number later y
  have replayed := @ensures_replay_total γ g later m.statistics head n number
    (.seeded m.validators) m y rfl
  refine (replayed.weaken_waiting ?_).weaken ?_
  · rintro waiting z same
    rw [same]
    exact fits
  · rintro result after z done fresh rfl
    obtain ⟨-, hfits, hle⟩ := done
    have hzero : (Statistics.seeded m.validators).counters.proposals.total = 0 :=
      Tally.total_zeros m.validators.members
    exact ⟨hfits (Statistics.fits_seeded m.validators 0), by omega⟩

end Monitor

end IstanbulMonitor
