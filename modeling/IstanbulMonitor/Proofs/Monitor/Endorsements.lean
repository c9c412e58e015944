import IstanbulMonitor.Proofs.Monitor.Participation
import IstanbulMonitor.Proofs.Monitor.Chain
import Mathlib.Algebra.BigOperators.Group.Finset.Basic

/-!
# Endorsements and the number of blocks

A block is counted once for its proposer, and once for each committed seal. So the proposals of all
accounts add up to the number of blocks (`Statistics.Accounts.total_proposals`), and the
endorsements of an account are the blocks that it endorsed, and one more for every further seal of
such a block that recovers to it as well (`Statistics.Accounts.endorsements_eq`).
-/

set_option autoImplicit false

namespace IstanbulMonitor

open scoped BigOperators

namespace Tally

/-- The counts of all listed accounts, added up. An account that is listed twice is added once. -/
def total (t : Tally) : Nat := ∑ a ∈ (t.entries.map (·.1)).toFinset, t.count a

/-- An account with a count is listed. -/
theorem mem_of_count_pos {t : Tally} {a : Address} (h : 0 < t.count a) :
    a ∈ t.entries.map (·.1) := by
  unfold count at h
  cases hfind : t.entries.find? (·.1 = a) with
  | none => simp [hfind] at h
  | some entry =>
    have hname : entry.1 = a := by simpa using List.find?_some hfind
    exact hname ▸ List.mem_map_of_mem (List.mem_of_find?_eq_some hfind)

end Tally

/-- A node that serves the blocks of a chain answers for a number with a header of that number. -/
theorem Gateway.Honest.serves_numbered {γ : Type} {g : Gateway γ} {block : UInt64 → Header}
    (honest : g.Honest block) : g.Numbered := by
  intro n x h hserved
  rw [honest.byNumber n x h hserved]
  exact honest.numbered n

namespace Header

/-- How many of the committed seals of a header repeat an endorsement of an account: those that
recover to it, after the first. -/
def repeats (recover : SignerRecovery) (a : Address) (h : Header) : Nat :=
  (h.endorsers recover).count a - 1

/-- The committed seals of an account are its endorsement and the repetitions. -/
theorem count_endorsers (recover : SignerRecovery) (a : Address) (h : Header) :
    (h.endorsers recover).count a =
      (if a ∈ h.endorsers recover then 1 else 0) + h.repeats recover a := by
  by_cases hmem : a ∈ h.endorsers recover
  · have hpos := List.count_pos_iff.mpr hmem
    rw [if_pos hmem, repeats]
    omega
  · rw [if_neg hmem, repeats, List.count_eq_zero_of_not_mem hmem]

end Header

namespace Statistics

variable {s : Statistics} {recover : SignerRecovery} {set : ValidatorSet} {blocks : List Header}

/-- The proposals counted are as many as the blocks. -/
theorem Accounts.total_proposals (h : s.Accounts recover set blocks) :
    s.counters.proposals.total = blocks.length := by
  let proposers := blocks.filterMap (·.proposer? recover)
  -- every block has a proposer, as its signers are known
  have hlength : proposers.length = blocks.length := by
    refine List.filterMap_length_eq_length.mpr fun b hb => ?_
    obtain ⟨seals, hseals⟩ := h.signed b hb
    simp [Header.proposer?, hseals, Except.toOption]
  have hcount : ∀ a, s.counters.proposals.count a = proposers.count a := by
    intro a
    rw [h.proposals, List.count_filterMap]
    exact List.countP_congr fun b _ => by simp
  have hlisted : ∀ a ∈ (proposers : Multiset Address),
      a ∈ (s.counters.proposals.entries.map (·.1)).toFinset := by
    intro a ha
    apply List.mem_toFinset.mpr
    apply Tally.mem_of_count_pos
    rw [hcount]
    exact List.count_pos_iff.mpr ha
  calc s.counters.proposals.total
    _ = ∑ a ∈ (s.counters.proposals.entries.map (·.1)).toFinset,
          (proposers : Multiset Address).count a :=
        Finset.sum_congr rfl fun a _ => by rw [hcount, Multiset.coe_count]
    _ = (proposers : Multiset Address).card := Multiset.sum_count_eq_card hlisted
    _ = blocks.length := hlength

/-- The endorsements of an account are the blocks that it endorsed, with the repetitions. -/
theorem Accounts.endorsements_eq (h : s.Accounts recover set blocks) (a : Address) :
    s.counters.endorsements.count a =
      (blocks.countP fun b => a ∈ b.endorsers recover) +
        (blocks.map (·.repeats recover a)).sum := by
  have key : ∀ blocks : List Header,
      (blocks.map fun b => (b.endorsers recover).count a).sum =
        (blocks.countP fun b => a ∈ b.endorsers recover) +
          (blocks.map (·.repeats recover a)).sum := by
    intro blocks
    induction blocks with
    | nil => rfl
    | cons b blocks ih =>
      rw [List.map_cons, List.sum_cons, ih, List.countP_cons, List.map_cons, List.sum_cons,
        b.count_endorsers]
      simp only [decide_eq_true_eq]
      omega
  rw [h.endorsements, key]

/-- An account with one committed seal at most in every block has no more endorsements than there
are blocks. -/
theorem Accounts.endorsements_le (h : s.Accounts recover set blocks) {a : Address}
    (single : ∀ b ∈ blocks, (b.endorsers recover).count a ≤ 1) :
    s.counters.endorsements.count a ≤ s.counters.proposals.total := by
  have hrepeats : (blocks.map (·.repeats recover a)).sum = 0 := by
    refine List.sum_eq_zero fun n hn => ?_
    obtain ⟨b, hb, rfl⟩ := List.mem_map.mp hn
    exact Nat.sub_eq_zero_of_le (single b hb)
  rw [h.endorsements_eq, h.total_proposals, hrepeats, Nat.add_zero]
  exact List.countP_le_length

end Statistics

namespace Monitor

variable {γ : Type}

/-- Whatever calls a monitor was given, its proposals add up to the number of the blocks counted,
and an account has as many endorsements as there are blocks that it endorsed, and one more for every
committed seal by which such a block repeats it. -/
theorem endorsements_afterCalls (g : Gateway γ) (numbered : g.Numbered) (config : MonitorConfig)
    (registry : Registry) (recover : SignerRecovery) (set : ValidatorSet)
    (calls : List MonitorCall) (x : γ) :
    let s := (((make config registry recover).watch set).afterCalls g calls x).1.statistics
    ∃ blocks, s.Accounts recover set blocks ∧
      (∀ b ∈ blocks, b ∈ calls.flatMap MonitorCall.submitted ∨ g.Serves b) ∧
      s.counters.proposals.total = blocks.length ∧
      ∀ a,
        let repeated := (blocks.map (·.repeats recover a)).sum
        s.counters.endorsements.count a =
            (blocks.countP fun b => a ∈ b.endorsers recover) + repeated ∧
          s.counters.endorsements.count a ≤ s.counters.proposals.total + repeated ∧
          ((∀ b ∈ blocks, (b.endorsers recover).count a ≤ 1) →
            s.counters.endorsements.count a ≤ s.counters.proposals.total) := by
  intro s
  have submitted : ∀ call ∈ calls, ∀ h ∈ call.submitted,
      h ∈ calls.flatMap MonitorCall.submitted ∨ g.Serves h :=
    fun call hcall h hh => Or.inl (List.mem_flatMap.mpr ⟨call, hcall, hh⟩)
  obtain ⟨_, blocks, rests, accounts, known⟩ := accounted_afterCalls numbered
    (fun h hserved => Or.inr hserved) calls submitted (accounted_watch config registry x)
  rw [← rests.statistics_eq] at accounts
  refine ⟨blocks, accounts, known, accounts.total_proposals, fun a => ?_⟩
  refine ⟨accounts.endorsements_eq a, ?_, accounts.endorsements_le⟩
  rw [accounts.endorsements_eq, accounts.total_proposals]
  exact Nat.add_le_add_right List.countP_le_length _

/-- The node with three blocks serves the blocks of one chain. -/
theorem honest_threeBlocks : threeBlocks.Honest sealedBlock where
  numbered _ := rfl
  byNumber n x h hserved := by
    cases hserved
    rfl
  latest x h hserved := by
    cases hserved
    rfl

/-- A block with two committed seals by different accounts. -/
def coSigned (number : UInt64) : Header :=
  { Header.blank with
    number
    extraData := Extra.encode ⟨.zero, [], [1], [[2], [3]]⟩ }

/-- Two blocks are counted. Account three signed one of them, and account two has a seal in the one
and two in the other. -/
theorem endorsements_coSigned :
    threeBlocks.Numbered ∧
      let s := (((make {} ⟨[]⟩ spelledOut).watch (.ofMembers [.zero])).afterCalls threeBlocks
        [.update (sealedBlock 5), .update (coSigned 6)] ()).1.statistics
      s.counters.endorsements.count (.ofNat 20 2) = 3 ∧
        s.counters.endorsements.count (.ofNat 20 3) = 1 ∧
        ∃ blocks : List Header, s.counters.proposals.total = blocks.length ∧
          (∀ b ∈ blocks, (b.endorsers spelledOut).count (.ofNat 20 3) ≤ 1) ∧
          s.counters.endorsements.count (.ofNat 20 3) ≤ s.counters.proposals.total := by
  have numbered : threeBlocks.Numbered := honest_threeBlocks.serves_numbered
  obtain ⟨blocks, -, known, total, bounds⟩ := endorsements_afterCalls threeBlocks numbered {} ⟨[]⟩
    spelledOut (.ofMembers [.zero]) [.update (sealedBlock 5), .update (coSigned 6)] ()
  have sealedTwice : ∀ n, (sealedBlock n).endorsers spelledOut = [.ofNat 20 2, .ofNat 20 2] :=
    fun n => rfl
  have single : ∀ b ∈ blocks, (b.endorsers spelledOut).count (.ofNat 20 3) ≤ 1 := by
    intro b hb
    rcases known b hb with hsubmitted | ⟨block, x, hserved⟩
    · simp only [List.flatMap_cons, MonitorCall.submitted, List.flatMap_nil, List.append_nil,
        List.singleton_append, List.mem_cons, List.not_mem_nil, or_false] at hsubmitted
      rcases hsubmitted with rfl | rfl <;> decide
    · cases block with
      | latest =>
        cases hserved
        rw [sealedTwice]
        decide
      | number n =>
        cases hserved
        rw [sealedTwice]
        decide
  exact ⟨numbered, by decide, by decide, blocks, total, single, (bounds _).2.2 single⟩

/-- A block with two committed seals that recover to one account counts twice for it. -/
theorem endorsements_sealedTwice :
    let s := (((make {} ⟨[]⟩ spelledOut).watch (.ofMembers [.zero])).afterCalls threeBlocks
      [.update (sealedBlock 3)] ()).1.statistics
    s.counters.endorsements.count (.ofNat 20 2) = 2 ∧ s.counters.proposals.total = 1 ∧
      ¬ ∀ (g : Gateway Unit) (block : UInt64 → Header) (config : MonitorConfig)
          (registry : Registry) (recover : SignerRecovery) (set : ValidatorSet)
          (calls : List MonitorCall) (a : Address), g.Honest block →
        let s := (((make config registry recover).watch set).afterCalls g calls ()).1.statistics
        s.counters.endorsements.count a ≤ s.counters.proposals.total := by
  intro s
  have endorsed : s.counters.endorsements.count (.ofNat 20 2) = 2 := by decide
  have proposed : s.counters.proposals.total = 1 := by decide
  refine ⟨endorsed, proposed, fun bounded => ?_⟩
  have hle := bounded threeBlocks sealedBlock {} ⟨[]⟩ spelledOut (.ofMembers [.zero])
    [.update (sealedBlock 3)] (.ofNat 20 2) honest_threeBlocks
  change s.counters.endorsements.count _ ≤ s.counters.proposals.total at hle
  rw [endorsed, proposed] at hle
  exact absurd hle (by decide)

end Monitor

end IstanbulMonitor
