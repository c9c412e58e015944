import IstanbulMonitor.Proofs.Monitor.Calls
import Mathlib.Algebra.GroupWithZero.Nat

/-!
# Every block is counted once

`Statistics.Accounts` says that the counters are those of a list of blocks with different numbers,
none of them zero or above the watermark. Whatever calls a monitor is given and however they end,
its statistics account for such a list (`Monitor.accounts_afterCalls`), so no number is ever counted
twice. A replay works on statistics of its own, which account for the blocks replayed so far; they
take the place of the old ones only when it has come to the head.
-/

set_option autoImplicit false

namespace IstanbulMonitor

namespace Tally

variable (t : Tally) (a b : Address)

theorem count_bump (entries : List (Address × Nat)) :
    count ⟨bump a entries⟩ b = count ⟨entries⟩ b + if a = b then 1 else 0 := by
  induction entries with
  | nil => by_cases hab : a = b <;> simp [bump, count, hab]
  | cons entry rest ih =>
    obtain ⟨c, n⟩ := entry
    unfold bump
    by_cases hca : c = a
    · -- the entry that is bumped is also the first one that a count finds
      subst hca
      rw [if_pos rfl]
      by_cases hcb : c = b <;> simp [count, hcb]
    · rw [if_neg hca]
      by_cases hcb : c = b
      · have hab : a ≠ b := fun hab => hca (hcb.trans hab.symm)
        simp [count, hcb, hab]
      · simpa [count, hcb] using ih

theorem count_add : (t.add a).count b = t.count b + if a = b then 1 else 0 :=
  count_bump a b t.entries

theorem count_foldl_add (accounts : List Address) :
    (accounts.foldl add t).count a = t.count a + accounts.count a := by
  induction accounts generalizing t with
  | nil => rfl
  | cons c accounts ih =>
    rw [List.foldl_cons, ih, count_add, List.count_cons]
    by_cases hca : c = a
    · simp only [hca, if_true, beq_self_eq_true]
      omega
    · simp [hca]

theorem count_zeros (accounts : List Address) : (zeros accounts).count a = 0 := by
  unfold count zeros
  cases hfind : (accounts.map (·, 0)).find? (·.1 = a) with
  | none => rfl
  | some entry =>
    obtain ⟨c, -, rfl⟩ := List.mem_map.mp (List.mem_of_find?_eq_some hfind)
    rfl

theorem lists_iff : t.lists a = true ↔ a ∈ t.entries.map (·.1) := by
  simp [lists, List.any_eq_true, List.mem_map]

theorem lists_add (h : t.lists b = true) : (t.add a).lists b = true := by
  rw [lists_iff] at h ⊢
  have key : ∀ entries : List (Address × Nat), b ∈ entries.map (·.1) →
      b ∈ (bump a entries).map (·.1) := by
    intro entries
    induction entries with
    | nil => exact fun h => absurd h List.not_mem_nil
    | cons entry rest ih =>
      intro h
      unfold bump
      split
      · exact h
      · rcases List.mem_cons.mp h with h | h
        · exact List.mem_cons.mpr (Or.inl h)
        · exact List.mem_cons.mpr (Or.inr (ih h))
  exact key t.entries h

theorem lists_foldl_add (accounts : List Address) (h : t.lists b = true) :
    (accounts.foldl add t).lists b = true := by
  induction accounts generalizing t with
  | nil => exact h
  | cons c accounts ih => exact ih (t.add c) (t.lists_add c b h)

theorem lists_zeros {accounts : List Address} (h : a ∈ accounts) :
    (zeros accounts).lists a = true := by
  rw [lists_iff]
  exact List.mem_map.mpr ⟨(a, 0), List.mem_map.mpr ⟨a, h, rfl⟩, rfl⟩

end Tally

namespace Header

/-- The proposer that the seals of a header name. -/
def proposer? (recover : SignerRecovery) (h : Header) : Option Address :=
  (Seals.ofHeader recover h).toOption.map (·.proposer)

/-- The endorsers that the seals of a header name; none if a seal cannot be read. -/
def endorsers (recover : SignerRecovery) (h : Header) : List Address :=
  (Seals.ofHeader recover h).toOption.elim [] (·.endorsers)

end Header

namespace Statistics

/-- The statistics are those of a list of blocks. -/
structure Accounts (s : Statistics) (recover : SignerRecovery) (set : ValidatorSet)
    (blocks : List Header) : Prop where
  /-- No two of the blocks have the same number. -/
  distinct : (blocks.map (·.number)).Nodup
  /-- Every number is at least one and not above the watermark. -/
  range : ∀ h ∈ blocks, 1 ≤ h.number ∧ h.number ≤ s.lastProcessed
  /-- The signers of every block are known. -/
  signed : ∀ h ∈ blocks, ∃ seals, Seals.ofHeader recover h = .ok seals
  /-- Proposals are counted by block. -/
  proposals : ∀ a, s.counters.proposals.count a =
    blocks.countP fun h => h.proposer? recover = some a
  /-- Endorsements are counted by committed seal. -/
  endorsements : ∀ a, s.counters.endorsements.count a =
    (blocks.map fun h => (h.endorsers recover).count a).sum
  /-- Every validator has an entry in both tables. -/
  listed : ∀ a ∈ set.members,
    s.counters.proposals.lists a = true ∧ s.counters.endorsements.lists a = true

variable {s : Statistics} {recover : SignerRecovery} {set : ValidatorSet} {blocks : List Header}

/-- At the beginning no block is counted, whatever the watermark is. -/
theorem accounts_seeded (recover : SignerRecovery) (set : ValidatorSet) (watermark : UInt64) :
    Accounts { seeded set with lastProcessed := watermark } recover set [] where
  distinct := List.nodup_nil
  range _ hh := absurd hh List.not_mem_nil
  signed _ hh := absurd hh List.not_mem_nil
  proposals a := Tally.count_zeros a set.members
  endorsements a := Tally.count_zeros a set.members
  listed a ha := ⟨Tally.lists_zeros a ha, Tally.lists_zeros a ha⟩

/-- The watermark may be raised without counting anything. -/
theorem Accounts.raise (h : s.Accounts recover set blocks) {watermark : UInt64}
    (hle : s.lastProcessed ≤ watermark) :
    Accounts { s with lastProcessed := watermark } recover set blocks :=
  { h with range := fun b hb => ⟨(h.range b hb).1, UInt64.le_trans (h.range b hb).2 hle⟩ }

/-- A block above the watermark is counted, and its number is a new one. -/
theorem Accounts.apply_fresh (h : s.Accounts recover set blocks) {header : Header} {seals : Seals}
    (fresh : s.isFresh header.number = true) (hseals : Seals.ofHeader recover header = .ok seals) :
    (s.apply header.number seals.proposer seals.endorsers).Accounts recover set
      (header :: blocks) := by
  have hlt : s.lastProcessed < header.number := of_decide_eq_true fresh
  have hproposer : header.proposer? recover = some seals.proposer := by
    simp [Header.proposer?, hseals, Except.toOption]
  have hendorsers : header.endorsers recover = seals.endorsers := by
    simp [Header.endorsers, hseals, Except.toOption]
  have happly : s.apply header.number seals.proposer seals.endorsers =
      ⟨s.counters.record seals.proposer seals.endorsers, header.number⟩ := if_pos fresh
  rw [happly]
  constructor
  -- the number is above the watermark, and all the others are not
  · refine List.nodup_cons.mpr ⟨fun hmem => ?_, h.distinct⟩
    obtain ⟨b, hb, hnumber⟩ := List.mem_map.mp hmem
    have hle := (h.range b hb).2
    rw [hnumber] at hle
    exact UInt64.lt_irrefl _ (UInt64.lt_of_lt_of_le hlt hle)
  · intro b hb
    rcases List.mem_cons.mp hb with rfl | hb
    · refine ⟨?_, UInt64.le_refl _⟩
      rw [UInt64.le_iff_toNat_le]
      have := UInt64.lt_iff_toNat_lt.mp hlt
      show 1 ≤ _
      omega
    · exact ⟨(h.range b hb).1, UInt64.le_of_lt (UInt64.lt_of_le_of_lt (h.range b hb).2 hlt)⟩
  · intro b hb
    rcases List.mem_cons.mp hb with rfl | hb
    · exact ⟨seals, hseals⟩
    · exact h.signed b hb
  · intro a
    show (s.counters.proposals.add seals.proposer).count a = _
    rw [Tally.count_add, h.proposals, List.countP_cons, hproposer]
    simp
  · intro a
    show (seals.endorsers.foldl Tally.add s.counters.endorsements).count a = _
    rw [Tally.count_foldl_add, h.endorsements, List.map_cons, List.sum_cons, hendorsers]
    exact Nat.add_comm _ _
  · intro a ha
    obtain ⟨hproposals, hendorsements⟩ := h.listed a ha
    exact ⟨Tally.lists_add _ _ _ hproposals, Tally.lists_foldl_add _ _ _ hendorsements⟩

/-- A block at or below the watermark changes nothing. -/
theorem apply_of_le {number : UInt64} (h : number ≤ s.lastProcessed) (proposer : Address)
    (endorsers : List Address) : s.apply number proposer endorsers = s := by
  refine if_neg fun fresh => ?_
  exact UInt64.lt_irrefl _ (UInt64.lt_of_lt_of_le (of_decide_eq_true fresh) h)

/-- A block whose signers are known is counted or changes nothing. -/
theorem Accounts.apply (h : s.Accounts recover set blocks) {header : Header} {seals : Seals}
    (hseals : Seals.ofHeader recover header = .ok seals) :
    ∃ counted, (s.apply header.number seals.proposer seals.endorsers).Accounts recover set counted ∧
      ∀ b ∈ counted, b = header ∨ b ∈ blocks := by
  by_cases hle : header.number ≤ s.lastProcessed
  · rw [apply_of_le hle]
    exact ⟨blocks, h, fun b hb => Or.inr hb⟩
  · have fresh : s.isFresh header.number = true := decide_eq_true (UInt64.not_le.mp hle)
    exact ⟨header :: blocks, h.apply_fresh fresh hseals, fun b hb => List.mem_cons.mp hb⟩

theorem lastProcessed_apply_le {number bound : UInt64} (hs : s.lastProcessed ≤ bound)
    (hnumber : number ≤ bound) (proposer : Address) (endorsers : List Address) :
    (s.apply number proposer endorsers).lastProcessed ≤ bound := by
  unfold Statistics.apply
  split
  · exact hnumber
  · exact hs

end Statistics

namespace Monitor

variable {γ : Type} {g : Gateway γ} {recover : SignerRecovery} {set : ValidatorSet}
  {statistics : Statistics} {known : Header → Prop}

theorem exists_journal_watch (m : Monitor) (set : ValidatorSet) :
    ∃ journal, m.watch set =
      { m with validators := set, statistics := Statistics.seeded set, journal } := by
  have key : ∀ (members : List Address) (m' : Monitor), ∃ journal,
      members.foldl
        (fun m a => if (m.registry.get? a).isNone then m.warn .unknownOperator else m) m' =
        { m' with journal } := by
    intro members
    induction members with
    | nil => exact fun m' => ⟨m'.journal, rfl⟩
    | cons a members ih =>
      intro m'
      rw [List.foldl_cons]
      obtain ⟨journal, hrest⟩ := ih (if (m'.registry.get? a).isNone then m'.warn .unknownOperator
        else m')
      rw [hrest]
      split <;> exact ⟨journal, rfl⟩
  exact key set.members _

/-- A monitor whose statistics account for a list of known blocks. -/
def Accounted (g : Gateway γ) (recover : SignerRecovery) (set : ValidatorSet)
    (known : Header → Prop) (m : Monitor) (_ : γ) : Prop :=
  ∃ s blocks, m.Rests g recover set s ∧ s.Accounts recover set blocks ∧ ∀ h ∈ blocks, known h

/-- What leaves the statistics of any monitor at rest alone keeps it accounted. -/
theorem meets_accounted_of_rests {ε α : Type} {i : Inquiry ε α}
    (h : ∀ s, Inquiry.Meets g (fun m _ => m.Rests g recover set s) i
      (fun _ m _ => m.Rests g recover set s) (fun m _ => m.Rests g recover set s)) :
    Inquiry.Meets g (Accounted g recover set known) i (fun _ => Accounted g recover set known)
      (Accounted g recover set known) := by
  refine Inquiry.Meets.iff_after.mpr ?_
  rintro m x ⟨s, blocks, rests, accounts, hknown⟩
  exact ⟨s, blocks, Inquiry.Meets.iff_after.mp (h s) m x rests, accounts, hknown⟩

/-- Counting a known header keeps a monitor accounted. -/
theorem accounted_count {m : Monitor} {x : γ} (hm : Accounted g recover set known m x)
    {h : Header} (hknown : known h) : Accounted g recover set known (m.count h).2 x := by
  obtain ⟨s, blocks, rests, accounts, hblocks⟩ := hm
  rcases m.count_cases h with ⟨e, journal, -, hcount⟩ | ⟨seals, journal, hseals, hcount⟩
  · rw [hcount]
    exact ⟨s, blocks, rests.of_journal journal, accounts, hblocks⟩
  · rw [hcount]
    rw [rests.recover_eq] at hseals
    obtain ⟨counted, haccounts, hcounted⟩ := accounts.apply hseals
    rw [← rests.statistics_eq] at haccounts
    refine ⟨_, counted, ⟨rests.recover_eq, rests.validators_eq, rfl, rests.cached⟩, haccounts, ?_⟩
    intro b hb
    rcases hcounted b hb with rfl | hb
    · exact hknown
    · exact hblocks b hb

/-! ## Replaying the last blocks -/

/-- What holds of the statistics while the last blocks up to a head are counted anew. -/
def Replayed (g : Gateway γ) (recover : SignerRecovery) (set : ValidatorSet) (head : UInt64)
    (fresh : Statistics) : Prop :=
  fresh.lastProcessed ≤ head ∧
    ∃ blocks, fresh.Accounts recover set blocks ∧ ∀ h ∈ blocks, g.Serves h

theorem replayed_apply {head : UInt64} {fresh : Statistics}
    (hfresh : Replayed g recover set head fresh) {h : Header} (served : g.Serves h)
    (hle : h.number ≤ head) {seals : Seals} (hseals : Seals.ofHeader recover h = .ok seals) :
    Replayed g recover set head (fresh.apply h.number seals.proposer seals.endorsers) := by
  obtain ⟨hlast, blocks, accounts, hblocks⟩ := hfresh
  obtain ⟨counted, haccounts, hcounted⟩ := accounts.apply hseals
  refine ⟨Statistics.lastProcessed_apply_le hlast hle _ _, counted, haccounts, ?_⟩
  intro b hb
  rcases hcounted b hb with rfl | hb
  · exact served
  · exact hblocks b hb

/-- The replay goes through the numbers up to the head, each with a header of that number. -/
theorem meets_replay (numbered : g.Numbered) {head : Header} (served : g.Serves head) :
    ∀ (n : Nat) (number : UInt64) (fresh : Statistics),
      (n ≠ 0 → number.toNat + n = head.number.toNat + 1) →
      Replayed g recover set head.number fresh →
      Inquiry.Meets g (fun m _ => m.Rests g recover set statistics) (replay head n number fresh)
        (fun fresh' m _ => m.Rests g recover set statistics ∧
          Replayed g recover set head.number fresh')
        (fun m _ => m.Rests g recover set statistics) := by
  intro n
  induction n with
  | zero => exact fun number fresh _ hfresh => .pure fun m x rests => ⟨rests, hfresh⟩
  | succ n ih =>
    intro number fresh hcount hfresh
    -- the numbers that are left end with the head, so adding one does not wrap around
    have hsum := hcount n.succ_ne_zero
    have hle : number ≤ head.number := by
      rw [UInt64.le_iff_toNat_le]
      omega
    have rest : ∀ h : Header, g.Serves h → h.number = number →
        Inquiry.Meets g (fun m _ => m.Rests g recover set statistics)
          (do
            let seals ← signers h
            replay head n (number + 1) (fresh.apply h.number seals.proposer seals.endorsers))
          (fun fresh' m _ => m.Rests g recover set statistics ∧
            Replayed g recover set head.number fresh')
          (fun m _ => m.Rests g recover set statistics) := by
      intro h hserved hnumber
      refine .bind (meets_signers h) fun seals => ?_
      rintro m x ⟨rests, hseals⟩
      refine ih (number + 1) _ (fun hn => ?_)
        (replayed_apply hfresh hserved (hnumber ▸ hle) hseals) m x rests
      have := head.number.toNat_lt
      rw [toNat_next (by omega)]
      omega
    rw [replay]
    by_cases hhead : number = head.number
    · rw [if_pos hhead]
      exact rest head served hhead.symm
    · rw [if_neg hhead]
      refine .bind (meets_header numbered (.number number)) fun h => ?_
      rintro m x ⟨rests, hserved, hnumber⟩
      exact rest h hserved (hnumber number rfl) m x rests

/-- A restart keeps a monitor accounted: it commits a new list of blocks or changes nothing. -/
theorem meets_restart (numbered : g.Numbered) (served : ∀ h, g.Serves h → known h)
    (window : UInt64) :
    Inquiry.Meets g (Accounted g recover set known) (restart window)
      (fun _ => Accounted g recover set known) (Accounted g recover set known) := by
  rintro m x ⟨s, blocks, rests, accounts, hblocks⟩
  -- as long as nothing is committed, the old blocks are the ones that are counted
  have old : ∀ (m : Monitor) (x : γ), m.Rests g recover set s →
      Accounted g recover set known m x :=
    fun m x rests => ⟨s, blocks, rests, accounts, hblocks⟩
  unfold restart
  by_cases hwindow : window = 0
  · rw [if_pos hwindow]
    show Accounted g recover set known
      { m with statistics :=
          { Statistics.seeded m.validators with lastProcessed := m.statistics.lastProcessed } } x
    refine ⟨_, [], ⟨rests.recover_eq, rests.validators_eq, rfl, rests.cached⟩, ?_, ?_⟩
    · rw [rests.validators_eq]
      exact Statistics.accounts_seeded recover set _
    · exact fun h hh => absurd hh List.not_mem_nil
  · rw [if_neg hwindow]
    -- the fresh statistics start below every head
    have seeded : Replayed g recover set 0 (Statistics.seeded set) :=
      ⟨UInt64.le_refl _, [], Statistics.accounts_seeded recover set 0,
        fun h hh => absurd hh List.not_mem_nil⟩
    refine Inquiry.Meets.bind (P := fun m _ => m.Rests g recover set s)
      (Q := fun m' m _ => m.Rests g recover set s ∧ m'.validators = set)
      (.current fun m x rests => ⟨rests, rests.validators_eq⟩) (fun m' => ?_) m x rests
    rintro m x ⟨rests, hset⟩
    rw [hset]
    refine Inquiry.Meets.bind ((meets_header numbered .latest).weaken_error old) (fun head => ?_)
      m x rests
    rintro m x ⟨rests, hserved, -⟩
    refine Inquiry.Meets.bind ((meets_replay numbered hserved _ _ _ (fun hn => ?_) ?_).weaken_error
      old) (fun fresh => ?_) m x rests
    · omega
    · exact ⟨UInt64.le_iff_toNat_le.mpr (Nat.zero_le _), seeded.2⟩
    · refine .change_pure ?_
      rintro m x ⟨rests, hlast, fresh', accounts, hfresh⟩
      obtain ⟨journal, hcommit⟩ :=
        m.exists_journal_commit fresh (firstReplayed head.number window) head.number
      rw [hcommit]
      exact ⟨_, fresh', ⟨rests.recover_eq, rests.validators_eq, rfl, rests.cached⟩,
        accounts.raise hlast, fun h hh => served h (hfresh h hh)⟩

/-! ## Runs of calls -/

/-- Every call keeps a monitor accounted, if the headers that it hands in are known. -/
theorem meets_inquiry (numbered : g.Numbered) (served : ∀ h, g.Serves h → known h)
    (call : MonitorCall) (submitted : ∀ h ∈ call.submitted, known h) :
    Inquiry.Meets g (Accounted g recover set known) call.inquiry
      (fun _ => Accounted g recover set known) (Accounted g recover set known) := by
  have looked : ∀ block s, Inquiry.Meets g (fun m _ => m.Rests g recover set s) (header block)
      (fun _ m _ => m.Rests g recover set s) (fun m _ => m.Rests g recover set s) :=
    fun block s => (meets_header numbered block).weaken (fun _ _ rests => rests)
      fun h m x found => found.1
  have named : ∀ h s, Inquiry.Meets g (fun m _ => m.Rests g recover set s) (signers h)
      (fun _ m _ => m.Rests g recover set s) (fun m _ => m.Rests g recover set s) :=
    fun h s => (meets_signers h).weaken (fun _ _ rests => rests) fun seals m x hm => hm.1
  have asked : ∀ q s, Inquiry.Meets g (fun m _ => m.Rests g recover set s) (Inquiry.ask q)
      (fun _ m _ => m.Rests g recover set s) (fun m _ => m.Rests g recover set s) :=
    fun q s => .ask (fun m x a rests _ => rests) fun m x rests => rests
  cases call with
  | update h =>
    have mem : h ∈ (MonitorCall.update h).submitted := List.mem_singleton_self h
    refine Inquiry.Meets.iff_after.mpr fun m x hm => ?_
    rw [after_submitted g mem]
    exact accounted_count hm (submitted h mem)
  | report h previous =>
    have mem : h ∈ (MonitorCall.report h previous).submitted := List.mem_singleton_self h
    refine Inquiry.Meets.iff_after.mpr fun m x hm => ?_
    rw [after_submitted g mem]
    exact accounted_count hm (submitted h mem)
  | restart window =>
    exact .bind (meets_restart numbered served window) fun _ => .pure fun m x hm => hm
  | header block =>
    exact meets_accounted_of_rests fun s =>
      .bind (looked block s) fun _ => .pure fun m x rests => rests
  | headNumber =>
    exact meets_accounted_of_rests fun s =>
      .bind (.bind (looked .latest s) fun _ => .pure fun m x rests => rests)
        fun _ => .pure fun m x rests => rests
  | signers h =>
    exact meets_accounted_of_rests fun s =>
      .bind (named h s) fun _ => .pure fun m x rests => rests
  | signerData block =>
    exact meets_accounted_of_rests fun s =>
      .bind (.bind (looked block s) fun h => .bind (named h s) fun _ =>
        .pure fun m x rests => rests) fun _ => .pure fun m x rests => rests
  | nodeInfo =>
    refine meets_accounted_of_rests fun s =>
      .bind (.bind (asked .nodeInfo s) fun info => ?_) fun _ => .pure fun m x rests => rests
    cases info with
    | none => exact .fail fun m x rests => rests
    | some info => exact .pure fun m x rests => rests
  | peers =>
    refine meets_accounted_of_rests fun s =>
      .bind (.bind (asked .peers s) fun list => ?_) fun _ => .pure fun m x rests => rests
    cases list with
    | none => exact .fail fun m x rests => rests
    | some list => exact .pure fun m x rests => rests

/-- A run of calls keeps a monitor accounted. -/
theorem accounted_afterCalls (numbered : g.Numbered) (served : ∀ h, g.Serves h → known h)
    (calls : List MonitorCall) (submitted : ∀ call ∈ calls, ∀ h ∈ call.submitted, known h)
    {m : Monitor} {x : γ} (hm : Accounted g recover set known m x) :
    Accounted g recover set known (m.afterCalls g calls x).1 (m.afterCalls g calls x).2 := by
  -- induction over the calls still to be made, from any monitor that is accounted
  induction calls generalizing m x with
  | nil => exact hm
  | cons call calls ih =>
    exact ih (fun call hcall => submitted call (List.mem_cons_of_mem _ hcall))
      (Inquiry.Meets.iff_after.mp
        (meets_inquiry numbered served call (submitted call List.mem_cons_self)) m x hm)

/-- A monitor that has only been given its validators is accounted. -/
theorem accounted_watch (config : MonitorConfig) (registry : Registry) (x : γ) :
    Accounted g recover set known ((make config registry recover).watch set) x := by
  obtain ⟨journal, hwatch⟩ := exists_journal_watch (make config registry recover) set
  rw [hwatch]
  refine ⟨_, [], ⟨rfl, rfl, rfl, ?_⟩, Statistics.accounts_seeded recover set 0, ?_⟩
  · exact fun entry hentry => absurd hentry List.not_mem_nil
  · exact fun h hh => absurd hh List.not_mem_nil

/-- Handing in a header at or below the watermark leaves the statistics as they are. -/
theorem statistics_count_of_le {m : Monitor} {h : Header}
    (hle : h.number ≤ m.statistics.lastProcessed) :
    (m.count h).2.statistics = m.statistics := by
  rcases m.count_cases h with ⟨e, journal, -, hcount⟩ | ⟨seals, journal, -, hcount⟩
  · rw [hcount]
  · rw [hcount]
    exact Statistics.apply_of_le hle seals.proposer seals.endorsers

/-- A header whose signers are known is applied to the statistics. -/
theorem statistics_count_of_ok {m : Monitor} {h : Header} {seals : Seals}
    (hseals : Seals.ofHeader m.recover h = .ok seals) :
    (m.count h).2.statistics =
      m.statistics.apply h.number seals.proposer seals.endorsers := by
  rcases m.count_cases h with ⟨e, journal, hunread, -⟩ | ⟨seals', journal, hseals', hcount⟩
  · cases hseals.symm.trans hunread
  · cases hseals.symm.trans hseals'
    rw [hcount]

/-! ## The main theorem -/

/-- Whatever calls a monitor was given, its statistics are those of blocks that it was handed or
that the node served, each number counted at most once. A header that is handed in then leaves them
as they are if its number is not above the watermark, and is counted if it is and its signers are
known. -/
theorem accounts_afterCalls (g : Gateway γ) (numbered : g.Numbered) (config : MonitorConfig)
    (registry : Registry) (recover : SignerRecovery) (set : ValidatorSet)
    (calls : List MonitorCall) (x : γ) :
    let m := (((make config registry recover).watch set).afterCalls g calls x).1
    (∃ blocks, m.statistics.Accounts recover set blocks ∧
        ∀ h ∈ blocks, h ∈ calls.flatMap MonitorCall.submitted ∨ g.Serves h) ∧
      ∀ call : MonitorCall, ∀ h ∈ call.submitted, ∀ y,
        let after := (call.inquiry.runWith g m y).2.1.statistics
        (h.number ≤ m.statistics.lastProcessed → after = m.statistics) ∧
          ∀ seals blocks, Seals.ofHeader recover h = .ok seals →
            m.statistics.lastProcessed < h.number → m.statistics.Accounts recover set blocks →
            after.Accounts recover set (h :: blocks) := by
  intro m
  let known h := h ∈ calls.flatMap MonitorCall.submitted ∨ g.Serves h
  have submitted : ∀ call ∈ calls, ∀ h ∈ call.submitted, known h :=
    fun call hcall h hh => Or.inl (List.mem_flatMap.mpr ⟨call, hcall, hh⟩)
  obtain ⟨s, blocks, rests, accounts, hblocks⟩ := accounted_afterCalls numbered
    (fun h hserved => Or.inr hserved) calls submitted (accounted_watch config registry x)
  rw [← rests.statistics_eq] at accounts
  refine ⟨⟨blocks, accounts, hblocks⟩, fun call h mem y => ?_⟩
  have hrecover : m.recover = recover := rests.recover_eq
  rw [after_submitted g mem]
  constructor
  · exact statistics_count_of_le
  · intro seals blocks hseals hlt accounts
    show (m.count h).2.statistics.Accounts recover set (h :: blocks)
    rw [statistics_count_of_ok (by rw [hrecover]; exact hseals)]
    exact accounts.apply_fresh (decide_eq_true hlt) hseals

/-- A block with a proposer's seal and one committed seal that is given twice. -/
def sealedBlock (number : UInt64) : Header :=
  { Header.blank with
    number
    extraData := Extra.encode ⟨.zero, [], [1], [[2], [2]]⟩ }

/-- A node with a block for every number, whose head is block three. -/
def threeBlocks : Gateway Unit
  | .header .latest => fun x => (.ok (some (sealedBlock 3)), x)
  | .header (.number n) => fun x => (.ok (some (sealedBlock n)), x)
  | .validators _ => fun x => (.ok [], x)
  | .nodeInfo => fun x => (.ok none, x)
  | .peers => fun x => (.ok none, x)

/-- A recovery that takes a seal for the account itself. -/
def spelledOut : SignerRecovery := fun _ bytes => .ok (.ofSuffix 20 bytes)

/-- A block above the head is counted, the last two blocks are counted anew, one of them is handed
in again, and a further block is reported on. -/
def countedAnew : List MonitorCall :=
  [.update (sealedBlock 5), .restart 1, .update (sealedBlock 3), .report (sealedBlock 4) 0]

/-- Three blocks are counted in the end, and block three only once. -/
theorem accounts_countedAnew :
    threeBlocks.Numbered ∧
      let m := (((make {} ⟨[]⟩ spelledOut).watch (.ofMembers [.zero])).afterCalls threeBlocks
        countedAnew ()).1
      m.statistics.lastProcessed = 4 ∧ m.statistics.counters.proposals.count (.ofNat 20 1) = 3 ∧
        m.statistics.counters.endorsements.count (.ofNat 20 2) = 6 ∧
        ∃ blocks, m.statistics.Accounts spelledOut (.ofMembers [.zero]) blocks := by
  have numbered : threeBlocks.Numbered := by
    intro n x h hserved
    cases hserved
    rfl
  obtain ⟨⟨blocks, accounts, -⟩, -⟩ := accounts_afterCalls threeBlocks numbered {} ⟨[]⟩ spelledOut
    (.ofMembers [.zero]) countedAnew ()
  exact ⟨numbered, by decide, by decide, by decide, blocks, accounts⟩

end Monitor

end IstanbulMonitor
