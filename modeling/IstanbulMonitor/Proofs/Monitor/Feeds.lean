import IstanbulMonitor.Proofs.Monitor.Replay
import Mathlib.Order.Bounds.Basic
import Mathlib.Logic.Function.Basic

/-!
# Several loops that feed one monitor

A call that hands a block to a monitor names the signers of the block first and records it once it
has the statistics to itself, so the calls of several submitters are interleaved move by move
(`Fed.step`). Each submitter hands in consecutive blocks of one chain and starts no further than one
above the watermark. Then no submitter is ever further than that, so the watermark drops only what
was counted: the blocks from the first watermark to the last one are counted, each once, in whatever
order the moves come (`Fed.counted_run`).
-/

set_option autoImplicit false

namespace IstanbulMonitor

/-! ## One more block -/

namespace Statistics

variable {recover : SignerRecovery} {s after : Statistics} {blocks : List Header} {h : Header}
  {seals : Seals}

/-- Counters to which some blocks were added, each once. -/
structure Gains (recover : SignerRecovery) (s : Statistics) (blocks : List Header)
    (after : Statistics) : Prop where
  proposals : ∀ a, after.counters.proposals.count a =
    s.counters.proposals.count a + blocks.countP fun h => h.proposer? recover = some a
  endorsements : ∀ a, after.counters.endorsements.count a =
    s.counters.endorsements.count a + (blocks.map fun h => (h.endorsers recover).count a).sum

theorem gains_nil (recover : SignerRecovery) (s : Statistics) : Gains recover s [] s :=
  ⟨fun _ => rfl, fun _ => rfl⟩

theorem Gains.concat (gains : Gains recover s blocks after)
    (fresh : after.isFresh h.number = true) (signed : Seals.ofHeader recover h = .ok seals) :
    Gains recover s (blocks ++ [h])
      (after.apply h.number seals.proposer seals.endorsers) := by
  have hproposer : h.proposer? recover = some seals.proposer := by
    simp [Header.proposer?, signed, Except.toOption]
  have hendorsers : h.endorsers recover = seals.endorsers := by
    simp [Header.endorsers, signed, Except.toOption]
  rw [Statistics.apply, if_pos fresh]
  constructor
  · intro a
    show (after.counters.proposals.add seals.proposer).count a = _
    rw [Tally.count_add, gains.proposals, List.countP_append, List.countP_singleton, hproposer]
    simp [Nat.add_assoc]
  · intro a
    show (seals.endorsers.foldl Tally.add after.counters.endorsements).count a = _
    rw [Tally.count_foldl_add, gains.endorsements, List.map_append, List.sum_append,
      List.map_singleton, List.sum_singleton, hendorsers, Nat.add_assoc]

theorem Counts.concat (counts : Counts recover s blocks after)
    (signed : Seals.ofHeader recover h = .ok seals) :
    Counts recover s (blocks ++ [h])
      (after.apply h.number seals.proposer seals.endorsers) := by
  induction counts with
  | nil s => exact .cons signed (.nil _)
  | cons first _ ih => exact .cons first ih

end Statistics

theorem blocksFrom_concat (block : UInt64 → Header) (first n : Nat) :
    blocksFrom block first (n + 1) = blocksFrom block first n ++ [block (.ofNat (first + n))] := by
  simp [blocksFrom, List.range'_concat]

/-! ## Submitters -/

/-- Who hands consecutive blocks to a monitor: the number of the next block, and its signers once
they are named. -/
structure Submitter where
  next : Nat
  named : Option Seals := none

/-- A monitor and the submitters that feed it. -/
structure Fed (ι : Type) where
  monitor : Monitor
  submitters : ι → Submitter

/-- What a submitter does next: it names the signers of a block, or records the block. -/
inductive FeedMove (ι : Type) where
  | name (i : ι)
  | record (i : ι)

namespace Fed

open Monitor (make sealedBlock spelledOut)

variable {ι : Type}

/-- The submitters before their first block. -/
def start (m : Monitor) (first : ι → Nat) : Fed ι := ⟨m, fun i => ⟨first i, none⟩⟩

/-- The monitor and the submitters after a move. A submitter whose block has no known signers stays
where it is, and so does one that is through with all numbers. -/
def step [DecidableEq ι] (block : UInt64 → Header) (f : Fed ι) : FeedMove ι → Fed ι
  | .name i =>
    match f.submitters i with
    | ⟨next, none⟩ =>
      if next < UInt64.size then
        match f.monitor.extract (block (.ofNat next)) with
        | (.error _, monitor) => { f with monitor }
        | (.ok seals, monitor) =>
          ⟨monitor, Function.update f.submitters i ⟨next, some seals⟩⟩
      else f
    | ⟨_, some _⟩ => f
  | .record i =>
    match f.submitters i with
    | ⟨_, none⟩ => f
    | ⟨next, some seals⟩ =>
      ⟨f.monitor.record (block (.ofNat next)).number seals,
        Function.update f.submitters i ⟨next + 1, none⟩⟩

/-- The monitor and the submitters after some moves. -/
def run [DecidableEq ι] (block : UInt64 → Header) (f : Fed ι) (moves : List (FeedMove ι)) : Fed ι :=
  moves.foldl (step block) f

variable {block : UInt64 → Header} {f : Fed ι} {i : ι}

/-! ## The invariant -/

/-- The blocks above the watermark of a monitor up to the present one. -/
def added (block : UInt64 → Header) (m : Monitor) (f : Fed ι) : List Header :=
  blocksFrom block (m.statistics.lastProcessed.toNat + 1)
    (f.monitor.statistics.lastProcessed.toNat - m.statistics.lastProcessed.toNat)

/-- What holds while a monitor is fed. No submitter is further than one above the watermark, and
the watermark is where it was or where some submitter has been. -/
structure Keeps (block : UInt64 → Header) (m : Monitor) (first : ι → Nat) (f : Fed ι) : Prop where
  recover_eq : f.monitor.recover = m.recover
  raised : m.statistics.lastProcessed.toNat ≤ f.monitor.statistics.lastProcessed.toNat
  counts : Statistics.Counts m.recover m.statistics (added block m f) f.monitor.statistics
  gains : Statistics.Gains m.recover m.statistics (added block m f) f.monitor.statistics
  begun : ∀ i, first i ≤ (f.submitters i).next
  reached : ∀ i, (f.submitters i).next ≤ f.monitor.statistics.lastProcessed.toNat + 1
  led : f.monitor.statistics.lastProcessed.toNat = m.statistics.lastProcessed.toNat ∨
    ∃ i, first i ≤ f.monitor.statistics.lastProcessed.toNat ∧
      f.monitor.statistics.lastProcessed.toNat < (f.submitters i).next
  named : ∀ i seals, (f.submitters i).named = some seals → (f.submitters i).next < UInt64.size ∧
    Seals.ofHeader m.recover (block (.ofNat (f.submitters i).next)) = .ok seals

namespace Keeps

variable {m : Monitor} {first : ι → Nat}

theorem start (near : ∀ i, first i ≤ m.statistics.lastProcessed.toNat + 1) :
    Keeps block m first (.start m first) := by
  have hadded : added block m (.start m first) = [] := by
    rw [added, Fed.start, Nat.sub_self]
    rfl
  exact
    { recover_eq := rfl
      raised := Nat.le_refl _
      counts := by
        rw [hadded]
        exact .nil _
      gains := by
        rw [hadded]
        exact Statistics.gains_nil _ _
      begun := fun i => Nat.le_refl _
      reached := near
      led := Or.inl rfl
      named := fun i seals h => by cases h }

/-- The watermark is the larger of what it was and the highest number that was recorded. -/
theorem isGreatest (h : Keeps block m first f) :
    IsGreatest (insert m.statistics.lastProcessed.toNat
      {n | ∃ i, first i ≤ n ∧ n < (f.submitters i).next})
      f.monitor.statistics.lastProcessed.toNat := by
  constructor
  · exact h.led
  · rintro n (rfl | ⟨i, -, hlt⟩)
    · exact h.raised
    · have reached := h.reached i
      omega

variable [DecidableEq ι]

/-- A submitter names the signers of its next block. That leaves the monitor as it is, but for the
journal. -/
theorem named_update (h : Keeps block m first f) (journal : Journal) {next : Nat} {seals : Seals}
    (here : (f.submitters i).next = next) (room : next < UInt64.size)
    (signed : Seals.ofHeader m.recover (block (.ofNat next)) = .ok seals) :
    Keeps block m first
      ⟨{ f.monitor with journal }, Function.update f.submitters i ⟨next, some seals⟩⟩ := by
  -- nobody moves on
  have hnext : ∀ j, (Function.update f.submitters i ⟨next, some seals⟩ j).next =
      (f.submitters j).next := by
    intro j
    rw [Function.update_apply]
    split
    · next heq => rw [heq, here]
    · rfl
  exact
    { recover_eq := h.recover_eq
      raised := h.raised
      counts := h.counts
      gains := h.gains
      begun := fun j => by
        rw [hnext]
        exact h.begun j
      reached := fun j => by
        rw [hnext]
        exact h.reached j
      led := by
        simp only [hnext]
        exact h.led
      named := fun j seals' hnamed => by
        rw [hnext]
        dsimp only at hnamed
        rw [Function.update_apply] at hnamed
        split at hnamed
        · next heq =>
          cases hnamed
          rw [heq, here]
          exact ⟨room, signed⟩
        · exact h.named j seals' hnamed }

theorem name (h : Keeps block m first f) (i : ι) :
    Keeps block m first (f.step block (.name i)) := by
  simp only [step]
  split
  · next next hsubmitter =>
    split
    · next room =>
      rcases hextract : f.monitor.extract (block (.ofNat next)) with ⟨result, monitor⟩
      obtain ⟨journal, hmonitor⟩ := f.monitor.exists_journal_extract (block (.ofNat next))
      rw [hextract] at hmonitor
      obtain rfl : monitor = { f.monitor with journal } := hmonitor
      cases result with
      | error e => exact { h with }
      | ok seals =>
        have signed := Monitor.ofHeader_of_extract (congrArg Prod.fst hextract)
        rw [h.recover_eq] at signed
        exact h.named_update journal (by rw [hsubmitter]) room signed
    · exact h
  · exact h

/-- A submitter moves on whose block was recorded, whether it was counted or dropped. -/
theorem moved_on (h : Keeps block m first f) {f' : Fed ι} {next : Nat}
    (recover_eq : f'.monitor.recover = m.recover)
    (submitters : f'.submitters = Function.update f.submitters i ⟨next + 1, none⟩)
    (here : (f.submitters i).next = next)
    (counts : Statistics.Counts m.recover m.statistics (added block m f') f'.monitor.statistics)
    (gains : Statistics.Gains m.recover m.statistics (added block m f') f'.monitor.statistics)
    (watermark : f'.monitor.statistics.lastProcessed.toNat =
      max f.monitor.statistics.lastProcessed.toNat next) :
    Keeps block m first f' := by
  have hself : f'.submitters i = ⟨next + 1, none⟩ := by
    rw [submitters, Function.update_self]
  have hother : ∀ j, j ≠ i → f'.submitters j = f.submitters j := by
    intro j hne
    rw [submitters, Function.update_of_ne hne]
  have hnext : ∀ j, (f.submitters j).next ≤ (f'.submitters j).next := by
    intro j
    by_cases hj : j = i
    · rw [hj, here, hself]
      exact Nat.le_succ next
    · rw [hother j hj]
  have begun := h.begun i
  rw [here] at begun
  refine
    { recover_eq, counts, gains
      raised := by
        rw [watermark]
        exact Nat.le_trans h.raised (Nat.le_max_left _ _)
      begun := fun j => Nat.le_trans (h.begun j) (hnext j)
      reached := fun j => ?_
      led := ?_
      named := fun j seals hnamed => ?_ }
  · rw [watermark]
    by_cases hj : j = i
    · rw [hj, hself]
      exact Nat.succ_le_succ (Nat.le_max_right _ _)
    · rw [hother j hj]
      exact Nat.le_trans (h.reached j) (Nat.succ_le_succ (Nat.le_max_left _ _))
  · -- a block that is counted makes its submitter the leader
    rcases Nat.lt_or_ge f.monitor.statistics.lastProcessed.toNat next with hlt | hge
    · rw [watermark, Nat.max_eq_right (Nat.le_of_lt hlt)]
      refine Or.inr ⟨i, begun, ?_⟩
      rw [hself]
      exact Nat.lt_succ_self next
    · rw [watermark, Nat.max_eq_left hge]
      rcases h.led with hled | ⟨j, hfirst, hlt⟩
      · exact Or.inl hled
      · exact Or.inr ⟨j, hfirst, Nat.lt_of_lt_of_le hlt (hnext j)⟩
  · by_cases hj : j = i
    · rw [hj, hself] at hnamed
      cases hnamed
    · rw [hother j hj] at hnamed ⊢
      exact h.named j seals hnamed

/-- A submitter records its block. It is counted if it is the one above the watermark, and dropped
if it is not above it. There is no third case. -/
theorem record (numbered : ∀ n, (block n).number = n) (h : Keeps block m first f) (i : ι) :
    Keeps block m first (f.step block (.record i)) := by
  simp only [step]
  split
  · exact h
  · next next seals hsubmitter =>
    obtain ⟨room, signed⟩ := h.named i seals (by rw [hsubmitter])
    have reached := h.reached i
    have here : (f.submitters i).next = next := by rw [hsubmitter]
    rw [here] at room signed reached
    obtain ⟨journal, hrecord⟩ :=
      f.monitor.exists_journal_record (block (.ofNat next)).number seals
    rw [hrecord, numbered]
    have hnumber : (UInt64.ofNat next).toNat = next := UInt64.toNat_ofNat_of_lt' room
    by_cases hle : next ≤ f.monitor.statistics.lastProcessed.toNat
    · -- dropped
      have hdropped : f.monitor.statistics.apply (.ofNat next) seals.proposer seals.endorsers =
          f.monitor.statistics := by
        apply Statistics.apply_of_le
        rw [UInt64.le_iff_toNat_le, hnumber]
        exact hle
      rw [hdropped]
      exact h.moved_on h.recover_eq rfl here h.counts h.gains (Nat.max_eq_left hle).symm
    · -- counted, as the block after the last one
      have hsucc : next = f.monitor.statistics.lastProcessed.toNat + 1 := by omega
      have fresh : f.monitor.statistics.isFresh (block (.ofNat next)).number = true := by
        refine decide_eq_true ?_
        rw [numbered, UInt64.lt_iff_toNat_lt, hnumber]
        omega
      have happly : (f.monitor.statistics.apply (.ofNat next) seals.proposer
          seals.endorsers).lastProcessed = .ofNat next := by
        rw [numbered] at fresh
        rw [Statistics.apply, if_pos fresh]
      have hadded : ∀ f' : Fed ι, f'.monitor.statistics.lastProcessed = .ofNat next →
          added block m f' = added block m f ++ [block (.ofNat next)] := by
        intro f' hlast
        have raised := h.raised
        have hlength : next - m.statistics.lastProcessed.toNat =
            f.monitor.statistics.lastProcessed.toNat - m.statistics.lastProcessed.toNat + 1 := by
          omega
        have hplace : m.statistics.lastProcessed.toNat + 1 +
            (f.monitor.statistics.lastProcessed.toNat - m.statistics.lastProcessed.toNat) =
              next := by
          omega
        rw [added, added, hlast, hnumber, hlength, blocksFrom_concat, hplace]
      have counts := h.counts.concat signed
      have gains := h.gains.concat fresh signed
      rw [numbered] at counts gains
      refine h.moved_on h.recover_eq rfl here ?_ ?_ ?_
      · rw [hadded _ happly]
        exact counts
      · rw [hadded _ happly]
        exact gains
      · show (Statistics.lastProcessed _).toNat = _
        rw [happly, hnumber, Nat.max_eq_right (by omega)]

theorem run (numbered : ∀ n, (block n).number = n) (h : Keeps block m first f)
    (moves : List (FeedMove ι)) : Keeps block m first (f.run block moves) := by
  induction moves generalizing f with
  | nil => exact h
  | cons move moves ih =>
    cases move with
    | name i => exact ih (h.name i)
    | record i => exact ih (h.record numbered i)

end Keeps

/-! ## The main theorem -/

/-- **Nothing is lost and nothing is counted twice.** Submitters hand in the blocks of one chain,
each a run of consecutive ones that starts no further than one above the watermark. After any moves
in any order, exactly the blocks above the first watermark up to the present one were added to the
counters, each once. The present watermark is the larger of the first one and the highest number
that was recorded. Another order of moves that takes every submitter as far gives the same
statistics. -/
theorem counted_run [DecidableEq ι] (numbered : ∀ n, (block n).number = n) (m : Monitor)
    (first : ι → Nat) (near : ∀ i, first i ≤ m.statistics.lastProcessed.toNat + 1)
    (moves : List (FeedMove ι)) :
    let f := (start m first).run block moves
    Statistics.Counts m.recover m.statistics (added block m f) f.monitor.statistics ∧
      Statistics.Gains m.recover m.statistics (added block m f) f.monitor.statistics ∧
      IsGreatest (insert m.statistics.lastProcessed.toNat
        {n | ∃ i, first i ≤ n ∧ n < (f.submitters i).next})
        f.monitor.statistics.lastProcessed.toNat ∧
      ∀ moves', (∀ i, (((start m first).run block moves').submitters i).next =
          (f.submitters i).next) →
        ((start m first).run block moves').monitor.statistics = f.monitor.statistics := by
  have start : Keeps block m first (.start m first) := .start near
  have h := start.run numbered moves
  refine ⟨h.counts, h.gains, h.isGreatest, fun moves' same => ?_⟩
  have h' := start.run numbered moves'
  -- the places of the submitters fix the watermark, and the watermark fixes what was added
  have hgreatest := h'.isGreatest
  simp only [same] at hgreatest
  have hlast := hgreatest.unique h.isGreatest
  have hcounts := h'.counts
  rw [added, hlast] at hcounts
  exact hcounts.unique h.counts

/-- A monitor that has counted up to block two. -/
def atTwo : Monitor :=
  { make {} ⟨[]⟩ spelledOut with statistics := { lastProcessed := 2 } }

/-- Two submitters, one of which starts again from block one while the other goes on with block
three. Each records a block that the other has named already. -/
def overlapping : List (FeedMove Bool) :=
  [.name true, .name false, .record true, .record false, .name false, .name true, .record false,
   .name false, .record true, .record false]

/-- Blocks three and four are counted, and block three not again. -/
theorem counted_overlapping :
    (∀ n, (sealedBlock n).number = n) ∧
      (∀ i, (bif i then 3 else 1) ≤ atTwo.statistics.lastProcessed.toNat + 1) ∧
      let f := (start atTwo fun i => bif i then 3 else 1).run sealedBlock overlapping
      (f.submitters true).next = 5 ∧ (f.submitters false).next = 4 ∧
        f.monitor.statistics.lastProcessed = 4 ∧
        f.monitor.statistics.counters.proposals.count (.ofNat 20 1) = 2 ∧
        Statistics.Counts spelledOut atTwo.statistics [sealedBlock 3, sealedBlock 4]
          f.monitor.statistics := by
  have near : ∀ i, (bif i then 3 else 1) ≤ atTwo.statistics.lastProcessed.toNat + 1 := by decide
  have numbered : ∀ n, (sealedBlock n).number = n := fun n => rfl
  obtain ⟨counts, -⟩ := counted_run numbered atTwo _ near overlapping
  exact ⟨numbered, near, by decide +kernel, by decide +kernel, by decide +kernel,
    by decide +kernel, counts⟩

end Fed

end IstanbulMonitor
