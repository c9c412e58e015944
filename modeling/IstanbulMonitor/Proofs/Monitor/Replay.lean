import IstanbulMonitor.Proofs.Monitor.Chain
import IstanbulMonitor.Proofs.Monitor.Participation

/-!
# A restart is counting block by block

Against an honest node a restart ends with the statistics that a new monitor has after the last
blocks of the chain were handed to it one by one, whatever the cache holds of the chain and whatever
was counted before (`Monitor.restart_eq_countAll`). `Inquiry.Blind` says of an inquiry that it does
not look at the statistics; so is everything that a restart does before it takes the new ones.
-/

set_option autoImplicit false

namespace IstanbulMonitor

/-! ## Counting consecutive blocks -/

namespace Statistics

variable {recover : SignerRecovery} {set : ValidatorSet} {block : UInt64 → Header}

theorem Counts.unique {s after after' : Statistics} {blocks : List Header}
    (counts : Counts recover s blocks after) (counts' : Counts recover s blocks after') :
    after = after' := by
  induction counts with
  | nil s =>
      cases counts'
      rfl
  | cons signed rest ih =>
      cases counts' with
      | cons signed' rest' =>
          rw [signed] at signed'
          cases signed'
          exact ih rest'

/-- Consecutive blocks above the watermark are all counted, and the last of them is the new
watermark. -/
theorem Counts.consecutive (numbered : ∀ n, (block n).number = n) {s after : Statistics}
    {first n : Nat} (counts : Counts recover s (blocksFrom block first n) after)
    (above : s.lastProcessed.toNat < first) (bounded : first + n ≤ UInt64.size)
    {old : List Header} (accounts : s.Accounts recover set old) :
    after.Accounts recover set ((blocksFrom block first n).reverse ++ old) ∧
      after.lastProcessed.toNat = if n = 0 then s.lastProcessed.toNat else first + n - 1 := by
  -- the watermark stays right below the blocks that are left
  induction n generalizing s first old with
  | zero =>
      cases counts
      exact ⟨accounts, rfl⟩
  | succ n ih =>
      have hblocks : blocksFrom block first (n + 1) =
          block (.ofNat first) :: blocksFrom block (first + 1) n := by
        simp [blocksFrom, List.range'_succ]
      rw [hblocks] at counts ⊢
      cases counts with
      | cons hseals rest =>
          have hnumber : (UInt64.ofNat first).toNat = first :=
            UInt64.toNat_ofNat_of_lt' (by omega)
          have fresh : s.isFresh (block (.ofNat first)).number = true := by
            refine decide_eq_true ?_
            rw [numbered, UInt64.lt_iff_toNat_lt, hnumber]
            exact above
          have happly := accounts.apply_fresh fresh hseals
          have hlast : ∀ proposer endorsers,
              (s.apply (block (.ofNat first)).number proposer endorsers).lastProcessed =
                .ofNat first := by
            intro proposer endorsers
            rw [Statistics.apply, if_pos fresh, numbered]
          obtain ⟨hafter, hwatermark⟩ := ih rest (by rw [hlast, hnumber]; omega) (by omega) happly
          rw [hlast, hnumber] at hwatermark
          refine ⟨by simpa using hafter, ?_⟩
          rw [hwatermark]
          split <;> simp only [Nat.add_eq_zero_iff, Nat.one_ne_zero, and_false, if_false] <;> omega

end Statistics

theorem length_lastBlocks (block : UInt64 → Header) (head window : UInt64) :
    (lastBlocks block head window).length = min (window.toNat + 1) head.toNat := by
  simp only [lastBlocks, blocksFrom, List.length_map, List.length_range']
  omega

/-! ## Inquiries that do not look at the statistics -/

namespace Inquiry

variable {ε α β : Type}

/-- Other statistics make no difference to an inquiry, and it leaves them as they are. -/
def Blind (i : Inquiry ε α) : Prop :=
  ∀ (γ : Type) (g : Gateway γ) (m : Monitor) (x : γ) (s : Statistics),
    i.runWith g { m with statistics := s } x =
      ((i.runWith g m x).1, { (i.runWith g m x).2.1 with statistics := s },
        (i.runWith g m x).2.2)

namespace Blind

theorem pure (a : α) : Blind (pure a : Inquiry ε α) := fun _ _ _ _ _ => rfl

theorem fail (e : ε) : Blind (fail e : Inquiry ε α) := fun _ _ _ _ _ => rfl

theorem ask (q : Query) : Blind (ask q) := fun _ _ _ _ _ => rfl

theorem change {f : Monitor → Monitor}
    (h : ∀ m s, f { m with statistics := s } = { f m with statistics := s }) :
    Blind (change f : Inquiry ε Unit) := by
  intro γ g m x s
  show ((.ok (), f { m with statistics := s }, x) : Except ε Unit × Monitor × γ) = _
  rw [h]
  rfl

theorem ofOperation {f : Monitor → Except ε α × Monitor}
    (h : ∀ m s, f { m with statistics := s } = ((f m).1, { (f m).2 with statistics := s })) :
    Blind (ofOperation f) := by
  intro γ g m x s
  rw [runWith_ofOperation, runWith_ofOperation, h]

theorem bind {i : Inquiry ε α} {next : α → Inquiry ε β} (first : Blind i)
    (rest : ∀ a, Blind (next a)) : Blind (i >>= next) := by
  intro γ g m x s
  rw [runWith_bind, runWith_bind, first γ g m x s]
  rcases i.runWith g m x with ⟨result, m', x'⟩
  cases result with
  | ok a => exact rest a γ g m' x' s
  | error e => rfl

end Blind

/-- What an inquiry ends with, if it succeeds, does not depend on the statistics before. -/
def Renews (i : Inquiry ε α) : Prop :=
  ∀ (γ : Type) (g : Gateway γ) (m : Monitor) (x : γ) (s : Statistics) (a : α) (m' : Monitor)
    (x' : γ), i.runWith g m x = (.ok a, m', x') →
      i.runWith g { m with statistics := s } x = (.ok a, m', x')

namespace Renews

theorem change_pure {f : Monitor → Monitor} (h : ∀ m s, f { m with statistics := s } = f m)
    (result : α) : Renews (change f >>= fun _ => Pure.pure result : Inquiry ε α) := by
  intro γ g m x s a m' x' done
  show ((.ok result, f { m with statistics := s }, x) : Except ε α × Monitor × γ) = _
  rw [h]
  exact done

theorem bind {i : Inquiry ε α} {next : α → Inquiry ε β} (first : Blind i)
    (rest : ∀ a, Renews (next a)) : Renews (i >>= next) := by
  intro γ g m x s b m' x' done
  rw [runWith_bind] at done ⊢
  rw [first γ g m x s]
  rcases hi : i.runWith g m x with ⟨result, m₁, x₁⟩
  rw [hi] at done
  cases result with
  | ok a => exact rest a γ g m₁ x₁ s b m' x' done
  | error e => cases done

end Renews

end Inquiry

namespace Monitor

variable {γ : Type}

open Inquiry (Blind)

theorem extract_with_statistics (m : Monitor) (s : Statistics) (h : Header) :
    ({ m with statistics := s } : Monitor).extract h =
      ((m.extract h).1, { (m.extract h).2 with statistics := s }) := by
  unfold extract
  cases Proposal.ofHeader m.recover h with
  | error e => rfl
  | ok p =>
      -- the warning about the hash comes before the committed seals are read
      cases disputed : p.isDisputedBy h with
      | true =>
          simp only [disputed, if_true, recover_warn]
          cases p.seals m.recover <;> rfl
      | false =>
          simp only [disputed, Bool.false_eq_true, if_false]
          cases p.seals m.recover <;> rfl

/-- What is committed takes the place of the statistics from before. -/
theorem commit_with_statistics (m : Monitor) (s fresh : Statistics) (first head : UInt64) :
    ({ m with statistics := s } : Monitor).commit fresh first head = m.commit fresh first head := by
  unfold commit
  cases successor? head <;> rfl

theorem blind_fetch (b : BlockNumber) : Blind (fetch b) := by
  refine .bind (.ask _) ?_
  intro answer
  cases answer with
  | none => exact .fail _
  | some h => exact .bind (.change fun m s => rfl) fun _ => .pure h

theorem blind_header (b : BlockNumber) : Blind (header b) := by
  cases b with
  | latest => exact .bind (.change fun m s => rfl) fun _ => blind_fetch .latest
  | number n =>
      refine .bind (.ofOperation fun m s => rfl) ?_
      intro found
      cases found with
      | none => exact blind_fetch (.number n)
      | some h => exact .pure h

theorem blind_replay (head : Header) : ∀ (n : Nat) (number : UInt64) (fresh : Statistics),
    Blind (replay head n number fresh) := by
  intro n
  -- the statistics of the replay are its own, so they do not matter either
  induction n with
  | zero => exact fun number fresh => .pure fresh
  | succ n ih =>
      intro number fresh
      have counted : ∀ h, Blind (do
          let seals ← signers h
          replay head n (number + 1) (fresh.apply h.number seals.proposer seals.endorsers)) :=
        fun h => .bind (.ofOperation fun m s => extract_with_statistics m s h) fun _ => ih _ _
      rw [replay]
      split
      · exact counted head
      · exact .bind (blind_header _) counted

/-- What a restart with a window ends with does not depend on the statistics before. -/
theorem renews_restart {window : UInt64} (positive : window ≠ 0) :
    Inquiry.Renews (restart window) := by
  unfold restart
  rw [if_neg positive]
  intro γ g m x s
  -- of the monitor at the beginning only the validators are used
  refine Inquiry.Renews.bind (blind_header .latest) (fun head => ?_) γ g m x s
  refine .bind (blind_replay head _ _ _) fun fresh => ?_
  exact .change_pure (fun m s => commit_with_statistics m s fresh _ _) _

/-! ## The main theorem -/

/-- Headers counted one after another, until one of them cannot be. -/
def countAll : List Header → Inquiry MonitorError Unit
  | [] => pure ()
  | h :: blocks => do
    let _ ← countHeader h
    countAll blocks

theorem countAll_of_counts (g : Gateway γ) (x : γ) {m : Monitor} {blocks : List Header}
    {after : Statistics} (counts : Statistics.Counts m.recover m.statistics blocks after) :
    ∃ counted, (countAll blocks).runWith g m x = (.ok (), counted, x) ∧
      counted.statistics = after := by
  induction blocks generalizing m with
  | nil =>
      cases counts
      exact ⟨m, rfl, rfl⟩
  | cons h blocks ih =>
      cases counts with
      | @cons _ _ _ _ seals signed rest =>
          -- the signers that the monitor names are the ones that are counted
          rcases m.count_cases h with ⟨e, journal, hunread, -⟩ | ⟨seals', journal, hseals, hcount⟩
          · rw [signed] at hunread
            cases hunread
          · rw [signed] at hseals
            cases hseals
            obtain ⟨counted, hrun, hstatistics⟩ := ih
              (m := { m with
                statistics := m.statistics.apply h.number seals.proposer seals.endorsers
                journal }) rest
            refine ⟨counted, ?_, hstatistics⟩
            rw [countAll, Inquiry.runWith_bind, countHeader, Inquiry.runWith_ofOperation, hcount]
            exact hrun

variable {g : Gateway γ} {block : UInt64 → Header}

/-- A restart that succeeds takes the last blocks up to the head that the node reported; one that
fails leaves the statistics alone. -/
theorem restart_cases (honest : g.Honest block) {window : UInt64} (positive : window ≠ 0)
    {m : Monitor} (caches : m.Caches block) (x : γ) :
    match (restart window).runWith g m x with
    | (.ok _, m', _) => ∃ head fresh, (g (.header .latest) x).1 = .ok (some head) ∧
        Statistics.Counts m.recover (.seeded m.validators)
          (lastBlocks block head.number window) fresh ∧
        m'.statistics = { fresh with lastProcessed := head.number } ∧
        m'.recover = m.recover ∧ m'.validators = m.validators ∧ m'.Caches block
    | (.error _, m', _) => m'.statistics = m.statistics := by
  let same (m' : Monitor) : Prop := m'.recover = m.recover ∧ m'.validators = m.validators ∧
    m'.statistics = m.statistics
  -- the node only changes by queries here, and it may always be asked for any block
  have ensured := ensures_restart (P := fun m' y => same m' ∧ y = x)
    (R := fun h m' _ => same m' ∧ (g (.header .latest) x).1 = .ok (some h))
    (I := fun _ _ => True) Eq (fun _ _ => True) m.recover positive honest
    ⟨fun _ _ _ h => h, fun _ _ _ h => h⟩
    (by rintro m' y _ rfl h; exact h) (fun _ _ _ => trivial) (fun _ _ h => h.1.2.1)
    (fun h => { cache := fun _ _ _ h => h, journal := fun _ _ _ h => h
                later := fun _ _ _ _ h => h, asked := fun _ _ _ h => h })
    (fun _ _ _ _ => trivial) (fun _ _ _ h => h.1.1) (fun _ _ _ _ _ _ => trivial)
    (by rintro m' y h ⟨hsame, rfl⟩ hh; exact ⟨hsame, hh⟩)
  have hrun := ensured.runWith (m := m) (x := x) ⟨⟨⟨rfl, rfl, rfl⟩, rfl⟩, caches⟩
  rcases hrestart : (restart window).runWith g m x with ⟨result, m', x'⟩
  rw [hrestart] at hrun
  cases result with
  | ok a =>
      obtain ⟨head, fresh, m₁, ⟨hsame, hanswer⟩, hcaches, hcounts, rfl, -⟩ := hrun
      obtain ⟨journal, hcommit⟩ :=
        m₁.exists_journal_commit fresh (firstReplayed head.number window) head.number
      rw [hcommit]
      exact ⟨head, fresh, hanswer, hcounts, rfl, hsame.1, hsame.2.1, hcaches⟩
  | error e =>
      rcases hrun with ⟨-, ⟨y, ⟨hsame, -⟩, -⟩ | ⟨⟨h, hsame, -⟩, -⟩⟩
      · exact hsame.2.2
      · exact hsame.2.2

/-- Fresh statistics that counted the last blocks have the head as their watermark. -/
theorem lastProcessed_of_counts (numbered : ∀ n, (block n).number = n) {recover : SignerRecovery}
    {set : ValidatorSet} {head window : UInt64} {fresh : Statistics}
    (counts : Statistics.Counts recover (.seeded set) (lastBlocks block head window) fresh) :
    fresh.Accounts recover set (lastBlocks block head window).reverse ∧
      fresh.lastProcessed = head := by
  have hhead := head.toNat_lt
  obtain ⟨haccounts, hlast⟩ := Statistics.Counts.consecutive numbered counts
    (by show 0 < _; omega) (by show _ ≤ 2 ^ 64; omega)
    (Statistics.accounts_seeded recover set 0)
  refine ⟨by simpa [lastBlocks] using haccounts, ?_⟩
  apply UInt64.toNat_inj.mp
  have hzero : (Statistics.seeded set).lastProcessed.toNat = 0 := rfl
  rw [hlast, hzero]
  split <;> omega

/-- A restart with a window against an honest node, whatever the cache holds of the chain. If it
does not fail, its statistics are those of a new monitor to which the last blocks were handed one by
one, and it would have ended the same way with any other statistics before. Doing it again with the
same head changes nothing. This is so, too, if it panics once its statistics are in place. -/
theorem restart_eq_countAll (honest : g.Honest block) {window : UInt64} (positive : window ≠ 0)
    {m m' : Monitor} {x x' : γ} (caches : m.Caches block) {result : Option Unit}
    (done : (restart window).runWith g m x = (.ok result, m', x')) :
    ∃ head, (g (.header .latest) x).1 = .ok (some head) ∧
      let blocks := lastBlocks block head.number window
      (∀ config registry y, ∃ counted,
          (countAll blocks).runWith g ((make config registry m.recover).watch m.validators) y =
            (.ok (), counted, y) ∧
          m'.statistics = counted.statistics) ∧
        m'.statistics.Accounts m.recover m.validators blocks.reverse ∧
        blocks.length = min (window.toNat + 1) head.number.toNat ∧
        m'.statistics.lastProcessed = head.number ∧
        (∀ s, (restart window).runWith g { m with statistics := s } x = (.ok result, m', x')) ∧
        ∀ again, (g (.header .latest) x').1 = .ok (some again) → again.number = head.number →
          ((restart window).runWith g m' x').2.1.statistics = m'.statistics := by
  have hcases := restart_cases honest positive caches x
  rw [done] at hcases
  obtain ⟨head, fresh, hanswer, hcounts, hstatistics, hrecover, hvalidators, hcaches⟩ := hcases
  obtain ⟨haccounts, hlast⟩ := lastProcessed_of_counts honest.numbered hcounts
  -- the watermark is set to what it is already
  have hfresh : m'.statistics = fresh := by rw [hstatistics, ← hlast]
  refine ⟨head, hanswer, ?_, ?_, length_lastBlocks _ _ _, ?_,
    fun s => renews_restart positive γ g m x s result m' x' done, ?_⟩
  · intro config registry y
    obtain ⟨journal, hwatch⟩ :=
      exists_journal_watch (make config registry m.recover) m.validators
    rw [hwatch]
    obtain ⟨counted, hrun, hcounted⟩ := countAll_of_counts g y
      (m := { make config registry m.recover with
        validators := m.validators, statistics := .seeded m.validators, journal }) hcounts
    exact ⟨counted, hrun, by rw [hfresh, hcounted]⟩
  · rw [hfresh]
    exact haccounts
  · rw [hfresh, hlast]
  · intro again hagain hnumber
    have hcases := restart_cases honest positive hcaches x'
    rcases hrestart : (restart window).runWith g m' x' with ⟨result, m'', x''⟩
    rw [hrestart] at hcases
    cases result with
    | error e => exact hcases
    | ok a =>
        obtain ⟨head', fresh', hanswer', hcounts', hstatistics', -⟩ := hcases
        rw [hagain] at hanswer'
        cases hanswer'
        rw [hrecover, hvalidators, hnumber] at hcounts'
        obtain rfl := hcounts.unique hcounts'
        rw [hstatistics', hstatistics, hnumber]

/-- A monitor with room for one header, which is that of block two, and with a block counted far
above the head. -/
def farAhead : Monitor :=
  { make { cacheCapacity := 1 } ⟨[]⟩ spelledOut with
    cache := (HeaderCache.empty 1).put 2 (sealedBlock 2)
    validators := .ofMembers [.zero]
    statistics := { lastProcessed := 9 } }

/-- A window of five on a chain of three blocks counts all of them. -/
theorem restart_farAhead :
    threeBlocks.Honest sealedBlock ∧ (5 : UInt64) ≠ 0 ∧ farAhead.Caches sealedBlock ∧
      ∃ after, (restart 5).runWith threeBlocks farAhead () = (.ok (some ()), after, ()) ∧
        after.statistics.lastProcessed = 3 ∧
        after.statistics.Accounts spelledOut (.ofMembers [.zero])
          [sealedBlock 3, sealedBlock 2, sealedBlock 1] ∧
        ((restart 5).runWith threeBlocks after ()).2.1.statistics = after.statistics := by
  have honest : threeBlocks.Honest sealedBlock :=
    { numbered := fun n => rfl
      byNumber := by
        intro n x h hserved
        cases hserved
        rfl
      latest := by
        intro x h hserved
        cases hserved
        rfl }
  have caches : farAhead.Caches sealedBlock := by
    intro entry hentry
    cases List.mem_singleton.mp hentry
    rfl
  have done : (restart 5).runWith threeBlocks farAhead () =
      (.ok (some ()), ((restart 5).runWith threeBlocks farAhead ()).2.1, ()) := rfl
  obtain ⟨head, hanswer, -, haccounts, -, hlast, -, hagain⟩ :=
    restart_eq_countAll honest (by decide) caches done
  cases hanswer
  exact ⟨honest, by decide, caches, _, done, hlast, haccounts, hagain _ rfl rfl⟩

end Monitor

end IstanbulMonitor
