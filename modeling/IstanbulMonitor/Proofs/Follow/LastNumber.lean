import IstanbulMonitor.Proofs.Follow.Endurance
import IstanbulMonitor.Proofs.Monitor.Metering

/-!
# The last number that a block can have

The numbers of blocks have 64 bits, and a node may report any of them. A restart finds its first
block without leaving that range, and asks for blocks between it and the head only; but if the head
has the last number of all, it panics in search of the next one, after the counts have changed and
before the metrics do (`Restarted`). A poll asks for blocks above the last one that it took in, up
to the head (`PollsFrom`); but if that block had the last number of all, the run panics. These are
the only two ways to panic: `numbered_within` says this of every restart and of every poll of a run,
and `numbers_overflow` shows both.
-/

set_option autoImplicit false

namespace IstanbulMonitor

variable {γ : Type} {g : Gateway γ}

namespace Fetch

variable {low low' high high' : Nat} {fetches more : List Fetch}

/-- All fetches ask for blocks by number, from `low` up to `high`. -/
def Between (low high : Nat) (fetches : List Fetch) : Prop :=
  ∀ f ∈ fetches, ∃ n : UInt64, f.1 = .number n ∧ low ≤ n.toNat ∧ n.toNat ≤ high

theorem between_nil : Between low high [] := fun _ mem => absurd mem List.not_mem_nil

theorem between_singleton {n : UInt64} {answer : Except MonitorError (Option Header)}
    (hlow : low ≤ n.toNat) (hhigh : n.toNat ≤ high) : Between low high [(.number n, answer)] := by
  intro f mem
  rw [List.mem_singleton.mp mem]
  exact ⟨n, rfl, hlow, hhigh⟩

theorem Between.append (first : Between low high fetches) (rest : Between low high more) :
    Between low high (fetches ++ more) := by
  intro f mem
  rcases List.mem_append.mp mem with mem | mem
  · exact first f mem
  · exact rest f mem

theorem Between.mono (between : Between low' high' fetches) (hlow : low ≤ low')
    (hhigh : high' ≤ high) : Between low high fetches := by
  intro f mem
  obtain ⟨n, hf, hn, hn'⟩ := between f mem
  exact ⟨n, hf, hlow.trans hn, hn'.trans hhigh⟩

end Fetch

open Fetch (Between between_nil between_singleton)

/-- A block is fetched under its own number, if at all. -/
theorem Follow.Obtains.between {n : UInt64} {h : Header} {fetches : List Fetch} {low high : Nat}
    (obtains : Follow.Obtains n h fetches) (hlow : low ≤ n.toNat) (hhigh : n.toNat ≤ high) :
    Between low high fetches := by
  cases obtains with
  | kept => exact between_nil
  | fetched => exact between_singleton hlow hhigh

/-! ## Restarts -/

namespace Monitor

open Follow (Intake TookIn)

variable {m m₀ : Monitor} {log₀ : List Fetch} {before : Intake} {t : Meter}

/-- What was taken in before, and fetches from `low` up to `high`. -/
def AskedBetween (m₀ : Monitor) (log₀ : List Fetch) (before : Intake) (low high : Nat)
    (m : Monitor) (s : γ × List Fetch) : Prop :=
  ∃ fetches, Between low high fetches ∧ TookIn m₀ log₀ (before ++ { fetches }) m s.2

namespace AskedBetween

variable {low high : Nat}

theorem nothing {s : γ × List Fetch} (tookIn : TookIn m₀ log₀ before m s.2) :
    AskedBetween m₀ log₀ before low high m s := by
  refine ⟨[], between_nil, ?_⟩
  rwa [Intake.append_nothing]

/-- The signers of a header are named without asking the node. -/
theorem ensures_signers (h : Header) :
    Inquiry.Ensures g.logged Eq (fun _ _ => True)
      (fun m s => AskedBetween m₀ log₀ before low high m s ∧ m.meter = t) (signers h)
      (fun _ m s => AskedBetween m₀ log₀ before low high m s ∧ m.meter = t)
      (fun _ => AskedBetween m₀ log₀ before low high) := by
  have kept : ∀ {m : Monitor} {s : γ × List Fetch}, AskedBetween m₀ log₀ before low high m s →
      AskedBetween m₀ log₀ before low high (m.extract h).2 s := by
    rintro m s ⟨fetches, between, tookIn⟩
    obtain ⟨journal, hextract⟩ := exists_journal_extract m h
    rw [hextract]
    exact ⟨fetches, between, tookIn.of_journal journal⟩
  refine .ofOperation ?_ ?_
  · rintro m s seals ⟨asked, rfl⟩ named
    exact ⟨kept asked, meter_extract_of_ok (ofHeader_of_extract named)⟩
  · rintro m s e ⟨asked, -⟩ -
    exact kept asked

/-- One more block from `low` up to `high` is asked for, or it is in the cache. -/
theorem ensures_block {number : UInt64} (hlow : low ≤ number.toNat) (hhigh : number.toNat ≤ high) :
    Inquiry.Ensures g.logged Eq (fun _ _ => True)
      (fun m s => AskedBetween m₀ log₀ before low high m s ∧ m.meter = t)
      (header (.number number))
      (fun _ m s => AskedBetween m₀ log₀ before low high m s ∧ m.meter = t)
      (fun _ => AskedBetween m₀ log₀ before low high) := by
  rintro m s ⟨⟨fetches, between, tookIn⟩, hmeter⟩
  have asked : Inquiry.Ensures g.logged Eq (fun _ _ => True)
      (fun m s => TookIn m₀ log₀ (before ++ { fetches }) m s.2 ∧ m.meter = t)
      (header (.number number)) _ _ :=
    (TookIn.ensures_block number).and (ensures_meter_header (.number number))
  refine asked.weaken (fun m s hP => hP) ?_ ?_ m s ⟨tookIn, hmeter⟩
  · rintro h m s ⟨⟨more, obtains, tookIn⟩, hmeter⟩
    rw [Intake.append_assoc] at tookIn
    exact ⟨⟨fetches ++ more, between.append (obtains.between hlow hhigh), tookIn⟩, hmeter⟩
  · rintro e m s ⟨⟨answer, -, tookIn⟩, -⟩
    rw [Intake.append_assoc] at tookIn
    exact ⟨_, between.append (between_singleton hlow hhigh), tookIn⟩

/-- A replay asks for blocks from its first number on, and for none from the head on. -/
theorem ensures_replay {head : Header} (n : Nat) (number : UInt64) (fresh : Statistics)
    (left : n ≠ 0 → low ≤ number.toNat ∧ number.toNat + n = head.number.toNat + 1) :
    Inquiry.Ensures g.logged Eq (fun _ _ => True)
      (fun m s => AskedBetween m₀ log₀ before low (head.number.toNat - 1) m s ∧ m.meter = t)
      (replay head n number fresh)
      (fun _ m s => AskedBetween m₀ log₀ before low (head.number.toNat - 1) m s ∧ m.meter = t)
      (fun _ => AskedBetween m₀ log₀ before low (head.number.toNat - 1)) := by
  induction n generalizing number fresh with
  | zero => exact .pure fun m s hP => hP
  | succ n ih =>
    -- the numbers that are left end with the head, so the next one does not wrap around before it
    obtain ⟨hlow, hsum⟩ := left n.succ_ne_zero
    have hbound := head.number.toNat_lt
    have next : n ≠ 0 →
        low ≤ (number + 1).toNat ∧ (number + 1).toNat + n = head.number.toNat + 1 := by
      intro hn
      rw [toNat_next (by omega)]
      omega
    have rest : ∀ h : Header, Inquiry.Ensures g.logged Eq (fun _ _ => True)
        (fun m s => AskedBetween m₀ log₀ before low (head.number.toNat - 1) m s ∧ m.meter = t)
        (do
          let seals ← signers h
          replay head n (number + 1) (fresh.apply h.number seals.proposer seals.endorsers))
        (fun _ m s => AskedBetween m₀ log₀ before low (head.number.toNat - 1) m s ∧ m.meter = t)
        (fun _ => AskedBetween m₀ log₀ before low (head.number.toNat - 1)) := by
      intro h
      exact .bind (ensures_signers h) fun seals => ih (number + 1) _ next
    rw [replay]
    by_cases hhead : number = head.number
    · rw [if_pos hhead]
      exact rest head
    · rw [if_neg hhead]
      have hne : number.toNat ≠ head.number.toNat := mt UInt64.toNat_inj.mp hhead
      exact .bind (ensures_block hlow (by omega)) rest

end AskedBetween

/-- The first number of a restart: `window` before the head, but not zero. -/
def firstNumber (head window : UInt64) : Nat := max (head.toNat - window.toNat) 1

/-- What a restart does with the numbers of blocks, the meter being at `t` before it. -/
inductive Restarted (window : UInt64) (t : Meter) :
    Except MonitorError (Option Unit) → Meter → List Fetch → Prop where
  /-- Without a window nothing is asked. -/
  | reset (zero : window = 0) : Restarted window t (.ok (some ())) t []
  /-- The head is fetched in vain. -/
  | headless {answer : Except MonitorError (Option Header)} {e : MonitorError} {t' : Meter}
      (fails : Fetch.failure? (.latest, answer) = some e) :
      Restarted window t (.error e) t' [(.latest, answer)]
  /-- A block before the head cannot be had, or the signers of one are not known. -/
  | stopped {head : Header} {fetches : List Fetch} {e : MonitorError} {t' : Meter}
      (between : Between (firstNumber head.number window) (head.number.toNat - 1) fetches) :
      Restarted window t (.error e) t' ((.latest, .ok (some head)) :: fetches)
  /-- The blocks up to the head are counted, and as many are added to the metrics. -/
  | counted {head : Header} {fetches : List Fetch} (room : head.number ≠ lastNumber)
      (between : Between (firstNumber head.number window) (head.number.toNat - 1) fetches) :
      Restarted window t (.ok (some ()))
        (t.count (head.number.toNat + 1 - firstNumber head.number window) head.number)
        ((.latest, .ok (some head)) :: fetches)
  /-- The head has the last number of all: the restart panics once its statistics are in place. -/
  | panicked {head : Header} {fetches : List Fetch} (full : head.number = lastNumber)
      (between : Between (firstNumber head.number window) (head.number.toNat - 1) fetches) :
      Restarted window t (.ok none) t ((.latest, .ok (some head)) :: fetches)

/-- The head is asked for, and nothing else changes. -/
theorem ensures_asked_latest (m₀ : Monitor) (x : γ) :
    Inquiry.Ensures g.logged Eq (fun _ _ => True) (fun m s => m = m₀ ∧ s = (x, []))
      (header .latest)
      (fun head m s => TookIn m₀ [] { fetches := [(.latest, .ok (some head))] } m s.2 ∧
        m.meter = m₀.meter)
      (fun e _ s => ∃ answer, Fetch.failure? (.latest, answer) = some e ∧
        s.2 = [(.latest, answer)]) := by
  have asked : Inquiry.Ensures g.logged Eq (fun _ _ => True)
      (fun m s => TookIn m₀ [] {} m s.2 ∧ s = (x, [])) (header .latest) _ _ :=
    TookIn.ensures_latest (x, [])
  have metered := ensures_meter_header (g := g.logged) (t := m₀.meter) .latest
  refine (asked.and metered).weaken ?_ ?_ ?_
  · rintro _ _ ⟨rfl, rfl⟩
    exact ⟨⟨.nothing _ [], rfl⟩, rfl⟩
  · rintro head m s ⟨⟨-, tookIn⟩, hmeter⟩
    exact ⟨tookIn, hmeter⟩
  · rintro e m s ⟨⟨answer, -, fails, tookIn⟩, -, -⟩
    exact ⟨answer, fails, tookIn.log_eq⟩

theorem ensures_restarted (window : UInt64) (m₀ : Monitor) (x : γ) :
    Inquiry.Ensures g.logged Eq (fun _ _ => True) (fun m s => m = m₀ ∧ s = (x, []))
      (restart window)
      (fun result m s => Restarted window m₀.meter (.ok result) m.meter s.2)
      (fun e m s => Restarted window m₀.meter (.error e) m.meter s.2) := by
  unfold restart
  by_cases zero : window = 0
  · rw [if_pos zero]
    refine .change_pure ?_
    rintro _ _ ⟨rfl, rfl⟩
    exact .reset zero
  rw [if_neg zero]
  refine .bind (Q := fun _ m s => m = m₀ ∧ s = (x, [])) (.current fun m s hP => hP) fun seeded => ?_
  refine .bind ((ensures_asked_latest m₀ x).weaken (fun m s hP => hP) (fun head m s hQ => hQ) ?_)
    fun head => ?_
  · rintro e m s ⟨answer, fails, hlog⟩
    rw [hlog]
    exact .headless fails
  have left : head.number.toNat + 1 - (firstReplayed head.number window).toNat ≠ 0 →
      firstNumber head.number window ≤ (firstReplayed head.number window).toNat ∧
        (firstReplayed head.number window).toNat + (head.number.toNat + 1 -
          (firstReplayed head.number window).toNat) = head.number.toNat + 1 := by
    intro some_left
    rw [firstNumber, ← toNat_firstReplayed]
    omega
  refine .bind ((AskedBetween.ensures_replay _ _ _ left).weaken
    (fun m s hP => ⟨.nothing hP.1, hP.2⟩) (fun fresh m s hQ => hQ) ?_) fun fresh => .change_pure ?_
  · rintro e m s ⟨fetches, between, tookIn⟩
    rw [tookIn.log_eq]
    exact .stopped between
  · rintro m s ⟨⟨fetches, between, tookIn⟩, hmeter⟩
    rw [tookIn.log_eq]
    by_cases full : head.number = lastNumber
    · rw [full, meter_commit_lastNumber, successor?_lastNumber, hmeter]
      exact .panicked full between
    · rw [meter_commit _ _ _ full, successor?_of_ne full, toNat_firstReplayed, hmeter]
      exact .counted full between

/-- Every restart goes in one of these ways. -/
theorem restarted (g : Gateway γ) (window : UInt64) (m : Monitor) (x : γ) :
    let after := (restart window).runWith g.logged m (x, [])
    Restarted window m.meter after.1 after.2.1.meter after.2.2.2 := by
  have hrun := (ensures_restarted (g := g) window m x).runWith ⟨rfl, rfl⟩
  rcases hafter : (restart window).runWith g.logged m (x, []) with ⟨result, m', s⟩
  rw [hafter] at hrun
  cases result <;> exact hrun

end Monitor

/-! ## Polls -/

namespace Follow

variable {p : Progress} {last head : UInt64} {n : Nat} {fetches : List Fetch}
  {blocks : List Header} {failure : Option MonitorError}

/-- As long as there are numbers for them, blocks are asked for above the last one. -/
theorem CatchesUp.between (caught : CatchesUp n last fetches blocks failure)
    (room : last.toNat + n < 0x10000000000000000) :
    Between (last.toNat + 1) (last.toNat + n) fetches := by
  induction caught with
  | done last => exact between_nil
  | @missed n last answer e fails =>
    have hnext : (last + 1).toNat = last.toNat + 1 := toNat_next (by omega)
    exact between_singleton (by omega) (by omega)
  | @next n last h first fetches blocks failure obtains rest ih =>
    have hnext : (last + 1).toNat = last.toNat + 1 := toNat_next (by omega)
    have hfirst : Between (last.toNat + 1) (last.toNat + (n + 1)) first :=
      obtains.between (by omega) (by omega)
    exact hfirst.append ((ih (by omega)).mono (by omega) (by omega))

/-- What a poll does with the numbers of blocks, if there is one after the last. -/
inductive PollsFrom (p : Progress) : List Fetch → List Header → Prop where
  /-- The head is fetched in vain. -/
  | headless {answer : Except MonitorError (Option Header)} {e : MonitorError}
      (fails : Fetch.failure? (.latest, answer) = some e) : PollsFrom p [(.latest, answer)] []
  /-- Blocks are asked for above the last one, up to the head. -/
  | above {head : Header} {fetches : List Fetch} {blocks : List Header}
      (room : p.last ≠ lastNumber)
      (between : Between (p.last.toNat + 1) head.number.toNat fetches)
      (few : blocks.length ≤ head.number.toNat - p.last.toNat)
      (last_eq : (p.advance blocks).last.toNat = p.last.toNat + blocks.length) :
      PollsFrom p ((.latest, .ok (some head)) :: fetches) blocks

theorem Turn.Brings.pollsFrom {t : Turn} (brings : t.Brings (.tick p) fetches blocks failure) :
    PollsFrom p fetches blocks := by
  cases brings with
  | headless fails => exact .headless fails
  | @polled p head n fetches blocks failure counted caught =>
    obtain ⟨room, rfl⟩ := ahead?_eq_some.mp counted
    have hlast := p.last.toNat_lt
    have hhead := head.number.toNat_lt
    have few := caught.length_le
    have between : Between (p.last.toNat + 1) head.number.toNat fetches := by
      rcases Nat.lt_or_ge p.last.toNat head.number.toNat with hlt | hge
      · exact (caught.between (by omega)).mono (Nat.le_refl _) (by omega)
      · -- the head is no further than the last block
        have hnone : head.number.toNat - p.last.toNat = 0 := by omega
        rw [hnone] at caught
        cases caught
        exact between_nil
    exact .above room between few (p.toNat_advance blocks (by omega))

/-- The next poll of a run that waits for a tick. -/
theorem exists_pollsFrom {r : Run} {m m' : Monitor} {x : γ}
    (fetched : ∃ head, (g (.header .latest) x).1 = .ok (some head)) (turns : List Turn)
    (hstage : (r.afterTurns g m x turns).1.stage = .waiting m' (.tick p)) :
    let log := (r.afterTurns g m x turns).2.2
    let after := r.afterTurns g m x (turns ++ [.tick])
    (∃ fetches blocks, PollsFrom p fetches blocks ∧ after.2.2 = log ++ fetches ∧
        ((∃ m'', after.1.stage = .waiting m'' (.tick (p.advance blocks))) ∨
          ∃ m'' e, after.1.stage = .ended m'' (.error (.sessionTerminated e)))) ∨
      p.last = lastNumber ∧ ∃ (head : Header) (m'' : Monitor),
        after.2.2 = log ++ [(.latest, .ok (some head))] ∧ after.1.stage = .panicked m'' := by
  have turned := (endures g r m x (fun _ => fetched) turns).turned m' (.tick p) hstage .tick
  dsimp only
  revert turned
  generalize (r.afterTurns g m x (turns ++ [.tick])).1.stage = stage
  generalize (r.afterTurns g m x (turns ++ [.tick])).2.2 = log
  intro turned
  cases turned with
  | idle idle => cases idle
  | goesOn brings lives tells tookIn =>
    exact .inl ⟨_, _, brings.pollsFrom, tookIn.log_eq, .inl ⟨_, rfl⟩⟩
  | sessionDead brings terminal tells tookIn =>
    exact .inl ⟨_, _, brings.pollsFrom, tookIn.log_eq, .inr ⟨_, _, rfl⟩⟩
  | panics last_eq tookIn => exact .inr ⟨last_eq, _, _, tookIn.log_eq, rfl⟩

/-! ## The main theorem -/

/-- **Block numbers stay in range below the last one.** Whatever heads and headers a node reports, a
restart asks for blocks from its window up to the head only, and adds as many as it counts to the
metrics, unless the head has the last number of all. A polling run is never further than a head that
it was told, and each of its polls asks for blocks above the last one that it took in, up to the
head, unless that block has the last number of all. In these two cases the program panics, and only
in these: the restart with its statistics in place and the metrics as they were, the poll once the
head is known and before it asks for any block. -/
theorem numbered_within (g : Gateway γ) :
    (∀ (window : UInt64) (m : Monitor) (x : γ),
      let after := (Monitor.restart window).runWith g.logged m (x, [])
      Monitor.Restarted window m.meter after.1 after.2.1.meter after.2.2.2) ∧
    ∀ (r : Run) (m : Monitor) (x : γ), (∃ head, (g (.header .latest) x).1 = .ok (some head)) →
      ∀ (turns : List Turn) (m' : Monitor) (p : Progress),
        (r.afterTurns g m x turns).1.stage = .waiting m' (.tick p) →
          let log := (r.afterTurns g m x turns).2.2
          let after := r.afterTurns g m x (turns ++ [.tick])
          Fetch.Reaches log p.last ∧
            ((∃ fetches blocks, PollsFrom p fetches blocks ∧ after.2.2 = log ++ fetches ∧
                ((∃ m'', after.1.stage = .waiting m'' (.tick (p.advance blocks))) ∨
                  ∃ m'' e, after.1.stage = .ended m'' (.error (.sessionTerminated e)))) ∨
              p.last = lastNumber ∧ ∃ (head : Header) (m'' : Monitor),
                after.2.2 = log ++ [(.latest, .ok (some head))] ∧ after.1.stage = .panicked m'') := by
  refine ⟨fun window m x => Monitor.restarted g window m x, ?_⟩
  intro r m x fetched turns m' p hstage
  have reaches := (endures g r m x (fun _ => fetched) turns).reaches m' p hstage
  exact ⟨reaches, exists_pollsFrom fetched turns hstage⟩

/-- A run that polls, ready to start. -/
def pollingRun : Run := ⟨0, .poll, .ready (Monitor.make {} ⟨[]⟩ Monitor.spelledOut), 0, 0⟩

/-- A monitor that has counted nothing. -/
def countedNothing : Monitor := (Monitor.make {} ⟨[]⟩ Monitor.spelledOut).watch (.ofMembers [.zero])

/-- Block five is the head, then block seven is, and block six is there. -/
def twoAhead : List (Except MonitorError (Option Header)) :=
  [.ok (some (Monitor.sealedBlock 5)), .ok (some (Monitor.sealedBlock 7)),
   .ok (some (Monitor.sealedBlock 6))]

/-- The first poll after block five starts from there. -/
theorem numbered_within_twoAhead :
    (∃ head, (reciting (.header .latest) twoAhead).1 = .ok (some head)) ∧
      (∃ m', (pollingRun.afterTurns reciting countedNothing twoAhead []).1.stage =
        .waiting m' (.tick ⟨5, 0⟩)) ∧
      ∃ fetches blocks, PollsFrom ⟨5, 0⟩ fetches blocks ∧
        (pollingRun.afterTurns reciting countedNothing twoAhead [.tick]).2.2 =
          (pollingRun.afterTurns reciting countedNothing twoAhead []).2.2 ++ fetches := by
  have fetched : ∃ head, (reciting (.header .latest) twoAhead).1 = .ok (some head) := ⟨_, rfl⟩
  have hstage : (pollingRun.afterTurns reciting countedNothing twoAhead []).1.stage =
      .waiting _ (.tick ⟨5, 0⟩) := rfl
  obtain ⟨-, ⟨fetches, blocks, polls, hlog, -⟩ | ⟨full, -⟩⟩ :=
    (numbered_within reciting).2 pollingRun countedNothing twoAhead fetched [] _ _ hstage
  · exact ⟨fetched, ⟨_, hstage⟩, fetches, blocks, polls, hlog⟩
  · exact absurd full (by decide)

/-- The head has the last number of all, and the block before it is there. -/
def atTheEnd : List (Except MonitorError (Option Header)) :=
  [.ok (some (Monitor.sealedBlock lastNumber)), .ok (some (Monitor.sealedBlock (lastNumber - 1)))]

/-- A run that panicked. -/
def Stage.hasPanicked : Stage → Bool
  | .panicked _ => true
  | _ => false

/-- Two blocks up to the last number of all are counted, and then the program panics, without a word
of them in the metrics. A run that polls after the last number of all panics as soon as it has asked
for the head. -/
theorem numbers_overflow :
    let m := ((Monitor.restart 1).runWith reciting countedNothing atTheEnd).2.1
    let told := [.ok (some (Monitor.sealedBlock lastNumber)),
      .ok (some (Monitor.sealedBlock lastNumber)), .ok none]
    ((Monitor.restart 1).runWith reciting countedNothing atTheEnd).1 = .ok none ∧
      m.statistics.lastProcessed = lastNumber ∧
      m.statistics.counters.proposals.count (.ofNat 20 1) = 2 ∧ m.journal.metrics.blocks = 0 ∧
      (pollingRun.afterTurns reciting countedNothing told [.tick]).1.stage.hasPanicked = true ∧
      (pollingRun.afterTurns reciting countedNothing told [.tick]).2.2.map (·.1) =
        [.latest, .latest] := by
  intro m told
  refine ⟨rfl, ?_, ?_, ?_, ?_, ?_⟩ <;> decide +kernel

end Follow

end IstanbulMonitor
