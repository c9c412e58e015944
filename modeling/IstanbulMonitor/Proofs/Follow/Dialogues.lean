import IstanbulMonitor.Proofs.Follow.Phases

/-!
# What the dialogues of a run do to its phase

Every block that a run counts leads from one phase to the next: the replay (`ensures_replayed`), an
announced head (`ensures_takeHead`), the first polled head (`ensures_firstHead`) and a later poll
(`ensures_poll`). None of them fails, and the statistics are sound whenever a query is out, whatever
is mined in the meantime.
-/

set_option autoImplicit false

namespace IstanbulMonitor.Follow

variable {net : Network} {recover : SignerRecovery} {set : ValidatorSet} {mode : FollowMode}
  {window head : UInt64}

/-! ## Dialogues in a phase -/

/-- A monitor with the given recovery and validators in a phase of the run. -/
def Holds (recover : SignerRecovery) (set : ValidatorSet) (phase : Statistics → Upstream → Prop)
    (m : Monitor) (x : Upstream) : Prop :=
  m.recover = recover ∧ m.validators = set ∧ phase m.statistics x

/-- Such a monitor, with nothing but blocks of the chain in its cache. -/
def InPhase (net : Network) (recover : SignerRecovery) (set : ValidatorSet)
    (phase : Statistics → Upstream → Prop) (m : Monitor) (x : Upstream) : Prop :=
  Holds recover set phase m x ∧ m.Caches net.block

variable {phase : Statistics → Upstream → Prop} {I : Monitor → Upstream → Prop}

theorem lasting_holds (mined : ∀ s x, phase s x → phase s x.mine) :
    Monitor.Lasting net.gateway Upstream.Later (Holds recover set phase) where
  cache _ _ _ h := h
  journal _ _ _ h := h
  later _ _ _ hxy h := ⟨h.1, h.2.1, hxy.keeps (mined _) h.2.2⟩
  asked _ _ _ h := h

/-- A query that is not for a header neither changes the node nor the phase. -/
theorem ensures_attempt_ask {α δ : Type} {q : Query}
    (mined : ∀ s x, phase s x → phase s x.mine)
    (out : ∀ m x, Holds recover set phase m x → I m x)
    (same : ∀ x, (net.gateway q x).2 = x) (next : q.Answer → Inquiry MonitorError α)
    (quiet : ∀ a m, ∃ result, next a m = .done m result) :
    Inquiry.Ensures net.gateway Upstream.Later I
      (InPhase net recover set phase)
      ((Inquiry.ask q >>= next).attempt : Inquiry δ (Except MonitorError α))
      (fun _ => InPhase net recover set phase) (fun _ _ _ => False) := by
  have lasting : Monitor.Lasting net.gateway Upstream.Later (Holds recover set phase) :=
    lasting_holds mined
  refine .attempt (.bind (Q := fun _ => InPhase net recover set phase)
    (.ask (fun m x h => out m x h.1) ?_ ?_) ?_)
  · intro m x y a h hxy _
    rw [same]
    exact ⟨lasting.later m x y hxy h.1, h.2⟩
  · intro m x y e h hxy _
    rw [same]
    exact ⟨lasting.later m x y hxy h.1, h.2⟩
  · intro a m x h
    obtain ⟨result, hnext⟩ := quiet a m
    rw [hnext]
    cases result <;> exact h

/-- Asking the node about itself and its peers changes nothing, whatever it answers. -/
theorem ensures_greeting (mined : ∀ s x, phase s x → phase s x.mine)
    (out : ∀ m x, Holds recover set phase m x → I m x) :
    Inquiry.Ensures net.gateway Upstream.Later I
      (InPhase net recover set phase)
      (do
        greet
        greetPeers
        return Next.replay)
      (fun next m x => next = .replay ∧ InPhase net recover set phase m x)
      (fun _ _ _ => False) := by
  have greeted : Inquiry.Ensures net.gateway Upstream.Later I
      (InPhase net recover set phase) greet
      (fun _ => InPhase net recover set phase) (fun _ _ _ => False) := by
    refine .bind (ensures_attempt_ask mined out (fun x => rfl) _ ?_) ?_
    · intro a m
      cases a with
      | none => exact ⟨_, rfl⟩
      | some info => exact ⟨_, rfl⟩
    · intro result
      cases result with
      | ok info => exact .pure fun m x h => h
      | error e => exact .change fun m x h => h
  have peersGreeted : Inquiry.Ensures net.gateway Upstream.Later I
      (InPhase net recover set phase) greetPeers
      (fun _ => InPhase net recover set phase) (fun _ _ _ => False) := by
    refine .bind (ensures_attempt_ask mined out (fun x => rfl) _ ?_) ?_
    · intro a m
      cases a with
      | none => exact ⟨_, rfl⟩
      | some peers => exact ⟨_, rfl⟩
    · intro result
      cases result with
      | ok peers => exact .pure fun m x h => h
      | error e => exact .change fun m x h => h
  exact .bind greeted fun _ => .bind peersGreeted fun _ => .pure fun m x h => ⟨rfl, h⟩

/-- A block that the run asks for by its number is found. -/
theorem ensures_block (honest : net.Honest) (mined : ∀ s x, phase s x → phase s x.mine)
    (out : ∀ m x, Holds recover set phase m x → I m x) {n : UInt64}
    (has : ∀ s x, phase s x → n ≤ x.height) :
    Inquiry.Ensures net.gateway Upstream.Later I
      (InPhase net recover set phase)
      ((Monitor.header (.number n)).attempt : Inquiry RunError _)
      (fun result m x => result = .ok (net.block n) ∧
        InPhase net recover set phase m x)
      (fun _ _ _ => False) := by
  refine .attempt ((Monitor.ensures_header Network.There honest.gateway (lasting_holds mined) out
    fun m x h => has _ x h.2.2).weaken (fun m x h => h) ?_ ?_)
  · rintro h m x ⟨hm, rfl⟩
    exact ⟨rfl, hm⟩
  · rintro e m x ⟨-, hunreliable⟩
    exact absurd (Network.reliable_gateway net) hunreliable

/-- Counting a block whose signers are known succeeds and applies it to the statistics. -/
theorem count_of_seals {m : Monitor} {h : Header} {seals : Seals}
    (hseals : Seals.ofHeader m.recover h = .ok seals) :
    ∃ journal, m.count h = (.ok seals,
      { m with
        statistics := m.statistics.apply h.number seals.proposer seals.endorsers, journal }) := by
  rcases m.count_cases h with ⟨e, journal, hunread, -⟩ | ⟨seals', journal, hseals', hcount⟩
  · rw [hseals] at hunread
    cases hunread
  · rw [hseals] at hseals'
    cases hseals'
    exact ⟨journal, hcount⟩

-- the phase after a block is counted
variable {P : Statistics → Upstream → Prop}

/-- An operation that counts a block succeeds and leads to the next phase. -/
theorem ensures_applied {α : Type} {f : Monitor → Except MonitorError α × Monitor} (h : Header)
    (seals : Seals)
    (applies : ∀ m : Monitor, m.recover = recover → ∃ a journal, f m = (.ok a,
      { m with
        statistics := m.statistics.apply h.number seals.proposer seals.endorsers, journal }))
    (counts : ∀ s x, phase s x → P (s.apply h.number seals.proposer seals.endorsers) x) :
    Inquiry.Ensures net.gateway Upstream.Later I
      (InPhase net recover set phase)
      ((Inquiry.ofOperation f).attempt : Inquiry RunError _)
      (fun result m x => (∃ a, result = .ok a) ∧
        InPhase net recover set P m x)
      (fun _ _ _ => False) := by
  refine .attempt (.ofOperation ?_ ?_)
  · rintro m x a ⟨⟨hrecover, hset, hphase⟩, caches⟩ -
    obtain ⟨a', journal, hf⟩ := applies m hrecover
    rw [hf]
    exact ⟨⟨a, rfl⟩, ⟨hrecover, hset, counts _ x hphase⟩, caches⟩
  · rintro m x e ⟨⟨hrecover, -⟩, -⟩ he
    obtain ⟨a, journal, hf⟩ := applies m hrecover
    rw [hf] at he
    cases he

/-- A block whose signers are known is counted. -/
theorem ensures_countFirst {h : Header} {seals : Seals}
    (hseals : Seals.ofHeader recover h = .ok seals)
    (counts : ∀ s x, phase s x → P (s.apply h.number seals.proposer seals.endorsers) x) :
    Inquiry.Ensures net.gateway Upstream.Later I
      (InPhase net recover set phase) (countFirst h)
      (fun _ => InPhase net recover set P) (fun _ _ _ => False) := by
  refine .bind (ensures_applied h seals ?_ counts) ?_
  · rintro m rfl
    exact ⟨seals, count_of_seals hseals⟩
  · rintro result m x ⟨⟨a, rfl⟩, hm⟩
    exact hm

/-- A block whose signers are known is counted, and the report on it is published. -/
theorem ensures_process {h : Header} {previous : UInt64} {seals : Seals}
    (hseals : Seals.ofHeader recover h = .ok seals)
    (counts : ∀ s x, phase s x → P (s.apply h.number seals.proposer seals.endorsers) x) :
    Inquiry.Ensures net.gateway Upstream.Later I
      (InPhase net recover set phase) (process h previous)
      (fun _ => InPhase net recover set P) (fun _ _ _ => False) := by
  refine .bind (ensures_applied h seals ?_ counts) ?_
  · rintro m rfl
    obtain ⟨journal, hcount⟩ := count_of_seals hseals
    unfold Monitor.report
    rw [hcount]
    exact ⟨_, journal, rfl⟩
  · rintro result m x ⟨⟨report, rfl⟩, hm⟩
    exact hm

/-! ## The dialogues of a run -/

/-- The replay is started before the node was asked for its head, and it succeeds. -/
theorem ensures_replayed (honest : net.Honest) (known : SignersKnown recover net.block)
    (positive : window ≠ 0) :
    Inquiry.Ensures net.gateway Upstream.Later (fun _ _ => True)
      (InPhase net recover set Untouched) (replay window)
      (fun done m x => done = some () ∧
        ∃ head, InPhase net recover set (Replayed net recover set window head) m x)
      (fun _ _ _ => False) := by
  have untouched : Monitor.Lasting net.gateway Upstream.Later (Holds recover set Untouched) :=
    lasting_holds fun s x h => h.mine
  have restarted := Monitor.ensures_restart (I := fun _ _ => True)
    (R := fun h => Holds recover set (Asked h.number)) Upstream.Later Network.There recover
    positive honest.gateway untouched.toUnobservant untouched.later (fun _ _ _ => trivial)
    (fun _ _ h => h.2.1) (fun h => lasting_holds fun s x hx => hx.mine) (fun _ _ _ _ => trivial)
    (fun _ _ _ h => h.1) (fun h m x n hx hn => UInt64.le_trans hn hx.2.2.le) ?_
  · refine .mapError (restarted.weaken (fun m x h => h) ?_ ?_)
    · rintro _ _ x ⟨head, fresh, m, ⟨hrecover, hset, hasked⟩, caches, hcounts, rfl, rfl⟩
      -- the head is not the last block that there can be
      have hle := UInt64.le_iff_toNat_le.mp hasked.le
      have room : head.number.toNat + 1 < UInt64.size :=
        Nat.lt_of_le_of_lt (Nat.succ_le_succ hle) hasked.bounded
      obtain ⟨journal, hcommit⟩ :=
        m.exists_journal_commit fresh (Monitor.firstReplayed head.number window) head.number
      rw [hcommit, successor?_of_ne (ne_lastNumber_of_room room)]
      refine ⟨rfl, head.number, ⟨hrecover, hset, { hasked with last := rfl, counted := ?_ }⟩,
        caches⟩
      exact counted_replay honest hcounts none
    · -- the node reports a head and serves every block up to it
      rintro e m x ⟨-, ⟨y, -, hnone⟩ | ⟨-, hobstructed⟩⟩
      · exact absurd rfl (hnone (net.block y.height))
      · exact absurd ⟨Network.reliable_gateway net, known⟩ hobstructed
  · rintro m x h ⟨hrecover, hset, huntouched⟩ hanswer
    cases hanswer
    rw [honest.numbered]
    refine ⟨hrecover, hset, ?_, huntouched.opened, huntouched.queue, UInt64.le_refl _,
      huntouched.bounded⟩
    show x.heads ++ [x.height] = _
    rw [huntouched.heads]
    rfl

/-- An announced head is the next block to be counted. -/
theorem ensures_takeHead (honest : net.Honest) (known : SignersKnown recover net.block)
    (previous : Option UInt64) {opened e : UInt64} :
    Inquiry.Ensures net.gateway Upstream.Later (Sound net recover set .subscribe window)
      (InPhase net recover set
        (Listening net recover set window head opened e.toNat (e.toNat + 1)))
      (takeHead previous (net.announcement e))
      (fun _ => InPhase net recover set
        (Listening net recover set window head opened (e.toNat + 1) (e.toNat + 1)))
      (fun _ _ _ => False) := by
  obtain ⟨seals, hseals⟩ := known e
  let after := Listening net recover set window head opened (e.toNat + 1) (e.toNat + 1)
  have counts : ∀ s x,
      Listening net recover set window head opened e.toNat (e.toNat + 1) s x →
      after (s.apply (net.block e).number seals.proposer seals.endorsers) x := by
    intro s x listening
    obtain ⟨hcounted, hlast⟩ := listening.counted.next honest listening.next_eq hseals
    refine { listening with counted := hcounted, next_eq := ?_ }
    have := listening.next_eq
    rw [hlast]
    omega
  unfold takeHead
  rw [honest.announced]
  refine .bind (ensures_block honest (fun s x h => h.mine) (fun m x h => h.2.2.sound) ?_) ?_
  · intro s x listening
    have := listening.front_le
    rw [UInt64.le_iff_toNat_le]
    omega
  · rintro result m x ⟨rfl, hm⟩
    cases previous with
    | none =>
        exact Inquiry.Ensures.bind (R := fun _ => InPhase net recover set after)
          (ensures_countFirst hseals counts) (fun _ => .pure fun m x h => h) m x hm
    | some before =>
        exact Inquiry.Ensures.bind (R := fun _ => InPhase net recover set after)
          (ensures_process hseals counts) (fun _ => .pure fun m x h => h) m x hm

/-- The first polled head is where polling starts. -/
theorem ensures_firstHead (honest : net.Honest) (known : SignersKnown recover net.block) :
    Inquiry.Ensures net.gateway Upstream.Later (Sound net recover set .poll window)
      (InPhase net recover set (Replayed net recover set window head))
      firstHead
      (fun p m x => ∃ first, InPhase net recover set
        (Polling net recover set window head first p.last) m x)
      (fun _ _ _ => False) := by
  have replayed : Monitor.Lasting net.gateway Upstream.Later
      (Holds recover set (Replayed net recover set window head)) :=
    lasting_holds fun s x h => h.mine
  -- the node has reported a second head, which may be the first one again
  let joins (first : UInt64) (s : Statistics) (x : Upstream) : Prop :=
    x.heads = [head, first] ∧ Counted net recover set window head (some first.toNat) s ∧
      s.lastProcessed = head ∧ head ≤ first ∧ first ≤ x.height ∧
        x.height.toNat + 1 < UInt64.size
  have asked := Monitor.ensures_latest (I := Sound net recover set .poll window)
    (R := fun h => Holds recover set (joins h.number)) honest.gateway replayed.toUnobservant
    replayed.later (fun h => ⟨fun _ _ _ h => h, fun _ _ _ h => h⟩) (fun m x h => h.2.2.sound) ?_
  · refine .bind (.mapError (asked.weaken (fun m x h => h) (fun h m x hQ => hQ) ?_)) ?_
    · rintro e m x ⟨y, -, -, hnone⟩
      exact absurd rfl (hnone (net.block y.height))
    · rintro h m x ⟨hjoins, caches, hblock⟩
      obtain ⟨seals, hseals⟩ := known h.number
      rw [← hblock] at hseals
      refine Inquiry.Ensures.bind (ensures_process hseals
        (P := Polling net recover set window head h.number h.number) ?_)
        (fun _ => .pure fun m x hm => ⟨h.number, hm⟩) m x ⟨hjoins, caches⟩
      rintro s x ⟨hheads, hcounted, hlast, hle, hheight, hbounded⟩
      by_cases heq : h.number = head
      · -- the head of the replay is not counted again
        have hsame : s.apply h.number seals.proposer seals.endorsers = s :=
          Statistics.apply_of_le (by rw [hlast, heq]; exact UInt64.le_refl _) _ _
        rw [hsame]
        exact ⟨⟨[], hheads⟩, hcounted, hlast.trans heq.symm, UInt64.le_refl _, hheight, hbounded⟩
      · have hle' := UInt64.le_iff_toNat_le.mp hle
        have hne : h.number.toNat ≠ head.toNat := fun h' => heq (UInt64.toNat_inj.mp h')
        obtain ⟨hnext, hlast'⟩ := hcounted.next (k := h.number) honest
          (by rw [hlast]; omega) (by rw [← hblock]; exact hseals)
        rw [← hblock] at hnext hlast'
        exact ⟨⟨[], hheads⟩, hnext, hlast', UInt64.le_refl _, hheight, hbounded⟩
  · rintro m x h ⟨hrecover, hset, hreplayed⟩ hanswer
    cases hanswer
    rw [honest.numbered]
    refine ⟨hrecover, hset, ?_, hreplayed.counted.rejoin hreplayed.last _, hreplayed.last,
      hreplayed.le, UInt64.le_refl _, hreplayed.bounded⟩
    show x.heads ++ [x.height] = _
    rw [hreplayed.heads]
    rfl

/-- Polling takes in the blocks one after another. -/
theorem ensures_catchUp (honest : net.Honest) (known : SignersKnown recover net.block)
    {first : UInt64} (top : UInt64) :
    ∀ (n : Nat) (p : Progress), p.last.toNat + n ≤ top.toNat →
      Inquiry.Ensures net.gateway Upstream.Later (Sound net recover set .poll window)
        (InPhase net recover set (fun s x =>
          Polling net recover set window head first p.last s x ∧ top ≤ x.height))
        (catchUp n p)
        (fun p' => InPhase net recover set (Polling net recover set window head first p'.last))
        (fun _ _ _ => False) := by
  intro n
  -- the node keeps what it has, so every block up to `top` can be asked for until the end
  induction n with
  | zero => exact fun p _ => .pure fun m x h => ⟨⟨h.1.1, h.1.2.1, h.1.2.2.1⟩, h.2⟩
  | succ n ih =>
      intro p hsum
      have htop := top.toNat_lt
      have hnumber : (p.last + 1).toNat = p.last.toNat + 1 := toNat_next (by omega)
      obtain ⟨seals, hseals⟩ := known (p.last + 1)
      rw [catchUp]
      refine .bind (ensures_block honest ?_ (fun m x h => h.2.2.1.sound) ?_) ?_
      · exact fun s x h => ⟨h.1.mine, UInt64.le_trans h.2 x.height_le_mine⟩
      · rintro s x ⟨-, hle⟩
        have := UInt64.le_iff_toNat_le.mp hle
        rw [UInt64.le_iff_toNat_le]
        omega
      · rintro result m x ⟨rfl, hm⟩
        refine Inquiry.Ensures.bind (ensures_process hseals (P := fun s x =>
          Polling net recover set window head first (p.last + 1) s x ∧ top ≤ x.height) ?_)
          (fun _ => ih ⟨p.last + 1, _⟩ (by show (p.last + 1).toNat + n ≤ _; omega)) m x hm
        rintro s x ⟨polling, hle⟩
        have hle' := UInt64.le_iff_toNat_le.mp hle
        have hfirst := UInt64.le_iff_toNat_le.mp polling.first_le
        obtain ⟨hnext, hlast⟩ := polling.counted.next (k := p.last + 1) honest
          (by rw [polling.last_eq]; omega) hseals
        refine ⟨⟨polling.heads, hnext, hlast, ?_, ?_, polling.bounded⟩, hle⟩
        · rw [UInt64.le_iff_toNat_le]
          omega
        · rw [UInt64.le_iff_toNat_le]
          omega

/-- A poll takes in every block up to the head that the node reports. -/
theorem ensures_poll (honest : net.Honest) (known : SignersKnown recover net.block)
    {first : UInt64} (p : Progress) :
    Inquiry.Ensures net.gateway Upstream.Later (Sound net recover set .poll window)
      (InPhase net recover set (Polling net recover set window head first p.last))
      (poll p)
      (fun result m x => ∃ p', result = some p' ∧
        InPhase net recover set (Polling net recover set window head first p'.last) m x)
      (fun _ _ _ => False) := by
  have polling : Monitor.Lasting net.gateway Upstream.Later
      (Holds recover set (Polling net recover set window head first p.last)) :=
    lasting_holds fun s x h => h.mine
  have asked := Monitor.ensures_latest (I := Sound net recover set .poll window)
    (R := fun h => Holds recover set fun s x =>
      Polling net recover set window head first p.last s x ∧ x.height = h.number)
    honest.gateway polling.toUnobservant polling.later
    (fun h => ⟨fun _ _ _ h => h, fun _ _ _ h => h⟩) (fun m x h => h.2.2.sound) ?_
  · refine .bind (Q := fun result m x => ∃ top, result = .ok top ∧
      InPhase net recover set (fun s x =>
        Polling net recover set window head first p.last s x ∧ x.height = top) m x)
      (.attempt (.bind (asked.weaken (fun m x h => h)
          (fun h m x hQ => hQ) ?_) ?_)) ?_
    · rintro e m x ⟨y, -, -, hnone⟩
      exact absurd rfl (hnone (net.block y.height))
    · exact fun h => .pure fun m x hQ => ⟨h.number, rfl, hQ.1, hQ.2.1⟩
    · rintro result m x ⟨top, rfl, ⟨hrecover, hset, hpolling, rfl⟩, caches⟩
      have hle := UInt64.le_iff_toNat_le.mp hpolling.last_le
      have hbounded := hpolling.bounded
      have room : p.last.toNat + 1 < UInt64.size :=
        Nat.lt_of_le_of_lt (Nat.succ_le_succ hle) hbounded
      simp only [ahead?_of_ne (ne_lastNumber_of_room room)]
      refine Inquiry.Ensures.bind (ensures_catchUp honest known x.height _ p (by omega))
        (fun p' => .pure fun m x h => ⟨p', rfl, h⟩) m x
        ⟨⟨hrecover, hset, hpolling, UInt64.le_refl _⟩, caches⟩
  · rintro m x h ⟨hrecover, hset, hpolling⟩ hanswer
    cases hanswer
    rw [honest.numbered]
    obtain ⟨rest, hheads⟩ := hpolling.heads
    refine ⟨hrecover, hset, { hpolling with heads := ⟨rest ++ [x.height], ?_⟩ }, rfl⟩
    show x.heads ++ [x.height] = _
    rw [hheads]
    rfl

end IstanbulMonitor.Follow
