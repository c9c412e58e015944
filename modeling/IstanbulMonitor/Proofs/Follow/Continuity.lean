import IstanbulMonitor.Proofs.Follow.Dialogues
import IstanbulMonitor.Proofs.Istanbul.Layout

/-!
# Which blocks a run counts

A run counts the last blocks first and then follows the chain. The two join up if no block is mined
between the moment at which the node reports the head for the replay and the moment at which the
following starts. The blocks that are mined in between are lost, and no other block ever is
(`counted_after`).

`StageSound` says what holds at each stage of a run. A dialogue with the node keeps the statistics
sound at every query, whatever is mined while the query is out, and ends in a state from which the
run can go on.
-/

set_option autoImplicit false

namespace IstanbulMonitor.Follow

variable {net : Network} {recover : SignerRecovery} {set : ValidatorSet} {mode : FollowMode}
  {window head : UInt64}

/-! ## The stages of a run -/

/-- The phase in which a run comes to what is next. It never panics, since no head has the last
number of all. -/
def phaseOf (net : Network) (recover : SignerRecovery) (set : ValidatorSet) (mode : FollowMode)
    (window : UInt64) : Next → Statistics → Upstream → Prop
  | .replay, s, x => Untouched s x
  | .subscribe, s, x => mode = .subscribe ∧ ∃ head, Replayed net recover set window head s x ∨
      ∃ opened, Listening net recover set window head opened (opened.toNat + 1)
        (opened.toNat + 1) s x
  | .firstHead, s, x => mode = .poll ∧ ∃ head, Replayed net recover set window head s x
  | .head _, s, x => mode = .subscribe ∧ ∃ head opened next,
      Listening net recover set window head opened next next s x
  | .tick p, s, x => mode = .poll ∧ ∃ head first,
      Polling net recover set window head first p.last s x
  | .panic, _, _ => False

/-- A monitor with which a run can go on to what is next. -/
def At (net : Network) (recover : SignerRecovery) (set : ValidatorSet) (mode : FollowMode)
    (window : UInt64) (next : Next) (m : Monitor) (x : Upstream) : Prop :=
  InPhase net recover set (phaseOf net recover set mode window next) m x

/-- The work of a run never fails. -/
def Outcome (net : Network) (recover : SignerRecovery) (set : ValidatorSet) (mode : FollowMode)
    (window : UInt64) (result : Except RunError Next) (m : Monitor) (x : Upstream) : Prop :=
  match result with
  | .ok next => At net recover set mode window next m x
  | .error _ => False

/-- What holds at each stage. While the statistics are held by the replay nobody sees them. -/
def StageSound (net : Network) (recover : SignerRecovery) (set : ValidatorSet) (mode : FollowMode)
    (window : UInt64) (x : Upstream) : Stage → Prop
  | .ready m => At net recover set mode window .replay m x
  | .working true d => d.Ensures net.gateway Upstream.Later (fun _ _ => True)
      (Outcome net recover set mode window) x
  | .working false d => d.Ensures net.gateway Upstream.Later (Sound net recover set mode window)
      (Outcome net recover set mode window) x
  | .waiting m next => At net recover set mode window next m x
  | .ended m _ => Sound net recover set mode window m x
  | .panicked _ => False

variable {x : Upstream} {m : Monitor}

theorem phaseOf_mine {next : Next} {s : Statistics}
    (h : phaseOf net recover set mode window next s x) :
    phaseOf net recover set mode window next s x.mine := by
  cases next with
  | replay => exact Untouched.mine h
  | subscribe =>
      obtain ⟨hmode, head, replayed | ⟨opened, listening⟩⟩ := h
      · exact ⟨hmode, head, Or.inl replayed.mine⟩
      · exact ⟨hmode, head, Or.inr ⟨opened, listening.mine⟩⟩
  | firstHead =>
      obtain ⟨hmode, head, replayed⟩ := h
      exact ⟨hmode, head, replayed.mine⟩
  | head previous =>
      obtain ⟨hmode, head, opened, next, listening⟩ := h
      exact ⟨hmode, head, opened, next, listening.mine⟩
  | tick p =>
      obtain ⟨hmode, head, first, polling⟩ := h
      exact ⟨hmode, head, first, polling.mine⟩
  | panic => exact h

theorem sound_of_phaseOf {next : Next}
    (h : phaseOf net recover set mode window next m.statistics x) :
    Sound net recover set mode window m x := by
  cases next with
  | replay => exact Untouched.sound h
  | subscribe =>
      obtain ⟨rfl, head, replayed | ⟨opened, listening⟩⟩ := h
      · exact replayed.sound
      · exact listening.sound
  | firstHead =>
      obtain ⟨-, head, replayed⟩ := h
      exact replayed.sound
  | head previous =>
      obtain ⟨rfl, head, opened, next, listening⟩ := h
      exact listening.sound
  | tick p =>
      obtain ⟨rfl, head, first, polling⟩ := h
      exact polling.sound
  | panic => exact h.elim

/-- Whatever is mined at any moment, a stage stays sound. -/
theorem StageSound.mine {stage : Stage} (h : StageSound net recover set mode window x stage) :
    StageSound net recover set mode window x.mine stage := by
  have atMine : ∀ {next m x}, At net recover set mode window next m x →
      At net recover set mode window next m x.mine :=
    fun h => ⟨⟨h.1.1, h.1.2.1, phaseOf_mine h.1.2.2⟩, h.2⟩
  have outcomeLater : ∀ result m x y, Upstream.Later x y →
      Outcome net recover set mode window result m x →
      Outcome net recover set mode window result m y := by
    intro result m x y hxy h
    cases result with
    | ok next => exact hxy.keeps (P := At net recover set mode window next m) (fun _ => atMine) h
    | error e => exact h
  have soundLater : ∀ m x y, Upstream.Later x y → Sound net recover set mode window m x →
      Sound net recover set mode window m y :=
    fun m x y hxy h => hxy.keeps (P := Sound net recover set mode window m)
      (fun _ => Sound.mine) h
  have trans : ∀ x y z, Upstream.Later x y → Upstream.Later y z → Upstream.Later x z :=
    fun x y z hxy hyz => hxy.trans hyz
  -- a block mined while a query is out is one of those that may come before its answer
  cases stage with
  | ready m => exact atMine h
  | working held d =>
      cases held with
      | true =>
          exact Dialogue.Ensures.of_later trans (fun _ _ _ _ h => h) outcomeLater h x.later_mine
      | false => exact Dialogue.Ensures.of_later trans soundLater outcomeLater h x.later_mine
  | waiting m next => exact atMine h
  | ended m result => exact Sound.mine h
  | panicked m => exact h

/-- Work that ends where the run can go on is begun. -/
theorem stageSound_work (r : Run) {i : Inquiry RunError Next} {P : Monitor → Upstream → Prop}
    (ensured : Inquiry.Ensures net.gateway Upstream.Later (Sound net recover set mode window) P i
      (At net recover set mode window) fun _ _ _ => False)
    (hm : P m x) : StageSound net recover set mode window x (r.work false m i).stage := by
  refine Dialogue.Ensures.weaken ?_ (ensured m x hm)
  intro result m x h
  cases result <;> exact h

/-- A run goes on from where it has come. -/
theorem stageSound_go (honest : net.Honest) (known : SignersKnown recover net.block)
    (positive : window ≠ 0) {r : Run} (hmode : r.mode = mode) (hwindow : r.window = window)
    {next : Next} (h : At net recover set mode window next m x) :
    StageSound net recover set mode window x (r.go m next).stage := by
  subst hmode hwindow
  cases next with
  | replay =>
      refine Dialogue.Ensures.weaken ?_ (Inquiry.Ensures.bind
        (ensures_replayed honest known positive)
        (R := At net recover set r.mode r.window) (fun _ => ?_) m x h)
      · intro result m x h
        cases result <;> exact h
      · rintro m x ⟨rfl, head, ⟨hrecover, hset, replayed⟩, caches⟩
        cases hmode : r.mode with
        | subscribe => exact ⟨⟨hrecover, hset, rfl, head, Or.inl replayed⟩, caches⟩
        | poll => exact ⟨⟨hrecover, hset, rfl, head, replayed⟩, caches⟩
  | firstHead =>
      obtain ⟨⟨hrecover, hset, hmode, head, replayed⟩, caches⟩ := h
      refine stageSound_work r (.bind (hmode ▸ ensures_firstHead honest known) fun p => .pure ?_)
        ⟨⟨hrecover, hset, replayed⟩, caches⟩
      rintro m x ⟨first, ⟨hrecover, hset, polling⟩, caches⟩
      exact ⟨⟨hrecover, hset, hmode, head, first, polling⟩, caches⟩
  | subscribe => exact h
  | head previous => exact h
  | tick p => exact h
  | panic => exact h.1.2.2

/-- The run starts by greeting the node. -/
theorem stageSound_start {r : Run} (h : StageSound net recover set mode window x r.stage) :
    StageSound net recover set mode window x r.start.stage := by
  unfold Run.start
  split
  · next m hstage =>
      rw [hstage] at h
      refine stageSound_work _ ((ensures_greeting (fun s x h => h.mine)
        (fun m x h => h.2.2.sound)).weaken (fun m x h => h) ?_ (fun e m x h => h)) h
      rintro next m x ⟨rfl, hm⟩
      exact hm
  · exact h

/-- The present work of a run is done. -/
theorem stageSound_conclude (honest : net.Honest) (known : SignersKnown recover net.block)
    (positive : window ≠ 0) {r : Run} (hmode : r.mode = mode) (hwindow : r.window = window)
    (h : StageSound net recover set mode window x r.stage) :
    StageSound net recover set mode window x r.conclude.stage := by
  unfold Run.conclude
  split
  · next held m next hstage =>
      rw [hstage] at h
      cases held <;> exact stageSound_go honest known positive hmode hwindow h
  · next held m e hstage =>
      rw [hstage] at h
      cases held <;> exact h.elim
  · exact h

/-- The node creates the subscription: from here on the blocks are announced. -/
theorem Replayed.create (h : Replayed net recover set window head m.statistics x) :
    Listening net recover set window head x.height (x.height.toNat + 1) (x.height.toNat + 1)
      m.statistics { x with opened := some x.height } where
  heads := h.heads
  opened_eq := rfl
  counted := h.counted.rejoin h.last _
  next_eq := by
    have := UInt64.le_iff_toNat_le.mp h.le
    rw [h.last]
    omega
  queue := by
    show x.queue = _
    rw [h.queue, Nat.sub_self]
    rfl
  front_le := Nat.le_refl _
  bounded := h.bounded

theorem stageSound_create {w : Watch}
    (h : StageSound net recover set mode window w.node w.run.stage) :
    StageSound net recover set mode window w.create.node w.create.run.stage := by
  unfold Watch.create
  split
  · next m hstage hopened =>
      rw [hstage] at h ⊢
      obtain ⟨⟨hrecover, hset, hmode, head, replayed | ⟨opened, listening⟩⟩, caches⟩ := h
      · exact ⟨⟨hrecover, hset, hmode, head, Or.inr ⟨_, replayed.create⟩⟩, caches⟩
      · -- there is a subscription already
        rw [listening.opened_eq] at hopened
        cases hopened
  · exact h

/-- The run starts listening where the subscription was created. -/
theorem stageSound_created {w : Watch}
    (h : StageSound net recover set mode window w.node w.run.stage) :
    StageSound net recover set mode window w.created.node w.created.run.stage := by
  unfold Watch.created
  split
  · next opened hopened =>
      show StageSound net recover set mode window w.node (w.run.subscribed (.ok ())).stage
      unfold Run.subscribed
      split
      · next m hstage =>
          rw [hstage] at h
          obtain ⟨⟨hrecover, hset, hmode, head, replayed | ⟨opened, listening⟩⟩, caches⟩ := h
          · rw [replayed.opened] at hopened
            cases hopened
          · exact ⟨⟨hrecover, hset, hmode, head, opened, _, listening⟩, caches⟩
      · exact h
  · exact h

/-- The announced head that comes first is the next block to be counted. -/
theorem Listening.pop {opened n : UInt64} {next : Nat} {queue : List UInt64}
    (h : Listening net recover set window head opened next next m.statistics x)
    (hqueue : x.queue = n :: queue) :
    Listening net recover set window head opened n.toNat (n.toNat + 1) m.statistics
      { x with queue } := by
  have hbounded := h.bounded
  -- something is in the queue, so the next block is there
  have hle : next ≤ x.height.toNat := by
    rcases Nat.lt_or_ge x.height.toNat next with hlt | hle
    · have hnone : x.height.toNat + 1 - next = 0 := by omega
      have hempty := h.queue
      rw [hnone, hqueue] at hempty
      cases hempty
    · exact hle
  have hsome : x.height.toNat + 1 - next = (x.height.toNat + 1 - (next + 1)) + 1 := by omega
  have hcons := h.queue
  rw [hsome, hqueue, List.range'_succ, List.map_cons, List.cons.injEq] at hcons
  have hn : n.toNat = next := by
    rw [hcons.1, UInt64.toNat_ofNat_of_lt' (by omega)]
  refine ⟨h.heads, h.opened_eq, h.counted, by rw [hn]; exact h.next_eq, ?_, ?_, h.bounded⟩
  · rw [hn]
    exact hcons.2
  · rw [hn]
    exact Nat.succ_le_succ hle

theorem stageSound_announce (honest : net.Honest) (known : SignersKnown recover net.block)
    {w : Watch} (h : StageSound net recover set mode window w.node w.run.stage) :
    StageSound net recover set mode window (w.announce net).node (w.announce net).run.stage := by
  unfold Watch.announce
  split
  · next m previous n queue hstage hqueue =>
      rw [hstage] at h
      obtain ⟨⟨hrecover, hset, rfl, head, opened, next, listening⟩, caches⟩ := h
      simp only [Run.announced, hstage]
      refine stageSound_work w.run (.bind (ensures_takeHead honest known previous)
        fun q => .pure ?_) ⟨⟨hrecover, hset, listening.pop hqueue⟩, caches⟩
      rintro m x ⟨⟨hrecover, hset, listening⟩, caches⟩
      exact ⟨⟨hrecover, hset, rfl, head, opened, _, listening⟩, caches⟩
  · exact h

/-- The run polls the node again. -/
theorem stageSound_ticked (honest : net.Honest) (known : SignersKnown recover net.block) {r : Run}
    (h : StageSound net recover set mode window x r.stage) :
    StageSound net recover set mode window x r.ticked.stage := by
  unfold Run.ticked
  split
  · next m p hstage =>
      rw [hstage] at h
      obtain ⟨⟨hrecover, hset, rfl, head, first, polling⟩, caches⟩ := h
      refine stageSound_work r (.bind (ensures_poll honest known p) fun result => .pure ?_)
        ⟨⟨hrecover, hset, polling⟩, caches⟩
      rintro m x ⟨p, rfl, ⟨hrecover, hset, polling⟩, caches⟩
      exact ⟨⟨hrecover, hset, rfl, head, first, polling⟩, caches⟩
  · exact h

/-- A run that stops leaves the statistics as they are. -/
theorem stageSound_heed {r : Run} (h : StageSound net recover set mode window x r.stage) :
    StageSound net recover set mode window x r.heed.stage := by
  unfold Run.heed
  split
  · split
    · next m previous hstage =>
        rw [hstage] at h
        exact sound_of_phaseOf h.1.2.2
    · next m p hstage =>
        rw [hstage] at h
        exact sound_of_phaseOf h.1.2.2
    · exact h
  · exact h

/-- The answer of the node takes the work of a run on. -/
theorem stageSound_answer {w : Watch}
    (h : StageSound net recover set mode window w.node w.run.stage) :
    StageSound net recover set mode window (w.answer net).node (w.answer net).run.stage := by
  unfold Watch.answer
  split
  · next held m q resume hstage =>
      rw [hstage] at h
      cases held <;> exact Dialogue.Ensures.answered (fun _ => .refl) h
  · exact h

/-! ## Runs -/

/-- A run and its node, each as it ought to be. -/
structure WatchSound (net : Network) (recover : SignerRecovery) (set : ValidatorSet)
    (mode : FollowMode) (window : UInt64) (w : Watch) : Prop where
  mode_eq : w.run.mode = mode
  window_eq : w.run.window = window
  stage : StageSound net recover set mode window w.node w.run.stage

/-- A run keeps its mode and its window. -/
theorem Watch.step_config (w : Watch) (net : Network) (e : WatchEvent) :
    (w.step net e).run.mode = w.run.mode ∧ (w.step net e).run.window = w.run.window := by
  have hgo : ∀ (r : Run) (m : Monitor) (next : Next),
      (r.go m next).mode = r.mode ∧ (r.go m next).window = r.window := by
    intro r m next
    cases next <;> exact ⟨rfl, rfl⟩
  cases e with
  | mine => exact ⟨rfl, rfl⟩
  | start =>
      simp only [Watch.step, Run.start]
      split <;> exact ⟨rfl, rfl⟩
  | answer =>
      simp only [Watch.step, Watch.answer]
      split <;> exact ⟨rfl, rfl⟩
  | conclude =>
      simp only [Watch.step, Run.conclude]
      split
      · exact hgo _ _ _
      · exact ⟨rfl, rfl⟩
      · exact ⟨rfl, rfl⟩
  | create =>
      simp only [Watch.step, Watch.create]
      split <;> exact ⟨rfl, rfl⟩
  | created =>
      simp only [Watch.step, Watch.created, Run.subscribed]
      split
      · split <;> exact ⟨rfl, rfl⟩
      · exact ⟨rfl, rfl⟩
  | announce =>
      simp only [Watch.step, Watch.announce, Run.announced]
      split
      · split <;> exact ⟨rfl, rfl⟩
      · exact ⟨rfl, rfl⟩
  | tick =>
      simp only [Watch.step, Run.ticked]
      split <;> exact ⟨rfl, rfl⟩
  | shutdown => exact ⟨rfl, rfl⟩
  | heed =>
      simp only [Watch.step, Run.heed]
      split
      · split <;> exact ⟨rfl, rfl⟩
      · exact ⟨rfl, rfl⟩

/-- Every step of the node and of the run keeps both sound. -/
theorem WatchSound.step (honest : net.Honest) (known : SignersKnown recover net.block)
    (positive : window ≠ 0) {w : Watch} (h : WatchSound net recover set mode window w)
    (e : WatchEvent) : WatchSound net recover set mode window (w.step net e) := by
  obtain ⟨hmode, hwindow⟩ := w.step_config net e
  refine ⟨hmode.trans h.mode_eq, hwindow.trans h.window_eq, ?_⟩
  cases e with
  | mine => exact h.stage.mine
  | start => exact stageSound_start h.stage
  | answer => exact stageSound_answer h.stage
  | conclude => exact stageSound_conclude honest known positive h.mode_eq h.window_eq h.stage
  | create => exact stageSound_create h.stage
  | created => exact stageSound_created h.stage
  | announce => exact stageSound_announce honest known h.stage
  | tick => exact stageSound_ticked honest known h.stage
  | shutdown => exact h.stage
  | heed => exact stageSound_heed h.stage

/-- So does every list of events. -/
theorem WatchSound.after (honest : net.Honest) (known : SignersKnown recover net.block)
    (positive : window ≠ 0) (events : List WatchEvent) {w : Watch}
    (h : WatchSound net recover set mode window w) :
    WatchSound net recover set mode window (w.after net events) := by
  induction events generalizing w with
  | nil => exact h
  | cons e events ih => exact ih (h.step honest known positive e)

/-- Once the statistics are not held any more, they are sound. -/
theorem StageSound.sound {stage : Stage} (h : StageSound net recover set mode window x stage)
    (free : stage.isHeld = false) : Sound net recover set mode window stage.monitor x := by
  cases stage with
  | ready m => exact sound_of_phaseOf h.1.2.2
  | working held d =>
      cases free
      cases d with
      | done m result =>
          cases result with
          | ok next =>
              have concluded : At net recover set mode window next m x := h
              exact sound_of_phaseOf concluded.1.2.2
          | error e => exact h.elim
      | ask m q resume => exact h.1
  | waiting m next => exact sound_of_phaseOf h.1.2.2
  | ended m result => exact h
  | panicked m => exact h.elim

/-- A run against a node that serves and announces every block of a growing chain: whatever is
mined at which moment, the statistics are those of the blocks from the first replayed one up to the
watermark, each counted once, without the blocks that were mined after the replay had asked for the
head and before the run joined the chain. So there is a gap if, and only if, such a block was mined
and a later one was counted. -/
theorem counted_after (honest : net.Honest) (caches : m.Caches net.block)
    (known : SignersKnown m.recover net.block) (window : UInt64) (positive : window ≠ 0)
    (mode : FollowMode) (height : UInt64) (bounded : height.toNat + 1 < UInt64.size)
    (events : List WatchEvent) :
    let w := Watch.after net ⟨{ window, mode, stage := .ready m }, { height }⟩ events
    let s := w.run.stage.monitor.statistics
    w.run.stage.isHeld = false → ∀ head ∈ w.node.heads.head?,
      ∃ numbers : List UInt64,
        s.Accounts m.recover m.validators (numbers.map net.block) ∧
        (∀ n, n ∈ numbers ↔ max (head.toNat - window.toNat) 1 ≤ n.toNat ∧ n ≤ s.lastProcessed ∧
          ¬ Skipped head (w.node.joined? mode) n) ∧
        ((∀ n, max (head.toNat - window.toNat) 1 ≤ n.toNat → n ≤ s.lastProcessed →
            n ∈ numbers) ↔
          s.lastProcessed = head ∨ ∀ j ∈ w.node.joined? mode, j ≤ head.toNat + 1) := by
  intro w s free head hhead
  have begun : WatchSound net m.recover m.validators mode window
      ⟨{ window, mode, stage := .ready m }, { height }⟩ :=
    ⟨rfl, rfl, ⟨rfl, rfl, rfl, rfl, rfl, bounded⟩, caches⟩
  have counted := (begun.after honest known positive events).stage.sound free head hhead
  obtain ⟨numbers, haccounts, hnumbers⟩ := counted.blocks
  exact ⟨numbers, haccounts, hnumbers, counted.gapless hnumbers⟩

/-! ## Two runs that lose a block -/

/-- No block from the given one up to the watermark is missing in the statistics. -/
def Gapless (net : Network) (recover : SignerRecovery) (set : ValidatorSet) (first : Nat)
    (s : Statistics) : Prop :=
  ∃ numbers : List UInt64, s.Accounts recover set (numbers.map net.block) ∧
    ∀ n, first ≤ n.toNat → n ≤ s.lastProcessed → n ∈ numbers

/-- A block is missing if nothing is counted for its proposer. -/
theorem not_gapless {s : Statistics} {first : Nat} {n : UInt64} {proposer : Address}
    (hfirst : first ≤ n.toNat) (hn : n ≤ s.lastProcessed)
    (hproposer : (net.block n).proposer? recover = some proposer)
    (hcount : s.counters.proposals.count proposer = 0) : ¬ Gapless net recover set first s := by
  rintro ⟨numbers, haccounts, hall⟩
  rw [haccounts.proposals, List.countP_eq_zero] at hcount
  exact hcount _ (List.mem_map_of_mem (hall n hfirst hn)) (decide_eq_true hproposer)

/-- A block whose proposer's seal ends in the last byte of its number. -/
def ownBlock (number : UInt64) : Header :=
  { Header.blank with
    number
    extraData := Extra.encode ⟨.zero, [], [0, UInt8.ofNat number.toNat], []⟩ }

/-- A chain of such blocks. The node tells nothing of itself. -/
def ownBlocks : Network where
  block := ownBlock
  announcement n := .ofMembers [("number", .word n)]
  others
  | .header _ => .ok none
  | .validators _ => .ok []
  | .nodeInfo => .ok none
  | .peers => .ok none

theorem honest_ownBlocks : ownBlocks.Honest where
  numbered _ := rfl
  announced n := Json.required_fields_single "number" (Quantity.ofJson_word n)

theorem signersKnown_ownBlock : SignersKnown Monitor.spelledOut ownBlock := by
  intro n
  have hlength : (ownBlock n).extraData.length = 38 := rfl
  have hdecode := Extra.decode_encode (x := ⟨.zero, [], [0, UInt8.ofNat n.toNat], []⟩)
    (by show (ownBlock n).extraData.length < _; omega)
  unfold Seals.ofHeader Proposal.ofHeader
  rw [ownBlock, hdecode]
  exact ⟨_, rfl⟩

/-- A monitor that has counted nothing. -/
def idle : Monitor := Monitor.make {} ⟨[]⟩ Monitor.spelledOut

/-- A run with a window of one, which starts when block one is the head. Block one is replayed.
Before the run has joined the chain, block two is mined; then block three is taken in. -/
def overtaken : FollowMode → Watch
  | .subscribe =>
    Watch.after ownBlocks
      ⟨{ window := 1, mode := .subscribe, stage := .ready idle }, { height := 1 }⟩
      [.start, .answer, .answer, .conclude, .answer, .conclude, .mine, .create, .created, .mine,
        .announce, .answer, .conclude]
  | .poll =>
    Watch.after ownBlocks
      ⟨{ window := 1, mode := .poll, stage := .ready idle }, { height := 1 }⟩
      [.start, .answer, .answer, .conclude, .answer, .mine, .mine, .conclude, .answer, .conclude]

/-- The statistics of a run that subscribes are those of all blocks up to block three but the one
that was mined too early. -/
theorem counted_overtaken :
    ownBlocks.Honest ∧ idle.Caches ownBlock ∧ SignersKnown Monitor.spelledOut ownBlock ∧
      (overtaken .subscribe).run.stage.isHeld = false ∧
      (overtaken .subscribe).node.heads.head? = some 1 ∧
      (overtaken .subscribe).node.joined? .subscribe = some 3 ∧
      ∃ numbers : List UInt64,
        (overtaken .subscribe).run.stage.monitor.statistics.Accounts Monitor.spelledOut
          (.ofMembers []) (numbers.map ownBlock) ∧
        ∀ n, n ∈ numbers ↔ 1 ≤ n.toNat ∧ n ≤ 3 ∧ ¬ Skipped 1 (some 3) n := by
  have caches : idle.Caches ownBlock := fun _ h => nomatch h
  obtain ⟨numbers, haccounts, hnumbers, -⟩ := counted_after honest_ownBlocks caches
    signersKnown_ownBlock 1 (by decide) .subscribe 1 (by decide)
    [.start, .answer, .answer, .conclude, .answer, .conclude, .mine, .create, .created, .mine,
      .announce, .answer, .conclude] (by decide) 1 (by decide)
  exact ⟨honest_ownBlocks, caches, signersKnown_ownBlock, by decide, by decide, by decide, numbers,
    haccounts, hnumbers⟩

/-- In either mode block two is lost. -/
theorem overtaken_not_gapless :
    ownBlocks.Honest ∧ SignersKnown Monitor.spelledOut ownBlock ∧
      (overtaken .subscribe).run.stage.isHeld = false ∧
      (overtaken .subscribe).node.heads.head? = some 1 ∧
      ¬ Gapless ownBlocks Monitor.spelledOut (.ofMembers []) 1
        (overtaken .subscribe).run.stage.monitor.statistics ∧
      (overtaken .poll).run.stage.isHeld = false ∧
      (overtaken .poll).node.heads.head? = some 1 ∧
      ¬ Gapless ownBlocks Monitor.spelledOut (.ofMembers []) 1
        (overtaken .poll).run.stage.monitor.statistics := by
  have hproposer : (ownBlock 2).proposer? Monitor.spelledOut = some (.ofNat 20 2) := by decide
  refine ⟨honest_ownBlocks, signersKnown_ownBlock, by decide, by decide, ?_, by decide, by decide,
    ?_⟩
  · exact not_gapless (n := 2) (by decide) (by decide) hproposer (by decide)
  · exact not_gapless (n := 2) (by decide) (by decide) hproposer (by decide)

end IstanbulMonitor.Follow
