import IstanbulMonitor.Proofs.Follow.Watch
import IstanbulMonitor.Proofs.Monitor.Replay

/-!
# Phases of a run

`Counted` says which blocks the statistics of a run are those of: the ones from the first replayed
block up to the watermark, without those that were skipped when the run joined the chain. The
phases of a run tell what the node has reported and announced so far (`Untouched`, `Asked`,
`Replayed`, `Listening`, `Polling`), and mining a block keeps each of them. In every phase the right
blocks are counted, which is `Sound`.
-/

set_option autoImplicit false

namespace IstanbulMonitor.Follow

/-! ## The blocks that are counted -/

/-- A block that was mined after the replay had asked for the head and before the run joined the
chain. -/
def Skipped (head : UInt64) (joined : Option Nat) (n : UInt64) : Prop :=
  head < n ∧ ∀ j ∈ joined, n.toNat < j

/-- The statistics are those of the blocks from the first replayed one up to the watermark, without
the skipped ones. -/
structure Counted (net : Network) (recover : SignerRecovery) (set : ValidatorSet)
    (window head : UInt64) (joined : Option Nat) (s : Statistics) : Prop where
  reached : head ≤ s.lastProcessed
  waits : joined = none → s.lastProcessed = head
  blocks : ∃ numbers : List UInt64, s.Accounts recover set (numbers.map net.block) ∧
    ∀ n, n ∈ numbers ↔ max (head.toNat - window.toNat) 1 ≤ n.toNat ∧ n ≤ s.lastProcessed ∧
      ¬ Skipped head joined n

variable {net : Network} {recover : SignerRecovery} {set : ValidatorSet} {mode : FollowMode}
  {window head : UInt64} {s : Statistics}

/-- The replay counts all blocks up to the head. -/
theorem counted_replay (honest : net.Honest) {fresh : Statistics}
    (counts : Statistics.Counts recover (.seeded set) (lastBlocks net.block head window) fresh)
    (joined : Option Nat) :
    Counted net recover set window head joined { fresh with lastProcessed := head } := by
  obtain ⟨haccounts, hlast⟩ := Monitor.lastProcessed_of_counts honest.numbered counts
  have hsame : ({ fresh with lastProcessed := head } : Statistics) = fresh := by rw [← hlast]
  rw [hsame]
  let first := max (head.toNat - window.toNat) 1
  refine ⟨by rw [hlast]; exact UInt64.le_refl _, fun _ => hlast,
    (List.range' first (head.toNat + 1 - first)).reverse.map UInt64.ofNat, ?_, ?_⟩
  · rw [List.map_map, List.map_reverse]
    exact haccounts
  · intro n
    have hhead := head.toNat_lt
    have hle : n ≤ head ↔ n.toNat ≤ head.toNat := UInt64.le_iff_toNat_le
    have hmem : n ∈ (List.range' first (head.toNat + 1 - first)).reverse.map UInt64.ofNat ↔
        first ≤ n.toNat ∧ n.toNat ≤ head.toNat := by
      simp only [List.mem_map, List.mem_reverse, List.mem_range'_1]
      constructor
      · rintro ⟨k, hk, rfl⟩
        rw [UInt64.toNat_ofNat_of_lt' (by show k < 2 ^ 64; omega)]
        omega
      · rintro ⟨hfirst, hn⟩
        exact ⟨n.toNat, by omega, UInt64.ofNat_toNat⟩
    rw [hmem, hlast, hle]
    constructor
    · rintro ⟨hfirst, hn⟩
      refine ⟨hfirst, hn, ?_⟩
      rintro ⟨hlt, -⟩
      have := UInt64.lt_iff_toNat_lt.mp hlt
      omega
    · rintro ⟨hfirst, hn, -⟩
      exact ⟨hfirst, hn⟩

/-- The next block that is not skipped is counted and is the new watermark. -/
theorem Counted.next (honest : net.Honest) {joined : Nat}
    (counted : Counted net recover set window head (some joined) s) {k : UInt64}
    (hk : k.toNat = max (s.lastProcessed.toNat + 1) joined) {seals : Seals}
    (hseals : Seals.ofHeader recover (net.block k) = .ok seals) :
    Counted net recover set window head (some joined)
        (s.apply (net.block k).number seals.proposer seals.endorsers) ∧
      (s.apply (net.block k).number seals.proposer seals.endorsers).lastProcessed = k := by
  obtain ⟨numbers, haccounts, hnumbers⟩ := counted.blocks
  have hreached := UInt64.le_iff_toNat_le.mp counted.reached
  have fresh : s.isFresh (net.block k).number = true := by
    refine decide_eq_true ?_
    rw [honest.numbered, UInt64.lt_iff_toNat_lt]
    omega
  have hlast : (s.apply (net.block k).number seals.proposer seals.endorsers).lastProcessed = k := by
    rw [Statistics.apply, if_pos fresh, honest.numbered]
  refine ⟨⟨?_, fun h => (Option.some_ne_none joined h).elim, k :: numbers,
    haccounts.apply_fresh fresh hseals, ?_⟩, hlast⟩
  · rw [hlast, UInt64.le_iff_toNat_le]
    omega
  · intro n
    rw [hlast, List.mem_cons, hnumbers]
    -- all that is left to say is about numbers
    simp only [Skipped, Option.mem_def, Option.some.injEq, forall_eq', UInt64.le_iff_toNat_le,
      UInt64.lt_iff_toNat_lt, ← UInt64.toNat_inj]
    -- what lies between the old watermark and the new one is skipped
    omega

/-- As long as nothing is counted after the replay, it does not matter where the run joins. -/
theorem Counted.rejoin {joined : Option Nat}
    (counted : Counted net recover set window head joined s)
    (hlast : s.lastProcessed = head) (joined' : Option Nat) :
    Counted net recover set window head joined' s := by
  obtain ⟨numbers, haccounts, hnumbers⟩ := counted.blocks
  refine ⟨counted.reached, fun _ => hlast, numbers, haccounts, ?_⟩
  intro n
  rw [hnumbers, hlast]
  -- neither way a block up to the head is skipped
  have notSkipped : ∀ j : Option Nat, n ≤ head → ¬ Skipped head j n :=
    fun j hn hskipped => UInt64.lt_irrefl _ (UInt64.lt_of_lt_of_le hskipped.1 hn)
  constructor
  · rintro ⟨hfirst, hn, -⟩
    exact ⟨hfirst, hn, notSkipped joined' hn⟩
  · rintro ⟨hfirst, hn, -⟩
    exact ⟨hfirst, hn, notSkipped joined hn⟩

/-- The counted blocks have no gap if, and only if, no block was skipped so far: nothing is counted
after the replay, or the run joined the chain right behind it. -/
theorem Counted.gapless {joined : Option Nat}
    (counted : Counted net recover set window head joined s) {numbers : List UInt64}
    (hnumbers : ∀ n, n ∈ numbers ↔ max (head.toNat - window.toNat) 1 ≤ n.toNat ∧
      n ≤ s.lastProcessed ∧ ¬ Skipped head joined n) :
    (∀ n, max (head.toNat - window.toNat) 1 ≤ n.toNat → n ≤ s.lastProcessed → n ∈ numbers) ↔
      s.lastProcessed = head ∨ ∀ j ∈ joined, j ≤ head.toNat + 1 := by
  have hreached := UInt64.le_iff_toNat_le.mp counted.reached
  simp only [UInt64.le_iff_toNat_le]
  constructor
  · intro hall
    by_cases hlast : s.lastProcessed = head
    · exact Or.inl hlast
    · refine Or.inr fun j hj => Nat.le_of_not_lt fun hlt => ?_
      -- the block behind the head of the replay is lost
      have hlt' : head.toNat ≠ s.lastProcessed.toNat := fun h => hlast (UInt64.toNat_inj.mp h.symm)
      have hbound := s.lastProcessed.toNat_lt
      have hnumber : (head + 1).toNat = head.toNat + 1 := toNat_next (by omega)
      have hmem := hall (head + 1) (by omega) (by omega)
      refine ((hnumbers (head + 1)).mp hmem).2.2 ⟨?_, ?_⟩
      · rw [UInt64.lt_iff_toNat_lt]
        omega
      · intro j' hj'
        cases hj.symm.trans hj'
        omega
  · intro hjoins n hfirst hn
    refine (hnumbers n).mpr ⟨hfirst, UInt64.le_iff_toNat_le.mpr hn, ?_⟩
    rintro ⟨hlt, hskipped⟩
    have hlt' := UInt64.lt_iff_toNat_lt.mp hlt
    rcases hjoins with hlast | hjoins
    · rw [hlast] at hn
      omega
    · cases joined with
      | none =>
          rw [counted.waits rfl] at hn
          omega
      | some j =>
          have hj := hskipped j rfl
          have hle := hjoins j rfl
          omega

/-- What is seen of a run from outside: once the replay has its head, the right blocks are
counted. -/
def Sound (net : Network) (recover : SignerRecovery) (set : ValidatorSet) (mode : FollowMode)
    (window : UInt64) (m : Monitor) (x : Upstream) : Prop :=
  ∀ head ∈ x.heads.head?, Counted net recover set window head (x.joined? mode) m.statistics

theorem Sound.mine {m : Monitor} {x : Upstream} (sound : Sound net recover set mode window m x) :
    Sound net recover set mode window m x.mine := by
  have hjoined : x.mine.joined? mode = x.joined? mode := by
    simp only [Upstream.joined?, Upstream.heads_mine, Upstream.opened_mine]
  intro head hhead
  rw [hjoined]
  rw [Upstream.heads_mine] at hhead
  exact sound head hhead

/-! ## Phases of a run -/

/-- The node was not asked for its head yet. -/
structure Untouched (_ : Statistics) (x : Upstream) : Prop where
  heads : x.heads = []
  opened : x.opened = none
  queue : x.queue = []
  bounded : x.height.toNat + 1 < UInt64.size

/-- The node has reported the head for the replay. -/
structure Asked (head : UInt64) (_ : Statistics) (x : Upstream) : Prop where
  heads : x.heads = [head]
  opened : x.opened = none
  queue : x.queue = []
  le : head ≤ x.height
  bounded : x.height.toNat + 1 < UInt64.size

/-- The replay is done. -/
structure Replayed (net : Network) (recover : SignerRecovery) (set : ValidatorSet)
    (window head : UInt64) (s : Statistics) (x : Upstream) : Prop extends Asked head s x where
  last : s.lastProcessed = head
  counted : Counted net recover set window head none s

/-- The subscription was created when `opened` was the head. `next` is the next number to be
counted, and the queue starts with `front`. -/
structure Listening (net : Network) (recover : SignerRecovery) (set : ValidatorSet)
    (window head opened : UInt64) (next front : Nat) (s : Statistics) (x : Upstream) : Prop where
  heads : x.heads = [head]
  opened_eq : x.opened = some opened
  counted : Counted net recover set window head (some (opened.toNat + 1)) s
  next_eq : next = max (s.lastProcessed.toNat + 1) (opened.toNat + 1)
  queue : x.queue = (List.range' front (x.height.toNat + 1 - front)).map UInt64.ofNat
  front_le : front ≤ x.height.toNat + 1
  bounded : x.height.toNat + 1 < UInt64.size

/-- Polling started at block `first` and has come to block `last`. -/
structure Polling (net : Network) (recover : SignerRecovery) (set : ValidatorSet)
    (window head first last : UInt64) (s : Statistics) (x : Upstream) : Prop where
  heads : ∃ rest, x.heads = head :: first :: rest
  counted : Counted net recover set window head (some first.toNat) s
  last_eq : s.lastProcessed = last
  first_le : first ≤ last
  last_le : last ≤ x.height
  bounded : x.height.toNat + 1 < UInt64.size

theorem Upstream.height_le_mine (x : Upstream) : x.height ≤ x.mine.height := by
  rw [UInt64.le_iff_toNat_le]
  rcases x.mine_cases with h | ⟨-, h, -⟩
  · exact Nat.le_of_eq (by rw [h])
  · omega

theorem Upstream.bounded_mine {x : Upstream} (h : x.height.toNat + 1 < UInt64.size) :
    x.mine.height.toNat + 1 < UInt64.size := by
  rcases x.mine_cases with h' | ⟨hroom, h', -⟩
  · rw [h']
    exact h
  · omega

theorem Upstream.queue_mine_of_closed {x : Upstream} (h : x.opened = none) :
    x.mine.queue = x.queue := by
  rcases x.mine_cases with h' | ⟨-, -, h'⟩
  · rw [h']
  · rw [h', h]
    rfl

variable {x : Upstream}

theorem Untouched.mine (h : Untouched s x) : Untouched s x.mine where
  heads := by rw [x.heads_mine, h.heads]
  opened := by rw [x.opened_mine, h.opened]
  queue := by rw [Upstream.queue_mine_of_closed h.opened, h.queue]
  bounded := Upstream.bounded_mine h.bounded

theorem Asked.mine (h : Asked head s x) : Asked head s x.mine where
  heads := by rw [x.heads_mine, h.heads]
  opened := by rw [x.opened_mine, h.opened]
  queue := by rw [Upstream.queue_mine_of_closed h.opened, h.queue]
  le := UInt64.le_trans h.le x.height_le_mine
  bounded := Upstream.bounded_mine h.bounded

theorem Replayed.mine (h : Replayed net recover set window head s x) :
    Replayed net recover set window head s x.mine :=
  { h with toAsked := h.toAsked.mine }

/-- A block that is mined is announced behind the others. -/
theorem Listening.mine {opened : UInt64} {next front : Nat}
    (h : Listening net recover set window head opened next front s x) :
    Listening net recover set window head opened next front s x.mine := by
  refine ⟨by rw [x.heads_mine, h.heads], by rw [x.opened_mine, h.opened_eq], h.counted, h.next_eq,
    ?_, ?_, Upstream.bounded_mine h.bounded⟩
  · rcases x.mine_cases with hmine | ⟨-, hheight, hqueue⟩
    · rw [hmine]
      exact h.queue
    · -- the queue goes on up to the new head
      have hfront := h.front_le
      have hlength : x.mine.height.toNat + 1 - front = (x.height.toNat + 1 - front) + 1 := by omega
      have hlast : front + (x.height.toNat + 1 - front) = x.mine.height.toNat := by omega
      rw [hqueue, h.opened_eq, h.queue, hlength, List.range'_1_concat, hlast]
      simp
  · have := UInt64.le_iff_toNat_le.mp x.height_le_mine
    exact Nat.le_trans h.front_le (by omega)

theorem Polling.mine {first last : UInt64}
    (h : Polling net recover set window head first last s x) :
    Polling net recover set window head first last s x.mine :=
  { h with
    heads := by rw [x.heads_mine]; exact h.heads
    last_le := UInt64.le_trans h.last_le x.height_le_mine
    bounded := Upstream.bounded_mine h.bounded }

theorem Untouched.sound {m : Monitor} (h : Untouched m.statistics x) :
    Sound net recover set mode window m x := by
  intro head hhead
  rw [h.heads] at hhead
  cases hhead

theorem Replayed.sound {m : Monitor} (h : Replayed net recover set window head m.statistics x) :
    Sound net recover set mode window m x := by
  intro head' hhead
  rw [h.heads] at hhead
  cases hhead
  -- the run has not joined the chain yet
  have hjoined : x.joined? mode = none := by
    cases mode <;> simp [Upstream.joined?, h.opened, h.heads]
  rw [hjoined]
  exact h.counted

theorem Listening.sound {m : Monitor} {opened : UInt64} {next front : Nat}
    (h : Listening net recover set window head opened next front m.statistics x) :
    Sound net recover set .subscribe window m x := by
  intro head' hhead
  rw [h.heads] at hhead
  cases hhead
  have hjoined : x.joined? .subscribe = some (opened.toNat + 1) := by
    simp [Upstream.joined?, h.opened_eq]
  rw [hjoined]
  exact h.counted

theorem Polling.sound {m : Monitor} {first last : UInt64}
    (h : Polling net recover set window head first last m.statistics x) :
    Sound net recover set .poll window m x := by
  obtain ⟨rest, hheads⟩ := h.heads
  intro head' hhead
  rw [hheads] at hhead
  cases hhead
  have hjoined : x.joined? .poll = some first.toNat := by simp [Upstream.joined?, hheads]
  rw [hjoined]
  exact h.counted

end IstanbulMonitor.Follow
