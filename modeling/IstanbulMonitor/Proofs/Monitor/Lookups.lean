import IstanbulMonitor.Proofs.Monitor.Calls
import IstanbulMonitor.Proofs.Monitor.Recency
import IstanbulMonitor.Proofs.Number.Exactness

/-!
# Looking headers up

`Answers` is a node while it stays as it is, and `Answers.gateway` keeps a log of the blocks that it
was asked for. A look-up of a block asks the node exactly if the cache does not hold the block, and
the head is always asked for and kept under its own number (`Monitor.looksUp`). The counts of the
look-ups go with this: below `2 ^ 53` they add up to the look-ups, and those that were no hits to
the fetches (`LabelCounts.Tallied`).
-/

set_option autoImplicit false

namespace IstanbulMonitor

/-! ## A node and its log -/

/-- What a node answers to each query while it stays as it is. -/
abbrev Answers := (q : Query) → Except MonitorError q.Answer

/-- A block that a node was asked for, and the answer. -/
abbrev Fetch := BlockNumber × Except MonitorError (Option Header)

/-- The node, with a log of the blocks that it is asked for. -/
def Answers.gateway (a : Answers) : Gateway (List Fetch)
  | .header block, log => (a (.header block), log ++ [(block, a (.header block))])
  | .validators block, log => (a (.validators block), log)
  | .nodeInfo, log => (a .nodeInfo, log)
  | .peers, log => (a .peers, log)

theorem Answers.gateway_fst (a : Answers) (q : Query) (log : List Fetch) :
    (a.gateway q log).1 = a q := by
  cases q <;> rfl

/-! ## The counts of the look-ups -/

namespace LabelCounts

variable {Label : Type} [DecidableEq Label]

theorem count_add (c : LabelCounts Label) (label other : Label) :
    (c.add label).count other =
      if other = label then Binary64.roundNat (c.count label + 1) else c.count other := by
  obtain ⟨entries⟩ := c
  simp only [add, count]
  induction entries with
  | nil =>
    have one : Binary64.roundNat 1 = 1 := Binary64.roundNat_of_lt (by decide)
    by_cases h : other = label
    · simp [bump, h, one]
    · simp [bump, h, Ne.symm h]
  | cons entry entries ih =>
    obtain ⟨first, n⟩ := entry
    by_cases hfirst : first = label
    · -- the count is the one of the first entry
      subst hfirst
      by_cases h : other = first
      · simp [bump, h]
      · simp [bump, h, Ne.symm h]
    · by_cases h : first = other
      · subst h
        simp [bump, hfirst]
      · simpa [bump, hfirst, h] using ih

theorem count_add_self {c : LabelCounts Label} {label : Label}
    (small : c.count label + 1 < 2 ^ 53) : (c.add label).count label = c.count label + 1 := by
  rw [count_add, if_pos rfl, Binary64.roundNat_of_lt small]

theorem count_add_ne {c : LabelCounts Label} {label other : Label} (h : other ≠ label) :
    (c.add label).count other = c.count other := by
  rw [count_add, if_neg h]

/-- The counts of look-ups add up: all of them to the look-ups, and those that were no hits to the
fetches. -/
structure Tallied (c : LabelCounts String) (fetches lookups : Nat) : Prop where
  lookups_eq : c.count "hit" + c.count "miss" + c.count "bypass" = lookups
  fetches_eq : c.count "miss" + c.count "bypass" = fetches

namespace Tallied

variable {c : LabelCounts String} {fetches lookups : Nat}

theorem hit (h : c.Tallied fetches lookups) (small : lookups + 1 < 2 ^ 53) :
    (c.add "hit").Tallied fetches (lookups + 1) := by
  obtain ⟨hlookups, hfetches⟩ := h
  have hits : (c.add "hit").count "hit" = c.count "hit" + 1 := count_add_self (by omega)
  have misses := count_add_ne (c := c) (show "miss" ≠ "hit" by decide)
  have bypasses := count_add_ne (c := c) (show "bypass" ≠ "hit" by decide)
  exact ⟨by omega, by omega⟩

theorem miss (h : c.Tallied fetches lookups) (small : lookups + 1 < 2 ^ 53) :
    (c.add "miss").Tallied (fetches + 1) (lookups + 1) := by
  obtain ⟨hlookups, hfetches⟩ := h
  have hits := count_add_ne (c := c) (show "hit" ≠ "miss" by decide)
  have misses : (c.add "miss").count "miss" = c.count "miss" + 1 := count_add_self (by omega)
  have bypasses := count_add_ne (c := c) (show "bypass" ≠ "miss" by decide)
  exact ⟨by omega, by omega⟩

theorem bypass (h : c.Tallied fetches lookups) (small : lookups + 1 < 2 ^ 53) :
    (c.add "bypass").Tallied (fetches + 1) (lookups + 1) := by
  obtain ⟨hlookups, hfetches⟩ := h
  have hits := count_add_ne (c := c) (show "hit" ≠ "bypass" by decide)
  have misses := count_add_ne (c := c) (show "miss" ≠ "bypass" by decide)
  have bypasses : (c.add "bypass").count "bypass" = c.count "bypass" + 1 :=
    count_add_self (by omega)
  exact ⟨by omega, by omega⟩

end Tallied

end LabelCounts

namespace Monitor

variable {γ : Type}

/-! ## One look-up -/

/-- The counts of the look-ups. -/
def lookups (m : Monitor) : LabelCounts String := m.journal.metrics.lookups

/-- The label under which a look-up is counted. -/
def lookupLabel (m : Monitor) : BlockNumber → String
  | .latest => "bypass"
  | .number n => if m.cache.contains n then "hit" else "miss"

theorem header_latest_run (g : Gateway γ) (m : Monitor) (x : γ) :
    (header .latest).runWith g m x =
      (fetch .latest).runWith g (m.measure (·.countLookup "bypass")) x := rfl

theorem header_number_run (g : Gateway γ) (m : Monitor) (n : UInt64) (x : γ) :
    (header (.number n)).runWith g m x =
      match (m.lookUp n).1 with
      | some h => (.ok h, (m.lookUp n).2, x)
      | none => (fetch (.number n)).runWith g (m.lookUp n).2 x := by
  rw [header, Inquiry.runWith_bind, Inquiry.runWith_ofOperation]
  rcases m.lookUp n with ⟨found, m'⟩
  cases found <;> rfl

variable (a : Answers) (m : Monitor) (log : List Fetch)

theorem lookUp_of_get (n : UInt64) (absent : m.cache.get n = (none, m.cache)) :
    m.lookUp n = (none, m.measure (·.countLookup "miss")) := by
  rw [lookUp, absent]
  rfl

/-- What a fetch ends with, and the monitor afterwards. -/
def fetched (m : Monitor) (block : BlockNumber) :
    Except MonitorError (Option Header) → Except MonitorError Header × Monitor
  | .ok (some h) => (.ok h, { m with cache := m.cache.put h.number h })
  | .ok none => (.error (.blockNotFound block), m)
  | .error e => (.error e, m)

theorem fetch_run (block : BlockNumber) :
    (fetch block).runWith a.gateway m log =
      ((m.fetched block (a (.header block))).1, (m.fetched block (a (.header block))).2,
        log ++ [(block, a (.header block))]) := by
  have logged : (a.gateway (.header block) log).2 = log ++ [(block, a (.header block))] := rfl
  rw [fetch, Inquiry.runWith_bind, Inquiry.runWith_ask, Answers.gateway_fst, logged]
  -- whatever the answer is, it is in the log
  cases a (.header block) with
  | error e => rfl
  | ok answer => cases answer <;> rfl

theorem log_fetch (block : BlockNumber) :
    ((fetch block).runWith a.gateway m log).2.2 = log ++ [(block, a (.header block))] := by
  rw [fetch_run]

theorem lookups_fetch (block : BlockNumber) :
    ((fetch block).runWith a.gateway m log).2.1.lookups = m.lookups := by
  rw [fetch_run]
  cases a (.header block) with
  | error e => rfl
  | ok answer => cases answer <;> rfl

/-- What a look-up does: the node is asked for a block exactly if the cache does not hold it, and
always for the head, which is kept under its own number as the entry that was used last. It is
counted once, as a hit, as a miss, or as one that passed the cache by. -/
structure LooksUp (m : Monitor) : Prop where
  number : ∀ (a : Answers) log n,
    ((header (.number n)).runWith a.gateway m log).2.2 =
      if m.cache.contains n then log else log ++ [(.number n, a (.header (.number n)))]
  latest : ∀ (a : Answers) log,
    ((header .latest).runWith a.gateway m log).2.2 = log ++ [(.latest, a (.header .latest))]
  stored : 0 < m.cache.capacity → ∀ (a : Answers) log h, a (.header .latest) = .ok (some h) →
    ((header .latest).runWith a.gateway m log).2.1.cache.entries.head? = some (h.number, h)
  counted : ∀ (a : Answers) log block,
    ((header block).runWith a.gateway m log).2.1.lookups = m.lookups.add (m.lookupLabel block)

theorem head?_put {c : HeaderCache} (room : 0 < c.capacity) (n : UInt64) (h : Header) :
    (c.put n h).entries.head? = some (n, h) := by
  obtain ⟨k, hk⟩ : ∃ k, c.capacity = k + 1 := ⟨c.capacity - 1, by omega⟩
  simp [HeaderCache.put, hk]

theorem looksUp (m : Monitor) : m.LooksUp where
  number a log n := by
    have found : (m.lookUp n).1.isSome = m.cache.contains n := m.cache.isSome_get n
    rw [header_number_run]
    cases hfound : (m.lookUp n).1 with
    | some h =>
      rw [hfound] at found
      exact (if_pos found.symm).symm
    | none =>
      rw [hfound] at found
      rw [if_neg (by rw [← found]; exact Bool.false_ne_true)]
      exact log_fetch a _ log (.number n)
  latest a log := log_fetch a _ log .latest
  stored room a log h answer := by
    rw [header_latest_run, fetch_run, answer]
    exact head?_put room h.number h
  counted a log block := by
    cases block with
    | latest => exact lookups_fetch a _ log .latest
    | number n =>
      have found : (m.lookUp n).1.isSome = m.cache.contains n := m.cache.isSome_get n
      have label : (m.lookUp n).2.lookups = m.lookups.add (m.lookupLabel (.number n)) := by
        rw [lookupLabel, ← found]
        rfl
      rw [header_number_run, ← label]
      cases (m.lookUp n).1 with
      | some h => rfl
      | none => exact lookups_fetch a _ log (.number n)

end Monitor

end IstanbulMonitor
