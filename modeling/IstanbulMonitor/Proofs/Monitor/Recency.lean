import IstanbulMonitor.Monitor.Cache
import Mathlib.Data.Finset.Card
import Mathlib.Data.Finset.Dedup

/-!
# The cache keeps what was used last

A history of uses of a cache has its accesses: every `put`, and every `get` that finds its block.
`HeaderCache.Follows` ties a cache to such a history. Its keys are the blocks in the order of their
last access, cut off at the capacity, and each of them has the header that was put last. So a block
is present exactly if fewer other blocks than the cache has room for were accessed since its own
last access (`HeaderCache.recency_after`).
-/

set_option autoImplicit false

namespace IstanbulMonitor

/-- A use of a cache. -/
inductive CacheUse where
  | put (number : UInt64) (h : Header)
  | get (number : UInt64)
  | contains (number : UInt64)

/-- What a use of a cache answers. -/
inductive CacheAnswer where
  | stored
  | found (header : Option Header)
  | present (found : Bool)

namespace Recency

/-- The blocks of a list of accesses, each once. Both lists start with the latest. -/
def latest : List UInt64 → List UInt64
  | [] => []
  | k :: rest => k :: (latest rest).filter (· ≠ k)

/-- The accesses after the last one to a block, the latest first. -/
def since (k : UInt64) (accesses : List UInt64) : List UInt64 := accesses.takeWhile (· ≠ k)

variable {k : UInt64}

theorem mem_latest {accesses : List UInt64} : k ∈ latest accesses ↔ k ∈ accesses := by
  induction accesses with
  | nil => exact Iff.rfl
  | cons a rest ih =>
      by_cases hka : k = a
      · simp [latest, hka]
      · simp [latest, ih, hka]

theorem nodup_latest (accesses : List UInt64) : (latest accesses).Nodup := by
  induction accesses with
  | nil => exact List.nodup_nil
  | cons a rest ih =>
      refine List.nodup_cons.mpr ⟨?_, ih.filter _⟩
      simp

/-- Leaving out one block does not change which blocks stand before another. -/
theorem takeWhile_filter_ne {a : UInt64} (hak : a ≠ k) (l : List UInt64) :
    (l.filter (· ≠ a)).takeWhile (· ≠ k) = (l.takeWhile (· ≠ k)).filter (· ≠ a) := by
  induction l with
  | nil => rfl
  | cons b l ih =>
      by_cases hba : b = a
      · subst hba
        simpa [hak] using ih
      · by_cases hbk : b = k
        · subst hbk
          simp [hba]
        · simpa [hba, hbk] using ih

theorem toFinset_takeWhile_latest (accesses : List UInt64) :
    ((latest accesses).takeWhile (· ≠ k)).toFinset = (since k accesses).toFinset := by
  induction accesses with
  | nil => rfl
  | cons a rest ih =>
      by_cases hak : a = k
      · simp [latest, since, hak]
      · -- an access to another block counts among those since
        rw [latest, List.takeWhile_cons_of_pos (by simpa using hak), since,
          List.takeWhile_cons_of_pos (by simpa using hak), takeWhile_filter_ne hak,
          List.toFinset_cons, List.toFinset_cons, List.toFinset_filter, ih]
        -- the block in front is put back whether or not it is among the others
        ext b
        by_cases hba : b = a <;> simp [since, hba]

/-- The blocks before a block in the order of last access are the ones accessed since. -/
theorem length_takeWhile_latest (accesses : List UInt64) :
    ((latest accesses).takeWhile (· ≠ k)).length = (since k accesses).toFinset.card := by
  have nodup := (nodup_latest accesses).sublist (List.takeWhile_sublist (· ≠ k))
  rw [← toFinset_takeWhile_latest, List.toFinset_card_of_nodup nodup]

theorem mem_take_iff (l : List UInt64) (n : Nat) :
    k ∈ l.take n ↔ k ∈ l ∧ (l.takeWhile (· ≠ k)).length < n := by
  induction l generalizing n with
  | nil => simp
  | cons a l ih =>
      cases n with
      | zero => simp
      | succ n =>
          by_cases hka : k = a
          · simp [hka]
          · have hak : a ≠ k := fun h => hka h.symm
            simp [hka, hak, ih]

/-- A block is among the `n` used last exactly if it was accessed and fewer than `n` others were
accessed since. -/
theorem mem_take_latest (accesses : List UInt64) (n : Nat) :
    k ∈ (latest accesses).take n ↔ k ∈ accesses ∧ (since k accesses).toFinset.card < n := by
  rw [mem_take_iff, mem_latest, length_takeWhile_latest]

/-- A list without `k` in its first part keeps that part when `k` is left out of it. -/
theorem take_filter_ne_take {l : List UInt64} (nodup : l.Nodup) (n : Nat) :
    ((l.take (n + 1)).filter (· ≠ k)).take n = (l.filter (· ≠ k)).take n := by
  induction l generalizing n with
  | nil => rfl
  | cons a l ih =>
      obtain ⟨ha, hl⟩ := List.nodup_cons.mp nodup
      by_cases hak : a = k
      · subst hak
        -- `k` stands only here, so nothing else is left out
        have hne : ∀ b ∈ l, b ≠ a := fun b hb hba => ha (hba ▸ hb)
        have hall : l.filter (· ≠ a) = l := List.filter_eq_self.mpr (by simpa using hne)
        have htake : (l.take n).filter (· ≠ a) = l.take n :=
          List.filter_eq_self.mpr (by simpa using fun b hb => hne b (List.mem_of_mem_take hb))
        simp only [List.take_succ_cons, ne_eq, not_true_eq_false, decide_false,
          Bool.false_eq_true, not_false_eq_true, List.filter_cons_of_neg]
        rw [hall, htake, List.take_take, Nat.min_self]
      · cases n with
        | zero => simp
        | succ n =>
            have step := ih hl n
            simpa [hak] using step

theorem filter_ne_take {l : List UInt64} (nodup : l.Nodup) {n : Nat} (hk : k ∈ l.take (n + 1)) :
    (l.take (n + 1)).filter (· ≠ k) = (l.filter (· ≠ k)).take n := by
  rw [← take_filter_ne_take nodup]
  refine (List.take_of_length_le ?_).symm
  -- one of the first `n + 1` is left out
  have hlt : ((l.take (n + 1)).filter (· ≠ k)).length < (l.take (n + 1)).length :=
    List.length_filter_lt_length_iff_exists.mpr ⟨k, hk, by simp⟩
  have := List.length_take_le (n + 1) l
  omega

end Recency

namespace CacheUse

/-- The header that a use stores for a block. -/
def stores? (k : UInt64) : CacheUse → Option Header
  | .put n h => if n = k then some h else none
  | .get _ => none
  | .contains _ => none

end CacheUse

namespace HeaderCache

/-- A use of a cache: the answer, and the cache afterwards. -/
def use (c : HeaderCache) : CacheUse → CacheAnswer × HeaderCache
  | .put n h => (.stored, c.put n h)
  | .get n => (.found (c.get n).1, (c.get n).2)
  | .contains n => (.present (c.contains n), c)

/-- The cache after a list of uses. -/
def after (c : HeaderCache) (uses : List CacheUse) : HeaderCache :=
  uses.foldl (fun c u => (c.use u).2) c

/-- The answers to a list of uses. -/
def answers (c : HeaderCache) : List CacheUse → List CacheAnswer
  | [] => []
  | u :: uses => (c.use u).1 :: (c.use u).2.answers uses

/-- The block that a use accesses: one that is put, or got and found. -/
def accessed? (c : HeaderCache) : CacheUse → Option UInt64
  | .put n _ => some n
  | .get n => if (c.get n).1.isSome then some n else none
  | .contains _ => none

/-- The blocks accessed by a list of uses, the latest first. `before` are those accessed before. -/
def accessesAfter (before : List UInt64) (c : HeaderCache) : List CacheUse → List UInt64
  | [] => before
  | u :: uses => accessesAfter ((c.accessed? u).toList ++ before) (c.use u).2 uses

/-- The blocks accessed by a list of uses, the latest first. -/
def accesses (c : HeaderCache) (uses : List CacheUse) : List UInt64 := c.accessesAfter [] uses

/-- The header put last for a block. -/
def lastPut? (k : UInt64) (uses : List CacheUse) : Option Header :=
  uses.reverse.findSome? (CacheUse.stores? k)

/-- The keys of a cache. -/
def keys (c : HeaderCache) : List UInt64 := c.entries.map (·.1)

variable {c : HeaderCache} {k n : UInt64} {h : Header} {uses : List CacheUse}

theorem contains_iff : c.contains k = true ↔ k ∈ c.keys := by
  simp [contains, keys, List.any_eq_true, List.mem_map]

theorem keys_others (c : HeaderCache) (n : UInt64) :
    (c.others n).map (·.1) = c.keys.filter (· ≠ n) := by
  simp only [others, keys, List.filter_map]
  rfl

/-- A `get` finds the entry of its block and puts it in front, or it finds none and changes
nothing. -/
theorem get_cases (c : HeaderCache) (n : UInt64) :
    (n ∉ c.keys ∧ c.get n = (none, c)) ∨
      ∃ h, (n, h) ∈ c.entries ∧
        c.get n = (some h, { c with entries := (n, h) :: c.others n }) := by
  unfold get
  cases hfind : c.entries.find? (·.1 = n) with
  | none =>
      refine Or.inl ⟨?_, rfl⟩
      intro hn
      obtain ⟨entry, hentry, hkey⟩ := List.mem_map.mp hn
      have hother := List.find?_eq_none.mp hfind entry hentry
      simp [hkey] at hother
  | some entry =>
      obtain ⟨m, h⟩ := entry
      have hm : m = n := by simpa using List.find?_some hfind
      subst hm
      exact Or.inr ⟨h, List.mem_of_find?_eq_some hfind, rfl⟩

/-- A `get` answers with a header exactly if its block is present. -/
theorem isSome_get (c : HeaderCache) (n : UInt64) : (c.get n).1.isSome = c.contains n := by
  rcases c.get_cases n with ⟨hn, hget⟩ | ⟨h, hentry, hget⟩
  · have habsent : c.contains n ≠ true := fun hc => hn (contains_iff.mp hc)
    simp [hget, habsent]
  · have hpresent : c.contains n = true := contains_iff.mpr (List.mem_map.mpr ⟨_, hentry, rfl⟩)
    simp [hget, hpresent]

theorem get_eq_self (hget : (c.get n).1 = none) : c.get n = (none, c) := by
  rcases c.get_cases n with ⟨-, hcase⟩ | ⟨h, -, hcase⟩
  · exact hcase
  · rw [hcase] at hget
    cases hget

theorem lastPut?_concat (k : UInt64) (uses : List CacheUse) (u : CacheUse) :
    lastPut? k (uses ++ [u]) = (u.stores? k).or (lastPut? k uses) := by
  unfold lastPut?
  rw [List.reverse_append, List.reverse_singleton, List.singleton_append, List.findSome?_cons]
  cases u.stores? k <;> rfl

/-! ## The cache and its history -/

/-- A cache with room for `room` blocks after a list of uses. `acc` are the accesses, the latest
first. -/
structure Follows (room : Nat) (uses : List CacheUse) (acc : List UInt64) (c : HeaderCache) :
    Prop where
  capacity_eq : c.capacity = room
  /-- The keys are the blocks accessed last. -/
  keys_eq : c.keys = (Recency.latest acc).take room
  /-- Only what was put is ever accessed. -/
  put_iff : ∀ k, k ∈ acc ↔ ∃ h, CacheUse.put k h ∈ uses
  /-- An entry is what was put last. -/
  stored : ∀ entry ∈ c.entries, lastPut? entry.1 uses = some entry.2

theorem follows_empty (capacity : Nat) : Follows (max capacity 1) [] [] (empty capacity) where
  capacity_eq := rfl
  keys_eq := by simp [empty, keys, Recency.latest]
  put_iff k := by simp
  stored entry hentry := absurd hentry List.not_mem_nil

variable {room : Nat} {acc : List UInt64}

/-- A `put` is an access, and it stores its header. -/
theorem Follows.put (follows : Follows (room + 1) uses acc c) (n : UInt64) (h : Header) :
    Follows (room + 1) (uses ++ [.put n h]) (n :: acc) (c.put n h) where
  capacity_eq := follows.capacity_eq
  keys_eq := by
    have hkeys : (c.put n h).keys = (n :: c.keys.filter (· ≠ n)).take (room + 1) := by
      simp only [HeaderCache.put, keys, follows.capacity_eq, List.map_take, List.map_cons]
      rw [keys_others, keys]
    -- it makes no difference whether `n` is left out before or after the cut
    rw [hkeys, follows.keys_eq, Recency.latest, List.take_succ_cons, List.take_succ_cons,
      Recency.take_filter_ne_take (Recency.nodup_latest acc)]
  put_iff k := by
    by_cases hkn : k = n
    · subst hkn
      exact ⟨fun _ => ⟨h, by simp⟩, fun _ => List.mem_cons_self⟩
    · simp [hkn, follows.put_iff]
  stored entry hentry := by
    rw [lastPut?_concat]
    rcases List.mem_cons.mp (List.mem_of_mem_take hentry) with rfl | hold
    · simp [CacheUse.stores?]
    · obtain ⟨hmem, hne⟩ := List.mem_filter.mp hold
      have hother : n ≠ entry.1 := by
        intro heq
        simp [heq] at hne
      simpa [CacheUse.stores?, hother] using follows.stored entry hmem

/-- A `get` that finds its block is an access, and the block comes to the front. -/
theorem Follows.get (follows : Follows (room + 1) uses acc c) (hentry : (n, h) ∈ c.entries) :
    Follows (room + 1) (uses ++ [.get n]) (n :: acc)
      { c with entries := (n, h) :: c.others n } where
  capacity_eq := follows.capacity_eq
  keys_eq := by
    have hn : n ∈ (Recency.latest acc).take (room + 1) := by
      rw [← follows.keys_eq]
      exact List.mem_map.mpr ⟨_, hentry, rfl⟩
    have hkeys : keys { c with entries := (n, h) :: c.others n } =
        n :: c.keys.filter (· ≠ n) := by
      rw [keys, List.map_cons, keys_others]
    rw [hkeys, follows.keys_eq, Recency.latest, List.take_succ_cons,
      Recency.filter_ne_take (Recency.nodup_latest acc) hn]
  put_iff k := by
    by_cases hkn : k = n
    · subst hkn
      -- what is found was accessed before, so it was put
      have hk : k ∈ c.keys := List.mem_map.mpr ⟨_, hentry, rfl⟩
      rw [follows.keys_eq] at hk
      have hput := (follows.put_iff k).mp (Recency.mem_latest.mp (List.mem_of_mem_take hk))
      simpa using hput
    · simp [hkn, follows.put_iff]
  stored entry hmem := by
    rw [lastPut?_concat]
    rcases List.mem_cons.mp hmem with rfl | hold
    · exact follows.stored _ hentry
    · exact follows.stored entry (List.mem_filter.mp hold).1

/-- A use that stores nothing and accesses nothing leaves the history as it was. -/
theorem Follows.idle (follows : Follows room uses acc c) {u : CacheUse}
    (hu : ∀ k, u.stores? k = none) : Follows room (uses ++ [u]) acc c where
  capacity_eq := follows.capacity_eq
  keys_eq := follows.keys_eq
  put_iff k := by
    have hno : ∀ h, u ≠ .put k h := by
      rintro h rfl
      simpa [CacheUse.stores?] using hu k
    rw [follows.put_iff]
    refine exists_congr fun h => ?_
    simp [(hno h).symm]
  stored entry hentry := by
    rw [lastPut?_concat, hu]
    exact follows.stored entry hentry

/-- A cache follows its history through every use. -/
theorem Follows.use (follows : Follows (room + 1) uses acc c) (u : CacheUse) :
    Follows (room + 1) (uses ++ [u]) ((c.accessed? u).toList ++ acc) (c.use u).2 := by
  cases u with
  | put n h => exact follows.put n h
  | contains n => exact follows.idle fun _ => rfl
  | get n =>
      rcases c.get_cases n with ⟨-, hget⟩ | ⟨h, hentry, hget⟩
      · simp only [accessed?, HeaderCache.use, hget]
        exact follows.idle fun _ => rfl
      · simp only [accessed?, HeaderCache.use, hget]
        exact follows.get hentry

/-- A cache follows its history through a list of uses. -/
theorem Follows.after (follows : Follows (room + 1) uses acc c) (more : List CacheUse) :
    Follows (room + 1) (uses ++ more) (accessesAfter acc c more) (c.after more) := by
  induction more generalizing uses acc c with
  | nil => simpa [accessesAfter, HeaderCache.after] using follows
  | cons u more ih =>
      have step := ih (follows.use u)
      simpa [accessesAfter, HeaderCache.after] using step

/-- A cache that starts empty keeps the blocks that were used last. -/
theorem follows_after (capacity : Nat) (uses : List CacheUse) :
    Follows (max capacity 1) uses ((empty capacity).accesses uses)
      ((empty capacity).after uses) := by
  obtain ⟨room, hroom⟩ : ∃ room, max capacity 1 = room + 1 := ⟨max capacity 1 - 1, by omega⟩
  have start := follows_empty capacity
  rw [hroom] at start ⊢
  simpa [accesses] using start.after uses

theorem Follows.nodup_keys (follows : Follows room uses acc c) : c.keys.Nodup := by
  rw [follows.keys_eq]
  exact (Recency.nodup_latest acc).sublist (List.take_sublist room _)

/-- The main theorem: a block is present exactly if it was put and fewer others than there is room
for were accessed since its last access. What a `get` answers is the header put last. The size is
the number of blocks present. A `contains`, and a `get` that finds nothing, change no later
answer. -/
theorem recency_after (capacity : Nat) (uses : List CacheUse) (k : UInt64) :
    let c := (empty capacity).after uses
    let others := (Recency.since k ((empty capacity).accesses uses)).toFinset
    (c.contains k = true ↔
        (∃ h, CacheUse.put k h ∈ uses) ∧ others.card < max capacity 1) ∧
      (c.get k).1 = (if c.contains k then lastPut? k uses else none) ∧
      ((c.get k).1.isSome = c.contains k) ∧
      (∃ present : Finset UInt64, (∀ n, n ∈ present ↔ c.contains n = true) ∧
        c.size = present.card ∧ c.size ≤ max capacity 1) ∧
      ∀ later, c.answers (.contains k :: later) = .present (c.contains k) :: c.answers later ∧
        ((c.get k).1 = none → c.answers (.get k :: later) = .found none :: c.answers later) := by
  intro c others
  have follows : Follows _ uses _ c := follows_after capacity uses
  have hsize : c.size = c.keys.length := by rw [size, keys, List.length_map]
  refine ⟨?_, ?_, c.isSome_get k, ?_, ?_⟩
  · rw [contains_iff, follows.keys_eq, Recency.mem_take_latest, follows.put_iff]
  · have hsome := c.isSome_get k
    rcases c.get_cases k with ⟨-, hget⟩ | ⟨h, hentry, hget⟩
    · rw [hget] at hsome ⊢
      rw [← hsome]
      rfl
    · rw [hget] at hsome ⊢
      rw [← hsome]
      exact (follows.stored _ hentry).symm
  · refine ⟨c.keys.toFinset, fun n => ?_, ?_, ?_⟩
    · rw [List.mem_toFinset, contains_iff]
    · rw [hsize, List.toFinset_card_of_nodup follows.nodup_keys]
    · rw [hsize, follows.keys_eq]
      exact List.length_take_le _ _
  · intro later
    constructor
    · rfl
    · intro hnone
      simp [answers, HeaderCache.use, get_eq_self hnone]

end HeaderCache

end IstanbulMonitor
