import IstanbulMonitor.Proofs.Monitor.Atomicity
import IstanbulMonitor.Proofs.Monitor.Lookups

/-!
# Headers are filed under their own numbers

No header is kept under a number other than its own, whatever the node answers: what is fetched goes
into the cache under the number that it carries, and a use of the cache moves an entry as it is. So
every request leaves a cache that is `HeaderCache.Filed` (`Monitor.upholds_request`). What a
look-up of a block comes to is said by `Monitor.header_held` if the cache holds the block, and by
`Monitor.header_asked` if it does not: then it is the answer of the node, which nobody checks.
-/

set_option autoImplicit false

namespace IstanbulMonitor

/-! ## The cache -/

namespace HeaderCache

/-- Every header is kept under its own number. -/
def Filed (c : HeaderCache) : Prop := ∀ entry ∈ c.entries, entry.2.number = entry.1

variable {c : HeaderCache}

theorem filed_empty (capacity : Nat) : (empty capacity).Filed :=
  fun _ mem => absurd mem List.not_mem_nil

theorem Filed.put (filed : c.Filed) (h : Header) : (c.put h.number h).Filed := by
  intro entry mem
  rcases List.mem_cons.mp (List.mem_of_mem_take mem) with rfl | mem
  · rfl
  · exact filed entry (List.mem_filter.mp mem).1

/-- A use of the cache moves the entry that it finds. -/
theorem Filed.get (filed : c.Filed) (n : UInt64) : (c.get n).2.Filed := by
  rcases c.get_cases n with ⟨-, hget⟩ | ⟨h, mem, hget⟩
  · rw [hget]
    exact filed
  · rw [hget]
    intro entry mem'
    rcases List.mem_cons.mp mem' with rfl | mem'
    · exact filed (n, h) mem
    · exact filed entry (List.mem_filter.mp mem').1

theorem Filed.number_of_get (filed : c.Filed) {n : UInt64} {h : Header}
    (found : (c.get n).1 = some h) : h.number = n := by
  rcases c.get_cases n with ⟨-, hget⟩ | ⟨h', mem, hget⟩
  · rw [hget] at found
    cases found
  · rw [hget] at found
    cases found
    exact filed (n, h) mem

end HeaderCache

namespace Monitor

open Inquiry (Upholds)

variable {γ : Type} {g : Gateway γ} {later : γ → γ → Prop}

/-- Every header in the cache is kept under its own number. -/
def Filed (m : Monitor) : Prop := m.cache.Filed

theorem filed_extract {m : Monitor} (filed : m.Filed) (h : Header) : (m.extract h).2.Filed := by
  obtain ⟨journal, hextract⟩ := exists_journal_extract m h
  rw [hextract]
  exact filed

theorem filed_count {m : Monitor} (filed : m.Filed) (h : Header) : (m.count h).2.Filed := by
  rcases m.count_cases h with ⟨e, journal, -, hcount⟩ | ⟨seals, journal, -, hcount⟩
  · rw [hcount]
    exact filed
  · rw [hcount]
    exact filed

theorem filed_report {m : Monitor} (filed : m.Filed) (h : Header) (previous : UInt64) :
    (m.report h previous).2.Filed := by
  rw [report_snd]
  exact filed_count filed h

theorem filed_commit {m : Monitor} (filed : m.Filed) (fresh : Statistics) (first head : UInt64) :
    (m.commit fresh first head).Filed := by
  obtain ⟨journal, hcommit⟩ := m.exists_journal_commit fresh first head
  rw [hcommit]
  exact filed

/-- A monitor that has only been given its validators has an empty cache. -/
theorem filed_watch (config : MonitorConfig) (registry : Registry) (recover : SignerRecovery)
    (set : ValidatorSet) : ((make config registry recover).watch set).Filed := by
  obtain ⟨journal, hwatch⟩ := exists_journal_watch (make config registry recover) set
  rw [hwatch]
  exact HeaderCache.filed_empty config.cacheCapacity

/-! ## Requests -/

theorem upholds_fetch (block : BlockNumber) : Upholds g later Filed (fetch block) := by
  apply Upholds.bind (.ask _)
  intro answer
  cases answer with
  | none => exact .fail _
  | some h =>
    -- the number under which it is kept is the one that it carries
    apply Upholds.bind (.change fun m filed => filed.put h)
    exact fun _ => .pure h

theorem upholds_header (block : BlockNumber) : Upholds g later Filed (header block) := by
  cases block with
  | latest =>
    -- the head is counted as a look-up, and fetched in any case
    refine .bind (.change ?_) fun _ => upholds_fetch .latest
    exact fun m filed => filed
  | number n =>
    apply Upholds.bind (.ofOperation fun m filed => filed.get n)
    intro found
    cases found with
    | none => exact upholds_fetch (.number n)
    | some h => exact .pure h

theorem upholds_signers (h : Header) : Upholds g later Filed (signers h) :=
  .ofOperation fun _ filed => filed_extract filed h

theorem upholds_countHeader (h : Header) : Upholds g later Filed (countHeader h) :=
  .ofOperation fun _ filed => filed_count filed h

theorem upholds_reportHeader (h : Header) (previous : UInt64) :
    Upholds g later Filed (reportHeader h previous) :=
  .ofOperation fun _ filed => filed_report filed h previous

theorem upholds_headNumber : Upholds g later Filed headNumber :=
  .bind (upholds_header .latest) fun _ => .pure _

theorem upholds_replay (head : Header) (n : Nat) (number : UInt64) (fresh : Statistics) :
    Upholds g later Filed (replay head n number fresh) := by
  induction n generalizing number fresh with
  | zero => exact .pure fresh
  | succ n ih =>
    have counted : ∀ h, Upholds g later Filed (do
        let seals ← signers h
        replay head n (number + 1) (fresh.apply h.number seals.proposer seals.endorsers)) :=
      fun h => .bind (upholds_signers h) fun seals => ih _ _
    rw [replay]
    split
    · exact counted head
    · exact .bind (upholds_header (.number number)) counted

theorem upholds_restart (window : UInt64) : Upholds g later Filed (restart window) := by
  unfold restart
  split
  · exact .bind (.change fun m filed => filed) fun _ => .pure _
  · apply Upholds.bind .current
    intro m
    apply Upholds.bind (upholds_header .latest)
    intro head
    apply Upholds.bind (upholds_replay head _ _ _)
    intro fresh
    exact .bind (.change fun m filed => filed_commit filed fresh _ _) fun _ => .pure _

/-- Every request leaves a cache in which each header is kept under its own number. -/
theorem upholds_request (r : MonitorRequest) : Upholds g later Filed r.inquiry := by
  have only : ∀ {α : Type} {i : Inquiry MonitorError α}, Upholds g later Filed i →
      Upholds g later Filed (i >>= fun _ => pure ()) := fun h => .bind h fun _ => .pure ()
  cases r with
  | nextProposer a => exact only (.ofOperation fun _ filed => filed)
  | call c =>
    cases c with
    | update h => exact only (upholds_countHeader h)
    | report h previous => exact only (upholds_reportHeader h previous)
    | restart window => exact only (upholds_restart window)
    | header block => exact only (upholds_header block)
    | headNumber => exact only upholds_headNumber
    | signers h => exact only (upholds_signers h)
    | signerData block =>
      apply only
      apply Upholds.bind (upholds_header block)
      exact fun h => .bind (upholds_signers h) fun _ => .pure _
    | nodeInfo =>
      apply only
      apply Upholds.bind (.ask _)
      intro answer
      cases answer with
      | none => exact .fail _
      | some info => exact .pure info
    | peers =>
      apply only
      apply Upholds.bind (.ask _)
      intro answer
      cases answer with
      | none => exact .fail _
      | some list => exact .pure list

/-! ## One look-up -/

theorem fetch_runWith (g : Gateway γ) (m : Monitor) (block : BlockNumber) (x : γ) :
    (fetch block).runWith g m x =
      ((m.fetched block (g (.header block) x).1).1, (m.fetched block (g (.header block) x).1).2,
        (g (.header block) x).2) := by
  rw [fetch, Inquiry.runWith_bind, Inquiry.runWith_ask]
  cases (g (.header block) x).1 with
  | error e => rfl
  | ok answer => cases answer <;> rfl

theorem isSome_lookUp (m : Monitor) (n : UInt64) :
    (m.lookUp n).1.isSome = m.cache.contains n := m.cache.isSome_get n

/-- A block that the cache holds is found there, and the node is not asked. -/
theorem header_held (g : Gateway γ) {m : Monitor} (filed : m.Filed) {n : UInt64}
    (held : m.cache.contains n = true) (x : γ) :
    ∃ h : Header, h.number = n ∧
      (header (.number n)).runWith g m x = (.ok h, (m.lookUp n).2, x) := by
  rw [← isSome_lookUp] at held
  obtain ⟨h, found⟩ := Option.isSome_iff_exists.mp held
  refine ⟨h, filed.number_of_get found, ?_⟩
  rw [header_number_run, found]

/-- The answer for a block that the cache does not hold is passed on as the node gives it, and it is
kept under the number that it carries. -/
theorem header_asked (g : Gateway γ) {m : Monitor} {n : UInt64}
    (absent : m.cache.contains n = false) (x : γ) :
    let answered := (m.lookUp n).2.fetched (.number n) (g (.header (.number n)) x).1
    (header (.number n)).runWith g m x =
      (answered.1, answered.2, (g (.header (.number n)) x).2) := by
  rw [← isSome_lookUp, Option.isSome_eq_false_iff, Option.isNone_iff_eq_none] at absent
  rw [header_number_run, absent]
  exact fetch_runWith g _ (.number n) x

end Monitor

end IstanbulMonitor
