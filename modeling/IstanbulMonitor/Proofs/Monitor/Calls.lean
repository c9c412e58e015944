import IstanbulMonitor.Proofs.Monitor.Gateway

/-!
# Calls of a monitor

`MonitorCall` lists what a user can ask of a monitor, and `Monitor.afterCalls` is a run of such
calls, whether they succeed or fail, against a node. The lemmas say once what the parts of a call
leave of a monitor: naming signers only writes the journal (`Monitor.exists_journal_extract`),
counting a header applies it to the statistics (`Monitor.count_cases`), and looking a header up
only changes the cache (`Monitor.meets_header`).
-/

set_option autoImplicit false

namespace IstanbulMonitor

/-- What a user can ask of a monitor. -/
inductive MonitorCall where
  | update (h : Header)
  | report (h : Header) (previous : UInt64)
  | restart (window : UInt64)
  | header (block : BlockNumber)
  | headNumber
  | signers (h : Header)
  | signerData (block : BlockNumber)
  | nodeInfo
  | peers

namespace MonitorCall

/-- The inquiry behind a call. Neither its result nor a panic matters to what comes later. -/
def inquiry : MonitorCall → Inquiry MonitorError Unit
  | .update h => do let _ ← Monitor.countHeader h
  | .report h previous => do let _ ← Monitor.reportHeader h previous
  | .restart window => do let _ ← Monitor.restart window
  | .header block => do let _ ← Monitor.header block
  | .headNumber => do let _ ← Monitor.headNumber
  | .signers h => do let _ ← Monitor.signers h
  | .signerData block => do let _ ← Monitor.signerData block
  | .nodeInfo => do let _ ← Monitor.nodeInfo
  | .peers => do let _ ← Monitor.peers

/-- The headers that a call hands to the monitor to be counted. -/
def submitted : MonitorCall → List Header
  | .update h => [h]
  | .report h _ => [h]
  | _ => []

end MonitorCall

namespace Gateway

variable {γ : Type}

/-- Whether a node may answer a query with a header. -/
def Serves (g : Gateway γ) (h : Header) : Prop :=
  ∃ block x, (g (.header block) x).1 = .ok (some h)

/-- Whether a node may answer a query with an error. -/
def Fails (g : Gateway γ) (e : MonitorError) : Prop := ∃ q x, (g q x).1 = .error e

/-- A node whose answer for a number is a header of that number. -/
def Numbered (g : Gateway γ) : Prop :=
  ∀ n x h, (g (.header (.number n)) x).1 = .ok (some h) → h.number = n

end Gateway

namespace Monitor

variable {γ : Type}

/-- The monitor and the node after a list of calls. -/
def afterCalls (g : Gateway γ) (calls : List MonitorCall) (m : Monitor) (x : γ) : Monitor × γ :=
  calls.foldl (fun s call => (call.inquiry.runWith g s.1 s.2).2) (m, x)

/-! ## What the operations leave of a monitor -/

/-- What is committed may lack its metrics. -/
theorem exists_journal_commit (m : Monitor) (fresh : Statistics) (first head : UInt64) :
    ∃ journal, m.commit fresh first head =
      { m with statistics := { fresh with lastProcessed := head }, journal } := by
  unfold commit
  cases successor? head with
  | none => exact ⟨m.journal, rfl⟩
  | some next => exact ⟨_, rfl⟩

theorem statistics_commit (m : Monitor) (fresh : Statistics) (first head : UInt64) :
    (m.commit fresh first head).statistics = { fresh with lastProcessed := head } := by
  obtain ⟨journal, hcommit⟩ := m.exists_journal_commit fresh first head
  rw [hcommit]

/-- Naming signers only writes the journal. -/
theorem exists_journal_extract (m : Monitor) (h : Header) :
    ∃ journal, (m.extract h).2 = { m with journal } := by
  have rejected : ∀ (m' : Monitor) (e : RecoveryError), (∃ journal, m' = { m with journal }) →
      ∃ journal, (m'.rejectHeader e).2 = { m with journal } := by
    rintro _ e ⟨journal, rfl⟩
    exact ⟨_, rfl⟩
  unfold extract
  cases Proposal.ofHeader m.recover h with
  | error e => exact rejected m e ⟨m.journal, rfl⟩
  | ok p =>
    -- the warning about the hash comes before the committed seals are read
    cases disputed : p.isDisputedBy h with
    | true =>
      simp only [disputed, if_true, recover_warn]
      cases p.seals m.recover with
      | error e => exact rejected _ e ⟨_, rfl⟩
      | ok seals => exact ⟨_, rfl⟩
    | false =>
      simp only [disputed, Bool.false_eq_true, if_false]
      cases p.seals m.recover with
      | error e => exact rejected m e ⟨m.journal, rfl⟩
      | ok seals => exact ⟨m.journal, rfl⟩

/-- The signers that are named are those of the seals. -/
theorem ofHeader_of_extract {m : Monitor} {h : Header} {seals : Seals}
    (named : (m.extract h).1 = .ok seals) : Seals.ofHeader m.recover h = .ok seals := by
  rw [extract_fst] at named
  cases hof : Seals.ofHeader m.recover h with
  | error e =>
    rw [hof] at named
    cases named
  | ok seals' =>
    rw [hof] at named
    cases named
    rfl

/-- Recording a block applies it to the statistics. -/
theorem exists_journal_record (m : Monitor) (number : UInt64) (seals : Seals) :
    ∃ journal, m.record number seals =
      { m with
        statistics := m.statistics.apply number seals.proposer seals.endorsers, journal } := by
  unfold record Statistics.apply
  split
  · exact ⟨_, rfl⟩
  · exact ⟨m.journal, rfl⟩

/-- Counting a header whose seals cannot be read fails and only writes the journal; any other header
is applied to the statistics with the signers that its seals name. -/
theorem count_cases (m : Monitor) (h : Header) :
    (∃ e journal, Seals.ofHeader m.recover h = .error e ∧
        m.count h = (.error (.recovery e), { m with journal })) ∨
      ∃ seals journal, Seals.ofHeader m.recover h = .ok seals ∧
        m.count h = (.ok seals,
          { m with
            statistics := m.statistics.apply h.number seals.proposer seals.endorsers
            journal }) := by
  obtain ⟨journal, hsnd⟩ := exists_journal_extract m h
  have hfst := extract_fst m h
  unfold count
  rcases hextract : m.extract h with ⟨result, m'⟩
  rw [hextract] at hsnd hfst
  simp only at hsnd hfst
  subst hsnd
  cases hseals : Seals.ofHeader m.recover h with
  | error e =>
    rw [hseals] at hfst
    subst hfst
    exact Or.inl ⟨e, journal, rfl, rfl⟩
  | ok seals =>
    rw [hseals] at hfst
    subst hfst
    -- the journal is written twice: by naming the signers and by recording the block
    obtain ⟨journal', hrecord⟩ := exists_journal_record { m with journal } h.number seals
    exact Or.inr ⟨seals, journal', rfl, congrArg (Prod.mk (Except.ok seals)) hrecord⟩

/-- A report leaves the monitor as counting the header does. -/
theorem report_snd (m : Monitor) (h : Header) (previous : UInt64) :
    (m.report h previous).2 = (m.count h).2 := by
  unfold report
  rcases m.count h with ⟨result, m'⟩
  cases result <;> rfl

/-- A call that hands in a header counts it and does not ask the node. -/
theorem after_submitted (g : Gateway γ) {call : MonitorCall} {h : Header}
    (mem : h ∈ call.submitted) (m : Monitor) (x : γ) :
    (call.inquiry.runWith g m x).2 = ((m.count h).2, x) := by
  have ended : ∀ {α : Type} (f : Monitor → Except MonitorError α × Monitor),
      ((Inquiry.ofOperation f >>= fun _ => pure () : Inquiry MonitorError Unit).runWith g m x).2 =
        ((f m).2, x) := by
    intro α f
    rw [Inquiry.runWith_discard, Inquiry.runWith_ofOperation]
  cases call with
  | update h' =>
    cases List.mem_singleton.mp mem
    exact ended fun m => m.count h
  | report h' previous =>
    cases List.mem_singleton.mp mem
    exact (ended fun m => m.report h previous).trans (by rw [report_snd])
  | _ => exact absurd mem List.not_mem_nil

/-! ## Looking headers up -/

/-- A monitor at rest: it works with the given recovery, validators and statistics, and its cache
holds headers of the node under their own numbers. -/
structure Rests (m : Monitor) (g : Gateway γ) (recover : SignerRecovery) (set : ValidatorSet)
    (statistics : Statistics) : Prop where
  recover_eq : m.recover = recover
  validators_eq : m.validators = set
  statistics_eq : m.statistics = statistics
  cached : ∀ entry ∈ m.cache.entries, entry.2.number = entry.1 ∧ g.Serves entry.2

variable {g : Gateway γ} {recover : SignerRecovery} {set : ValidatorSet} {statistics : Statistics}

theorem Rests.of_journal {m : Monitor} (h : m.Rests g recover set statistics)
    (journal : Journal) : ({ m with journal } : Monitor).Rests g recover set statistics :=
  ⟨h.recover_eq, h.validators_eq, h.statistics_eq, h.cached⟩

theorem Rests.extract {m : Monitor} (rests : m.Rests g recover set statistics) (h : Header) :
    (m.extract h).2.Rests g recover set statistics := by
  obtain ⟨journal, hsnd⟩ := exists_journal_extract m h
  rw [hsnd]
  exact rests.of_journal journal

/-- A header that the node serves may be put into the cache under its number. -/
theorem Rests.put {m : Monitor} (rests : m.Rests g recover set statistics) {h : Header}
    (served : g.Serves h) :
    ({ m with cache := m.cache.put h.number h } : Monitor).Rests g recover set statistics where
  recover_eq := rests.recover_eq
  validators_eq := rests.validators_eq
  statistics_eq := rests.statistics_eq
  cached entry hentry := by
    rcases List.mem_cons.mp (List.mem_of_mem_take hentry) with rfl | hentry
    · exact ⟨rfl, served⟩
    · exact rests.cached entry (List.mem_filter.mp hentry).1

/-- A use of the cache finds a header of the node with the number it was asked for. -/
theorem Rests.lookUp {m : Monitor} (rests : m.Rests g recover set statistics) (n : UInt64) :
    (m.lookUp n).2.Rests g recover set statistics ∧
      ∀ h, (m.lookUp n).1 = some h → h.number = n ∧ g.Serves h := by
  unfold Monitor.lookUp HeaderCache.get
  cases hfind : m.cache.entries.find? (·.1 = n) with
  | none => exact ⟨⟨rests.recover_eq, rests.validators_eq, rests.statistics_eq, rests.cached⟩,
      fun h hh => by cases hh⟩
  | some entry =>
    -- a hit moves its entry to the front and adds none
    have mem := List.mem_of_find?_eq_some hfind
    have hkey : entry.1 = n := by simpa using List.find?_some hfind
    refine ⟨⟨rests.recover_eq, rests.validators_eq, rests.statistics_eq, ?_⟩, ?_⟩
    · intro other hother
      rcases List.mem_cons.mp hother with rfl | hother
      · exact rests.cached other mem
      · exact rests.cached other (List.mem_filter.mp hother).1
    · intro h hh
      cases hh
      exact hkey ▸ rests.cached entry mem

/-- What a fetch or a look-up of a header gives. -/
def Found (g : Gateway γ) (recover : SignerRecovery) (set : ValidatorSet)
    (statistics : Statistics) (block : BlockNumber) (h : Header) (m : Monitor) (_ : γ) : Prop :=
  m.Rests g recover set statistics ∧ g.Serves h ∧ ∀ n, block = .number n → h.number = n

theorem meets_fetch (numbered : g.Numbered) (block : BlockNumber) :
    Inquiry.Meets g (fun m _ => m.Rests g recover set statistics) (fetch block)
      (Found g recover set statistics block)
      (fun m _ => m.Rests g recover set statistics) := by
  refine .bind (Q := fun answer m _ => m.Rests g recover set statistics ∧
    ∀ h, answer = some h → g.Serves h ∧ ∀ n, block = .number n → h.number = n) ?_ ?_
  · refine .ask (fun m x answer rests hanswer => ⟨rests, ?_⟩) fun m x rests => rests
    rintro h rfl
    refine ⟨⟨block, x, hanswer⟩, ?_⟩
    rintro n rfl
    exact numbered n x h hanswer
  · intro answer
    cases answer with
    | none => exact .fail fun m x hQ => hQ.1
    | some h =>
      refine .bind (.change fun m x hQ => ?_) fun _ => .pure fun m x found => found
      obtain ⟨served, hnumber⟩ := hQ.2 h rfl
      exact ⟨hQ.1.put served, served, hnumber⟩

/-- A look-up leaves everything but the cache and the journal, and its header is one that the node
serves; one asked for by its number has that number. -/
theorem meets_header (numbered : g.Numbered) (block : BlockNumber) :
    Inquiry.Meets g (fun m _ => m.Rests g recover set statistics) (header block)
      (Found g recover set statistics block)
      (fun m _ => m.Rests g recover set statistics) := by
  cases block with
  | latest =>
    -- the head is fetched without a look at the cache
    refine .bind (.change fun m x rests => ?_) fun _ => meets_fetch numbered .latest
    exact rests.of_journal _
  | number n =>
    refine .bind (Q := fun found m _ => m.Rests g recover set statistics ∧
      ∀ h, found = some h → h.number = n ∧ g.Serves h) ?_ ?_
    · refine .ofOperation (fun m x found rests hfound => ?_) fun m x e rests he => ?_
      · obtain ⟨hrests, hkey⟩ := rests.lookUp n
        cases hfound
        exact ⟨hrests, hkey⟩
      · cases he
    · intro found
      cases found with
      | none => exact (meets_fetch numbered (.number n)).weaken (fun m x h => h.1) fun _ _ _ h => h
      | some h =>
        refine .pure fun m x hQ => ?_
        obtain ⟨hnumber, served⟩ := hQ.2 h rfl
        exact ⟨hQ.1, served, fun n' hn' => by cases hn'; exact hnumber⟩

theorem meets_signers (h : Header) :
    Inquiry.Meets g (fun m _ => m.Rests g recover set statistics) (signers h)
      (fun seals m _ => m.Rests g recover set statistics ∧
        Seals.ofHeader recover h = .ok seals)
      (fun m _ => m.Rests g recover set statistics) := by
  refine .ofOperation (fun m x seals rests hseals => ⟨rests.extract h, ?_⟩)
    fun m x e rests _ => rests.extract h
  rw [← rests.recover_eq]
  exact ofHeader_of_extract hseals

end Monitor

end IstanbulMonitor
