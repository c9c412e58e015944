import IstanbulMonitor.Proofs.Follow.Polling
import IstanbulMonitor.Proofs.Monitor.Lookups

/-!
# What a run takes in

`Gateway.logged` is a node with a log of the blocks that it is asked for and of its answers,
whatever they are. `TookIn` says what a run has made of them: an `Intake` are the fetches, the
blocks that it got, and the reports that it published. A dialogue that `Ingests` adds to the intake
what it is allowed to, and fails only if the last of its fetches found the session dead; `catchUp`
is one (`ingests_catchUp`). Nothing is assumed of the node: a header may have any number and any
seals.
-/

set_option autoImplicit false

namespace IstanbulMonitor

variable {α β γ : Type}

/-! ## Failures of a fetch -/

theorem TransportError.isTerminal_iff {e : TransportError} :
    e.isTerminal = true ↔ e = .closed ∨ ∃ reason, e = .connectionLost reason := by
  cases e <;> simp [isTerminal]

/-- Only a transport error is terminal. -/
theorem MonitorError.terminal?_eq_some {e : MonitorError} {t : TransportError} :
    e.terminal? = some t ↔ e = .transport t ∧ t.isTerminal = true := by
  cases e with
  | transport t' =>
    simp only [terminal?, Option.ite_none_right_eq_some, Option.some.injEq, transport.injEq]
    constructor
    · rintro ⟨terminal, rfl⟩
      exact ⟨rfl, terminal⟩
    · rintro ⟨rfl, terminal⟩
      exact ⟨terminal, rfl⟩
  | _ => simp [terminal?]

namespace Fetch

/-- The error of a fetch that brings no header. -/
def failure? : Fetch → Option MonitorError
  | (_, .error e) => some e
  | (block, .ok none) => some (.blockNotFound block)
  | (_, .ok (some _)) => none

/-- A fetch that finds the session dead. -/
def Lost (f : Fetch) (e : TransportError) : Prop :=
  f.2 = .error (.transport e) ∧ (e = .closed ∨ ∃ reason, e = .connectionLost reason)

/-- The session is found dead exactly if the failure is one that a run does not live with. -/
theorem lost_iff {f : Fetch} {e : TransportError} :
    f.Lost e ↔ f.failure? = some (.transport e) ∧ e.isTerminal = true := by
  obtain ⟨block, answer⟩ := f
  rw [Lost, TransportError.isTerminal_iff]
  cases answer with
  | error e' => simp [failure?]
  | ok found => cases found <;> simp [failure?]

/-- All fetches bring a header, except the last one if there is a failure. -/
inductive FailsLast : List Fetch → Option MonitorError → Prop where
  | sound {fetches : List Fetch} (sound : ∀ f ∈ fetches, f.failure? = none) :
      FailsLast fetches none
  | fails {fetches : List Fetch} {f : Fetch} {e : MonitorError}
      (sound : ∀ f ∈ fetches, f.failure? = none) (fails : f.failure? = some e) :
      FailsLast (fetches ++ [f]) (some e)

variable {first fetches log : List Fetch} {failure : Option MonitorError}

theorem FailsLast.prepend (sound : ∀ f ∈ first, f.failure? = none)
    (h : FailsLast fetches failure) : FailsLast (first ++ fetches) failure := by
  have both : ∀ {more : List Fetch}, (∀ f ∈ more, f.failure? = none) →
      ∀ f ∈ first ++ more, f.failure? = none := by
    intro more hmore f mem
    rcases List.mem_append.mp mem with mem | mem
    · exact sound f mem
    · exact hmore f mem
  cases h with
  | sound hsound => exact .sound (both hsound)
  | fails hsound hfails =>
    rw [← List.append_assoc]
    exact .fails (both hsound) hfails

/-- A fetch of the head brought a block that is at least as high as the given number. -/
def Reaches (log : List Fetch) (n : UInt64) : Prop :=
  ∃ head : Header, (.latest, .ok (some head)) ∈ log ∧ n ≤ head.number

theorem Reaches.append {n : UInt64} (reaches : Reaches log n) (fetches : List Fetch) :
    Reaches (log ++ fetches) n := by
  obtain ⟨head, mem, hle⟩ := reaches
  exact ⟨head, List.mem_append_left _ mem, hle⟩

/-- No fetch of a log finds the session dead. -/
def Alive (log : List Fetch) : Prop := ∀ f ∈ log, ∀ e, ¬ Lost f e

theorem Alive.append (alive : Alive log) (h : Alive fetches) : Alive (log ++ fetches) := by
  intro f mem
  rcases List.mem_append.mp mem with mem | mem
  · exact alive f mem
  · exact h f mem

theorem alive_of_sound (sound : ∀ f ∈ fetches, f.failure? = none) : Alive fetches := by
  intro f mem e lost
  have hfails := (lost_iff.mp lost).1
  rw [sound f mem] at hfails
  cases hfails

/-- A failure that a run lives with comes from a session that is alive. -/
theorem FailsLast.alive (h : FailsLast fetches failure)
    (lives : ∀ e ∈ failure, e.terminal? = none) : Alive fetches := by
  cases h with
  | sound sound => exact alive_of_sound sound
  | @fails fetches f e sound fails =>
    refine (alive_of_sound sound).append ?_
    intro f' mem t lost
    cases List.mem_singleton.mp mem
    obtain ⟨hfails, terminal⟩ := lost_iff.mp lost
    cases fails.symm.trans hfails
    have mild := lives _ rfl
    rw [MonitorError.terminal?_eq_some.mpr ⟨rfl, terminal⟩] at mild
    cases mild

/-- A failure that ended the session is that of the last fetch. -/
theorem FailsLast.lost {t : TransportError} (h : FailsLast fetches (some (.transport t)))
    (terminal : t.isTerminal = true) :
    ∃ earlier f, fetches = earlier ++ [f] ∧ Alive earlier ∧ f.Lost t := by
  cases h with
  | fails sound fails => exact ⟨_, _, rfl, alive_of_sound sound, lost_iff.mpr ⟨fails, terminal⟩⟩

end Fetch

/-! ## A node with a log -/

namespace Gateway

/-- The node, with a log of the blocks that it is asked for and of what it answers. -/
def logged (g : Gateway γ) : Gateway (γ × List Fetch)
  | .header block, s =>
    ((g (.header block) s.1).1, (g (.header block) s.1).2,
      s.2 ++ [(block, (g (.header block) s.1).1)])
  | .validators block, s => ((g (.validators block) s.1).1, (g (.validators block) s.1).2, s.2)
  | .nodeInfo, s => ((g .nodeInfo s.1).1, (g .nodeInfo s.1).2, s.2)
  | .peers, s => ((g .peers s.1).1, (g .peers s.1).2, s.2)

theorem log_header (g : Gateway γ) (block : BlockNumber) (s : γ × List Fetch) :
    (g.logged (.header block) s).2.2 = s.2 ++ [(block, (g.logged (.header block) s).1)] := rfl

/-- The log does not change what the node answers. -/
theorem exists_log (g : Gateway γ) (q : Query) (s : γ × List Fetch) :
    ∃ log, g.logged q s = ((g q s.1).1, (g q s.1).2, log) := by
  cases q <;> exact ⟨_, rfl⟩

end Gateway

/-- A dialogue runs with the log as it does without. -/
theorem Dialogue.run_logged (g : Gateway γ) (d : Dialogue α) (s : γ × List Fetch) :
    ∃ log, d.run (fun q m s => ((g.logged q s).1, m, (g.logged q s).2)) s =
      ((d.run (fun q m x => ((g q x).1, m, (g q x).2)) s.1).1,
        (d.run (fun q m x => ((g q x).1, m, (g q x).2)) s.1).2.1,
        (d.run (fun q m x => ((g q x).1, m, (g q x).2)) s.1).2.2, log) := by
  induction d generalizing s with
  | done m a => exact ⟨s.2, rfl⟩
  | ask m q resume ih =>
    obtain ⟨log, answered⟩ := g.exists_log q s
    simp only [Dialogue.run, answered]
    exact ih (g q s.1).1 m ((g q s.1).2, log)

/-- The statistics with a block counted, if its signers can be recovered. -/
def Statistics.countSigned (recover : SignerRecovery) (s : Statistics) (h : Header) : Statistics :=
  match Seals.ofHeader recover h with
  | .ok seals => s.apply h.number seals.proposer seals.endorsers
  | .error _ => s

namespace Follow

variable {g : Gateway γ}

/-! ## Intakes -/

/-- What a run takes in: what it fetches, the blocks that it gets, and the reports on them that it
publishes. -/
@[ext]
structure Intake where
  fetches : List Fetch := []
  blocks : List Header := []
  told : List BlockReport := []

/-- One intake after another. -/
instance : Append Intake where
  append i more := ⟨i.fetches ++ more.fetches, i.blocks ++ more.blocks, i.told ++ more.told⟩

namespace Intake

variable (i more rest : Intake)

@[simp] theorem fetches_append : (i ++ more).fetches = i.fetches ++ more.fetches := rfl

@[simp] theorem blocks_append : (i ++ more).blocks = i.blocks ++ more.blocks := rfl

@[simp] theorem told_append : (i ++ more).told = i.told ++ more.told := rfl

theorem append_assoc : i ++ more ++ rest = i ++ (more ++ rest) :=
  Intake.ext (List.append_assoc ..) (List.append_assoc ..) (List.append_assoc ..)

theorem append_nothing : i ++ ({} : Intake) = i :=
  Intake.ext (List.append_nil _) (List.append_nil _) (List.append_nil _)

/-- First the fetches and then the rest. -/
theorem fetched_append (fetches : List Fetch) (blocks : List Header) (told : List BlockReport) :
    ({ fetches } : Intake) ++ { blocks, told } = ⟨fetches, blocks, told⟩ :=
  Intake.ext (List.append_nil _) rfl rfl

end Intake

/-- A run that had `m₀` and the log `log₀` took something in. The blocks whose signers can be
recovered are counted, and the others leave the statistics as they were. -/
structure TookIn (m₀ : Monitor) (log₀ : List Fetch) (i : Intake) (m : Monitor) (log : List Fetch) :
    Prop where
  recover_eq : m.recover = m₀.recover
  statistics_eq : m.statistics = i.blocks.foldl (·.countSigned m₀.recover) m₀.statistics
  published_eq : m.published = m₀.published ++ i.told
  log_eq : log = log₀ ++ i.fetches

variable {m₀ m : Monitor} {log₀ log : List Fetch} {before : Intake} {h : Header}

namespace TookIn

theorem nothing (m : Monitor) (log : List Fetch) : TookIn m log {} m log :=
  ⟨rfl, rfl, (List.append_nil _).symm, (List.append_nil _).symm⟩

theorem of_journal (tookIn : TookIn m₀ log₀ before m log) (journal : Journal) :
    TookIn m₀ log₀ before { m with journal } log :=
  ⟨tookIn.recover_eq, tookIn.statistics_eq, tookIn.published_eq, tookIn.log_eq⟩

theorem of_cache (tookIn : TookIn m₀ log₀ before m log) (cache : HeaderCache) :
    TookIn m₀ log₀ before { m with cache } log :=
  ⟨tookIn.recover_eq, tookIn.statistics_eq, tookIn.published_eq, tookIn.log_eq⟩

theorem asked (tookIn : TookIn m₀ log₀ before m log) (f : Fetch) :
    TookIn m₀ log₀ (before ++ { fetches := [f] }) m (log ++ [f]) where
  recover_eq := tookIn.recover_eq
  statistics_eq := by simp [tookIn.statistics_eq]
  published_eq := by simp [tookIn.published_eq]
  log_eq := by simp [tookIn.log_eq]

theorem publish (tookIn : TookIn m₀ log₀ before m log) (r : BlockReport) :
    TookIn m₀ log₀ (before ++ { told := [r] }) (m.publish r) log where
  recover_eq := tookIn.recover_eq
  statistics_eq := by simp [Monitor.publish, tookIn.statistics_eq]
  published_eq := by simp [Monitor.publish, tookIn.published_eq]
  log_eq := by simp [tookIn.log_eq]

/-- A block is counted if its signers can be recovered, and else it fails to be, in a way that does
not end the session. -/
theorem count (tookIn : TookIn m₀ log₀ before m log) (h : Header) :
    TookIn m₀ log₀ (before ++ { blocks := [h] }) (m.count h).2 log ∧
      match (m.count h).1 with
      | .ok seals => Seals.ofHeader m₀.recover h = .ok seals
      | .error e => e.terminal? = none ∧ ∀ seals, Seals.ofHeader m₀.recover h ≠ .ok seals := by
  -- counting changes nothing of a monitor but the statistics and the journal
  have taken : ∀ (statistics : Statistics) (journal : Journal),
      m.statistics.countSigned m₀.recover h = statistics →
      TookIn m₀ log₀ (before ++ { blocks := [h] }) { m with statistics, journal } log := by
    rintro _ journal rfl
    refine ⟨tookIn.recover_eq, ?_, ?_, ?_⟩
    · simp [tookIn.statistics_eq]
    · simp [tookIn.published_eq]
    · simp [tookIn.log_eq]
  rcases m.count_cases h with ⟨e, journal, hseals, hcount⟩ | ⟨seals, journal, hseals, hcount⟩
  · rw [tookIn.recover_eq] at hseals
    rw [hcount, hseals]
    refine ⟨taken m.statistics journal ?_, rfl, fun seals hok => by cases hok⟩
    rw [Statistics.countSigned, hseals]
  · rw [tookIn.recover_eq] at hseals
    rw [hcount, hseals]
    refine ⟨taken _ journal ?_, rfl⟩
    rw [Statistics.countSigned, hseals]

/-- A report is made if, and only if, the signers of the block can be recovered. -/
theorem report (tookIn : TookIn m₀ log₀ before m log) (h : Header) (previous : UInt64) :
    TookIn m₀ log₀ (before ++ { blocks := [h] }) (m.report h previous).2 log ∧
      match (m.report h previous).1 with
      | .ok r => Describes m₀.recover previous h r
      | .error e => e.terminal? = none ∧ ∀ seals, Seals.ofHeader m₀.recover h ≠ .ok seals := by
  obtain ⟨counted, hseals⟩ := tookIn.count h
  rw [Monitor.report_snd]
  refine ⟨counted, ?_⟩
  unfold Monitor.report
  rcases hcount : m.count h with ⟨result, m'⟩
  rw [hcount] at hseals
  cases result with
  | error e => exact hseals
  | ok seals =>
    exact ⟨⟨seals, hseals, rfl, rfl⟩, rfl, rfl, toNat_elapsedBetween previous h.timestamp⟩

end TookIn

/-! ## Looking blocks up -/

/-- A block is had from the cache, or it is fetched. -/
inductive Obtains (n : UInt64) (h : Header) : List Fetch → Prop where
  | kept : Obtains n h []
  | fetched : Obtains n h [(.number n, .ok (some h))]

/-- The answer to a fetch is in the log, whether it brings a header or not. -/
theorem TookIn.ensures_fetch (block : BlockNumber) (s₀ : γ × List Fetch) :
    Inquiry.Ensures g.logged Eq (fun _ _ => True)
      (fun m s => TookIn m₀ log₀ before m s.2 ∧ s = s₀) (Monitor.fetch block)
      (fun h m s => (g (.header block) s₀.1).1 = .ok (some h) ∧
        TookIn m₀ log₀ (before ++ { fetches := [(block, .ok (some h))] }) m s.2)
      (fun e m s => ∃ answer, (g (.header block) s₀.1).1 = answer ∧
        Fetch.failure? (block, answer) = some e ∧
        TookIn m₀ log₀ (before ++ { fetches := [(block, answer)] }) m s.2) := by
  refine .bind (Q := fun answer m s => (g (.header block) s₀.1).1 = .ok answer ∧
    TookIn m₀ log₀ (before ++ { fetches := [(block, .ok answer)] }) m s.2)
    (.ask (fun _ _ _ => trivial) ?_ ?_) ?_
  · rintro m s _ answer ⟨tookIn, rfl⟩ rfl hanswer
    rw [g.log_header, hanswer]
    exact ⟨hanswer, tookIn.asked _⟩
  · rintro m s _ e ⟨tookIn, rfl⟩ rfl he
    rw [g.log_header, he]
    exact ⟨.error e, he, rfl, tookIn.asked _⟩
  · intro answer
    cases answer with
    | none => exact .fail fun m s hQ => ⟨.ok none, hQ.1, rfl, hQ.2⟩
    | some h =>
      refine .bind (.change ?_) fun _ => .pure fun m s hQ => hQ
      rintro m s ⟨served, tookIn⟩
      exact ⟨served, tookIn.of_cache _⟩

/-- The head is always fetched. -/
theorem TookIn.ensures_latest (s₀ : γ × List Fetch) :
    Inquiry.Ensures g.logged Eq (fun _ _ => True)
      (fun m s => TookIn m₀ log₀ before m s.2 ∧ s = s₀) (Monitor.header .latest)
      (fun h m s => (g (.header .latest) s₀.1).1 = .ok (some h) ∧
        TookIn m₀ log₀ (before ++ { fetches := [(.latest, .ok (some h))] }) m s.2)
      (fun e m s => ∃ answer, (g (.header .latest) s₀.1).1 = answer ∧
        Fetch.failure? (.latest, answer) = some e ∧
        TookIn m₀ log₀ (before ++ { fetches := [(.latest, answer)] }) m s.2) := by
  refine .bind (.change ?_) fun _ => TookIn.ensures_fetch .latest s₀
  rintro m s ⟨tookIn, hs⟩
  exact ⟨tookIn.of_journal _, hs⟩

theorem TookIn.ensures_block (n : UInt64) :
    Inquiry.Ensures g.logged Eq (fun _ _ => True) (fun m s => TookIn m₀ log₀ before m s.2)
      (Monitor.header (.number n))
      (fun h m s => ∃ fetches, Obtains n h fetches ∧
        TookIn m₀ log₀ (before ++ { fetches }) m s.2)
      (fun e m s => ∃ answer, Fetch.failure? (.number n, answer) = some e ∧
        TookIn m₀ log₀ (before ++ { fetches := [(.number n, answer)] }) m s.2) := by
  refine .bind (Q := fun _ m s => TookIn m₀ log₀ before m s.2) (.ofOperation ?_ ?_) ?_
  · intro m s found tookIn _
    exact (tookIn.of_cache _).of_journal _
  · intro m s e tookIn he
    cases he
  · intro found m s tookIn
    cases found with
    | some h =>
      refine ⟨[], .kept, ?_⟩
      rwa [Intake.append_nothing]
    | none =>
      -- only now is the node asked, and it stands where it stood
      refine (TookIn.ensures_fetch (.number n) s).weaken (fun m s h => h) ?_ ?_ m s ⟨tookIn, rfl⟩
      · rintro h m s ⟨-, tookIn⟩
        exact ⟨_, .fetched, tookIn⟩
      · rintro e m s ⟨answer, -, fails, tookIn⟩
        exact ⟨answer, fails, tookIn⟩

/-! ## Taking blocks in -/

/-- A run lives with a failure, unless it ended the session. -/
theorem TookIn.ensures_tolerate (w : Warning) (e : MonitorError) :
    Inquiry.Ensures g.logged Eq (fun _ _ => True) (fun m s => TookIn m₀ log₀ before m s.2)
      (tolerate w e) (fun _ m s => e.terminal? = none ∧ TookIn m₀ log₀ before m s.2)
      (fun e' m s => ∃ t, e = .transport t ∧ t.isTerminal = true ∧
        e' = .sessionTerminated (.transport t) ∧ TookIn m₀ log₀ before m s.2) := by
  cases hterminal : e.terminal? with
  | none =>
    simp only [tolerate, hterminal]
    exact .change fun m s tookIn => ⟨trivial, tookIn.of_journal _⟩
  | some t =>
    obtain ⟨rfl, terminal⟩ := MonitorError.terminal?_eq_some.mp hterminal
    simp only [tolerate, hterminal]
    exact .fail fun m s tookIn => ⟨t, rfl, terminal, rfl, tookIn⟩

/-- No failure to recover signers ends the session. -/
theorem TookIn.ensures_tolerate_mild {F : Prop} (w : Warning) (e : MonitorError) :
    Inquiry.Ensures g.logged Eq (fun _ _ => True)
      (fun m s => TookIn m₀ log₀ before m s.2 ∧ e.terminal? = none ∧ F) (tolerate w e)
      (fun _ m s => TookIn m₀ log₀ before m s.2 ∧ F) (fun _ _ _ => False) := by
  rintro m s ⟨tookIn, mild, hF⟩
  simp only [tolerate, mild]
  exact ⟨tookIn.of_journal _, hF⟩

/-- A block is processed whatever its seals say. -/
theorem TookIn.ensures_process (h : Header) (previous : UInt64) :
    Inquiry.Ensures g.logged Eq (fun _ _ => True) (fun m s => TookIn m₀ log₀ before m s.2)
      (process h previous)
      (fun _ m s => ∃ told, Reported m₀.recover previous [h] told ∧
        TookIn m₀ log₀ (before ++ { blocks := [h], told }) m s.2)
      (fun _ _ _ => False) := by
  refine .bind (Q := fun result m s => TookIn m₀ log₀ (before ++ { blocks := [h] }) m s.2 ∧
    match result with
    | .ok r => Describes m₀.recover previous h r
    | .error e => e.terminal? = none ∧ ∀ seals, Seals.ofHeader m₀.recover h ≠ .ok seals)
    (.attempt (.ofOperation ?_ ?_)) ?_
  · intro m s r tookIn hr
    have reported := tookIn.report h previous
    rwa [hr] at reported
  · intro m s e tookIn he
    have reported := tookIn.report h previous
    rwa [he] at reported
  · intro result
    cases result with
    | ok r =>
      refine .change ?_
      rintro m s ⟨tookIn, describes⟩
      refine ⟨[r], .shown describes (.nil _), ?_⟩
      have published := tookIn.publish r
      rwa [Intake.append_assoc] at published
    | error e =>
      refine (TookIn.ensures_tolerate_mild .blockNotProcessed e).weaken (fun m s hQ => hQ) ?_
        (fun e m s hE => hE)
      rintro _ m s ⟨tookIn, unsigned⟩
      exact ⟨[], .silent unsigned (.nil _), tookIn⟩

/-- The first announced block is counted without a report. -/
theorem TookIn.ensures_countFirst (h : Header) :
    Inquiry.Ensures g.logged Eq (fun _ _ => True) (fun m s => TookIn m₀ log₀ before m s.2)
      (countFirst h) (fun _ m s => TookIn m₀ log₀ (before ++ { blocks := [h] }) m s.2)
      (fun _ _ _ => False) := by
  refine .bind (Q := fun result m s => TookIn m₀ log₀ (before ++ { blocks := [h] }) m s.2 ∧
    match result with
    | .ok seals => Seals.ofHeader m₀.recover h = .ok seals
    | .error e => e.terminal? = none ∧ ∀ seals, Seals.ofHeader m₀.recover h ≠ .ok seals)
    (.attempt (.ofOperation ?_ ?_)) ?_
  · intro m s seals tookIn hseals
    have counted := tookIn.count h
    rwa [hseals] at counted
  · intro m s e tookIn he
    have counted := tookIn.count h
    rwa [he] at counted
  · intro result
    cases result with
    | ok seals => exact .pure fun m s hQ => hQ.1
    | error e =>
      exact (TookIn.ensures_tolerate_mild .blockNotCounted e).weaken (fun m s hQ => hQ)
        (fun _ m s hQ => hQ.1) (fun e m s hE => hE)

/-! ## Blocks one after another -/

/-- The progress once some blocks are taken in, each under the next number. -/
def Progress.advance (p : Progress) (blocks : List Header) : Progress :=
  blocks.foldl (fun p h => ⟨p.last + 1, h.timestamp⟩) p

/-- What the next `n` blocks after `last` come to: they are taken in one after the other, and the
first one that is fetched in vain ends this. -/
inductive CatchesUp : Nat → UInt64 → List Fetch → List Header → Option MonitorError → Prop where
  | done (last : UInt64) : CatchesUp 0 last [] [] none
  | missed {n : Nat} {last : UInt64} {answer : Except MonitorError (Option Header)}
      {e : MonitorError} (fails : Fetch.failure? (.number (last + 1), answer) = some e) :
      CatchesUp (n + 1) last [(.number (last + 1), answer)] [] (some e)
  | next {n : Nat} {last : UInt64} {h : Header} {first fetches : List Fetch} {blocks : List Header}
      {failure : Option MonitorError} (obtains : Obtains (last + 1) h first)
      (rest : CatchesUp n (last + 1) fetches blocks failure) :
      CatchesUp (n + 1) last (first ++ fetches) (h :: blocks) failure

theorem Obtains.sound {n : UInt64} {fetches : List Fetch} (obtains : Obtains n h fetches) :
    ∀ f ∈ fetches, f.failure? = none := by
  cases obtains with
  | kept => exact fun f mem => absurd mem List.not_mem_nil
  | fetched =>
    intro f mem
    cases List.mem_singleton.mp mem
    rfl

theorem CatchesUp.failsLast {n : Nat} {last : UInt64} {fetches : List Fetch}
    {blocks : List Header} {failure : Option MonitorError}
    (h : CatchesUp n last fetches blocks failure) : Fetch.FailsLast fetches failure := by
  induction h with
  | done last => exact .sound fun f mem => absurd mem List.not_mem_nil
  | missed fails => exact .fails (fun f mem => absurd mem List.not_mem_nil) fails
  | next obtains rest ih => exact ih.prepend obtains.sound

theorem CatchesUp.length_le {n : Nat} {last : UInt64} {fetches : List Fetch}
    {blocks : List Header} {failure : Option MonitorError}
    (h : CatchesUp n last fetches blocks failure) : blocks.length ≤ n := by
  induction h with
  | done last => exact Nat.zero_le _
  | missed fails => exact Nat.zero_le _
  | next obtains rest ih => exact Nat.succ_le_succ ih

/-- Each block takes the progress one number further. -/
theorem Progress.toNat_advance (p : Progress) (blocks : List Header)
    (room : p.last.toNat + blocks.length < 0x10000000000000000) :
    (p.advance blocks).last.toNat = p.last.toNat + blocks.length := by
  induction blocks generalizing p with
  | nil => rfl
  | cons h blocks ih =>
    rw [List.length_cons] at room ⊢
    have hnext : (p.last + 1).toNat = p.last.toNat + 1 := toNat_next (by omega)
    have hroom : (p.last + 1).toNat + blocks.length < 0x10000000000000000 := by omega
    have hrest : (p.advance (h :: blocks)).last.toNat = (p.last + 1).toNat + blocks.length :=
      ih ⟨p.last + 1, h.timestamp⟩ hroom
    rw [hrest, hnext]
    omega

/-- A run that catches up goes no further than to its head. -/
theorem CatchesUp.last_le {p : Progress} {head : UInt64} {fetches : List Fetch}
    {blocks : List Header} {failure : Option MonitorError}
    (h : CatchesUp (head.toNat - p.last.toNat) p.last fetches blocks failure)
    (some_block : blocks ≠ []) : (p.advance blocks).last ≤ head := by
  have hlength := h.length_le
  have hpos := List.length_pos_iff.mpr some_block
  have hhead := head.toNat_lt
  rw [UInt64.le_iff_toNat_le, p.toNat_advance blocks (by omega)]
  omega

/-! ## Dialogues that take blocks in -/

section Ingests

variable (takes : List Fetch → List Header → Option MonitorError → Prop)
  (tells : SignerRecovery → List Header → List BlockReport → Prop) (result : List Header → α)

/-- What `takes` and `tells` allow was added to the intake of a run, which can live with the failure
that it met, if any. -/
def Ingested (m₀ : Monitor) (log₀ : List Fetch) (before : Intake) (a : α) (m : Monitor)
    (s : γ × List Fetch) : Prop :=
  ∃ more failure, takes more.fetches more.blocks failure ∧ (∀ e ∈ failure, e.terminal? = none) ∧
    tells m₀.recover more.blocks more.told ∧ a = result more.blocks ∧
    TookIn m₀ log₀ (before ++ more) m s.2

/-- What `takes` and `tells` allow was added to the intake of a run until the session was found
dead. -/
def CutOff (m₀ : Monitor) (log₀ : List Fetch) (before : Intake) (e : RunError) (m : Monitor)
    (s : γ × List Fetch) : Prop :=
  ∃ more t, takes more.fetches more.blocks (some (.transport t)) ∧ t.isTerminal = true ∧
    tells m₀.recover more.blocks more.told ∧ e = .sessionTerminated (.transport t) ∧
    TookIn m₀ log₀ (before ++ more) m s.2

/-- An inquiry that takes in what `takes` and `tells` allow. -/
def Ingests (g : Gateway γ) (i : Inquiry RunError α) : Prop :=
  ∀ (m₀ : Monitor) (log₀ : List Fetch) (before : Intake),
    Inquiry.Ensures g.logged Eq (fun _ _ => True) (fun m s => TookIn m₀ log₀ before m s.2) i
      (Ingested takes tells result m₀ log₀ before) (CutOff takes tells m₀ log₀ before)

end Ingests

variable {takes : List Fetch → List Header → Option MonitorError → Prop}
  {tells : SignerRecovery → List Header → List BlockReport → Prop} {result : List Header → α}

/-- Nothing is taken in. -/
theorem Ingested.nothing (taken : takes [] [] none) (told : tells m₀.recover [] [])
    {s : γ × List Fetch} (tookIn : TookIn m₀ log₀ before m s.2) :
    Ingested takes tells result m₀ log₀ before (result []) m s := by
  refine ⟨{}, none, taken, by simp, told, rfl, ?_⟩
  rwa [Intake.append_nothing]

/-- A fetch in vain adds no block. -/
theorem ensures_missed {f : Fetch} {w : Warning} {e : MonitorError} {a : α}
    (taken : takes [f] [] (some e)) (told : tells m₀.recover [] []) (ha : a = result []) :
    Inquiry.Ensures g.logged Eq (fun _ _ => True)
      (fun m s => TookIn m₀ log₀ (before ++ { fetches := [f] }) m s.2) (do tolerate w e; return a)
      (Ingested takes tells result m₀ log₀ before) (CutOff takes tells m₀ log₀ before) := by
  refine .bind ((TookIn.ensures_tolerate w e).weaken (fun m s tookIn => tookIn)
    (fun _ m s hQ => hQ) ?_) fun _ => .pure ?_
  · rintro _ m s ⟨t, rfl, terminal, rfl, tookIn⟩
    exact ⟨{ fetches := [f] }, t, taken, terminal, told, rfl, tookIn⟩
  · rintro m s ⟨mild, tookIn⟩
    refine ⟨{ fetches := [f] }, some e, taken, ?_, told, ha, tookIn⟩
    rintro _ ⟨⟩
    exact mild

/-- An inquiry takes in what comes after `first`. -/
theorem Ingests.ensures_after {takes' : List Fetch → List Header → Option MonitorError → Prop}
    {tells' : SignerRecovery → List Header → List BlockReport → Prop}
    {result' : List Header → α} {i : Inquiry RunError α} (h : Ingests takes tells result g i)
    {first : Intake}
    (taken : ∀ {fetches blocks failure}, takes fetches blocks failure →
      takes' (first.fetches ++ fetches) (first.blocks ++ blocks) failure)
    (told : ∀ {blocks reports}, tells m₀.recover blocks reports →
      tells' m₀.recover (first.blocks ++ blocks) (first.told ++ reports))
    (same : ∀ blocks, result blocks = result' (first.blocks ++ blocks)) :
    Inquiry.Ensures g.logged Eq (fun _ _ => True)
      (fun m s => TookIn m₀ log₀ (before ++ first) m s.2) i
      (Ingested takes' tells' result' m₀ log₀ before) (CutOff takes' tells' m₀ log₀ before) := by
  refine (h m₀ log₀ (before ++ first)).weaken (fun m s tookIn => tookIn) ?_ ?_
  · rintro a m s ⟨more, failure, htakes, lives, htells, ha, tookIn⟩
    rw [Intake.append_assoc] at tookIn
    exact ⟨first ++ more, failure, taken htakes, lives, told htells, ha.trans (same _), tookIn⟩
  · rintro e m s ⟨more, t, htakes, terminal, htells, he, tookIn⟩
    rw [Intake.append_assoc] at tookIn
    exact ⟨first ++ more, t, taken htakes, terminal, told htells, he, tookIn⟩

/-- The result of an inquiry may be put to use. -/
theorem Ingests.map {β : Type} {i : Inquiry RunError α} (h : Ingests takes tells result g i)
    (f : α → β) :
    Ingests takes tells (fun blocks => f (result blocks)) g (do return f (← i)) := by
  intro m₀ log₀ before
  refine .bind (h m₀ log₀ before) fun a => .pure ?_
  rintro m s ⟨more, failure, htakes, lives, htells, rfl, tookIn⟩
  exact ⟨more, failure, htakes, lives, htells, rfl, tookIn⟩

/-- A block is looked up. If it cannot be had, nothing more is taken in. -/
theorem ensures_lookUp {n : UInt64} {w : Warning} {a : α} {next : Header → Inquiry RunError α}
    (missed : ∀ {answer e}, Fetch.failure? (.number n, answer) = some e →
      takes [(.number n, answer)] [] (some e))
    (told : tells m₀.recover [] []) (ha : a = result [])
    (had : ∀ {h fetches}, Obtains n h fetches → Inquiry.Ensures g.logged Eq (fun _ _ => True)
      (fun m s => TookIn m₀ log₀ (before ++ { fetches }) m s.2) (next h)
      (Ingested takes tells result m₀ log₀ before) (CutOff takes tells m₀ log₀ before)) :
    Inquiry.Ensures g.logged Eq (fun _ _ => True) (fun m s => TookIn m₀ log₀ before m s.2)
      (do
        match ← (Monitor.header (.number n)).attempt with
        | .error e =>
          tolerate w e
          return a
        | .ok h => next h)
      (Ingested takes tells result m₀ log₀ before) (CutOff takes tells m₀ log₀ before) := by
  refine .bind (Q := fun found m s =>
    match found with
    | .ok h => ∃ fetches, Obtains n h fetches ∧ TookIn m₀ log₀ (before ++ { fetches }) m s.2
    | .error e => ∃ answer, Fetch.failure? (.number n, answer) = some e ∧
        TookIn m₀ log₀ (before ++ { fetches := [(.number n, answer)] }) m s.2)
    (.attempt (TookIn.ensures_block n)) ?_
  intro found
  cases found with
  | error e =>
    rintro m s ⟨answer, fails, tookIn⟩
    exact ensures_missed (missed fails) told ha m s tookIn
  | ok h =>
    rintro m s ⟨fetches, obtains, tookIn⟩
    exact had obtains m s tookIn

/-- The blocks of a run that catches up are taken in up to the last one, or up to the first one that
it does not get. -/
theorem ingests_catchUp (n : Nat) (p : Progress) :
    Ingests (CatchesUp n p.last) (fun recover => Reported recover p.previous) p.advance g
      (catchUp n p) := by
  induction n generalizing p with
  | zero => exact fun m₀ log₀ before => .pure fun m s => .nothing (.done p.last) (.nil p.previous)
  | succ n ih =>
    intro m₀ log₀ before
    refine ensures_lookUp .missed (.nil p.previous) rfl ?_
    intro h first obtains
    -- the block is handed over, and the rest starts from it
    refine .bind_sure (TookIn.ensures_process h p.previous) fun _ => ?_
    rintro m s ⟨told, reported, tookIn⟩
    rw [Intake.append_assoc, Intake.fetched_append] at tookIn
    exact (ih ⟨p.last + 1, h.timestamp⟩).ensures_after (fun rest => .next obtains rest)
      (fun rest => reported.append (p := p) rest) (fun blocks => rfl) m s tookIn

end Follow

end IstanbulMonitor
