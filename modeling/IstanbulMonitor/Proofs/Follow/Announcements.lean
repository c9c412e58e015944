import IstanbulMonitor.Proofs.Follow.Endurance

/-!
# Every announced head after the first is reported

A run that is subscribed hears of one head after another, whatever the events say: a head may be
announced again, out of order or after a gap, and an event may name none. `Run.gets` are the headers
that the run gets for them. As long as no fetch finds the session dead, the run counts each of these
headers as a call would that hands it in, and reports on each but the first, with the time since the
one before it; an event for which it gets no header changes none of this (`heeds`). The time is
taken from the header before even if the signers of that one are not known.
-/

set_option autoImplicit false

namespace IstanbulMonitor

variable {γ : Type} {g : Gateway γ}

/-! ## One header -/

/-- Looking a header up leaves a monitor as it was, apart from its cache and its journal. It fails
in a way that does not end the session, unless the node does. -/
theorem Monitor.ensures_header_number (n : UInt64) (m₀ : Monitor) (x₀ : γ)
    (mild : ∀ e, (g (.header (.number n)) x₀).1 = .error e → e.terminal? = none) :
    Inquiry.Ensures g Eq (fun _ _ => True) (fun m x => m = m₀ ∧ x = x₀) (header (.number n))
      (fun _ m _ => ∃ cache journal, m = { m₀ with cache, journal })
      (fun e m _ => e.terminal? = none ∧ ∃ cache journal, m = { m₀ with cache, journal }) := by
  refine .bind (Q := fun _ m x => x = x₀ ∧ ∃ cache journal, m = { m₀ with cache, journal })
    (.ofOperation ?_ ?_) ?_
  · rintro m x found ⟨rfl, rfl⟩ -
    exact ⟨rfl, _, _, rfl⟩
  · rintro m x e - failed
    cases failed
  · intro found
    cases found with
    | some h => exact .pure fun m x hQ => hQ.2
    | none =>
      -- what is not in the cache is fetched
      refine .bind (Q := fun _ m _ => ∃ cache journal, m = { m₀ with cache, journal })
        (.ask (fun _ _ _ => trivial) ?_ ?_) ?_
      · rintro m x y answer ⟨-, kept⟩ - -
        exact kept
      · rintro m x y e ⟨rfl, kept⟩ rfl failed
        exact ⟨mild e failed, kept⟩
      · intro answer
        cases answer with
        | none => exact .fail fun m x kept => ⟨rfl, kept⟩
        | some h =>
          refine .bind (.change ?_) fun _ => .pure fun m x kept => kept
          rintro m x ⟨cache, journal, rfl⟩
          exact ⟨_, journal, rfl⟩

/-- Headers that are handed in one after another are counted in this order. -/
theorem Monitor.afterCalls_update (g : Gateway γ) (blocks : List Header) (m : Monitor) (x : γ) :
    (m.afterCalls g (blocks.map .update) x).1.statistics =
      blocks.foldl (·.countSigned m.recover) m.statistics := by
  induction blocks generalizing m with
  | nil => rfl
  | cons h blocks ih =>
    have submitted : h ∈ (MonitorCall.update h).submitted := List.mem_singleton_self h
    have updated : m.afterCalls g ((h :: blocks).map .update) x =
        (m.count h).2.afterCalls g (blocks.map .update) x := by
      rw [List.map_cons, afterCalls, List.foldl_cons, after_submitted g submitted]
      rfl
    have counted : (m.count h).2.recover = m.recover ∧
        (m.count h).2.statistics = m.statistics.countSigned m.recover h := by
      rcases m.count_cases h with ⟨e, journal, hseals, hcount⟩ | ⟨seals, journal, hseals, hcount⟩
      · rw [hcount, Statistics.countSigned, hseals]
        exact ⟨rfl, rfl⟩
      · rw [hcount, Statistics.countSigned, hseals]
        exact ⟨rfl, rfl⟩
    rw [updated, ih, counted.1, counted.2, List.foldl_cons]

namespace Follow

variable {m₀ m : Monitor} {log₀ log : List Fetch} {before : Intake} {x : γ}

/-- A run lives with a failure that does not end the session, and only warns of it. -/
theorem runWith_tolerate (w : Warning) {e : MonitorError} (mild : e.terminal? = none) :
    (tolerate w e).runWith g m x = (.ok (), m.warn w, x) := by
  simp only [tolerate, mild]
  rfl

namespace TookIn

variable (tookIn : TookIn m₀ log₀ before m log)
include tookIn

theorem runWith_process (g : Gateway γ) (x : γ) (h : Header) (previous : UInt64) :
    ∃ m' told, (process h previous).runWith g m x = (.ok (), m', x) ∧
      Reported m₀.recover previous [h] told ∧
      TookIn m₀ log₀ (before ++ { blocks := [h], told }) m' log := by
  obtain ⟨counted, described⟩ := tookIn.report h previous
  rw [process, Inquiry.runWith_bind, Inquiry.runWith_attempt, Monitor.reportHeader,
    Inquiry.runWith_ofOperation]
  rcases hreport : m.report h previous with ⟨result, m'⟩
  rw [hreport] at counted described
  cases result with
  | ok r =>
    have published := counted.publish r
    rw [Intake.append_assoc] at published
    exact ⟨_, [r], rfl, .shown described (.nil _), published⟩
  | error e =>
    obtain ⟨mild, unsigned⟩ := described
    exact ⟨_, [], runWith_tolerate _ mild, .silent unsigned (.nil _), counted.of_journal _⟩

theorem runWith_countFirst (g : Gateway γ) (x : γ) (h : Header) :
    ∃ m', (countFirst h).runWith g m x = (.ok (), m', x) ∧
      TookIn m₀ log₀ (before ++ { blocks := [h] }) m' log := by
  obtain ⟨counted, named⟩ := tookIn.count h
  rw [countFirst, Inquiry.runWith_bind, Inquiry.runWith_attempt, Monitor.countHeader,
    Inquiry.runWith_ofOperation]
  rcases hcount : m.count h with ⟨result, m'⟩
  rw [hcount] at counted named
  cases result with
  | ok seals => exact ⟨_, rfl, counted⟩
  | error e => exact ⟨_, runWith_tolerate _ named.1, counted.of_journal _⟩

end TookIn

/-! ## Announced heads -/

/-- The header that a monitor gets for an event, if the event names a head and its header can be
had. -/
def headerOf? (g : Gateway γ) (m : Monitor) (event : Json) (x : γ) : Option Header :=
  match announcedNumber event with
  | .ok n => ((Monitor.header (.number n)).runWith g m x).1.toOption
  | .error _ => none

namespace Run

/-- A run that hears of some heads. At each of these events the node stands as it happens to. -/
def heard (g : Gateway γ) (r : Run) (heads : List (Json × γ)) : Run :=
  heads.foldl (fun r head => (r.announced head.1).serve g head.2) r

/-- The header that a run gets when it hears of a head. -/
def gets? (g : Gateway γ) (r : Run) (head : Json × γ) : Option Header :=
  match r.stage with
  | .waiting m (.head _) => headerOf? g m head.1 head.2
  | _ => none

/-- The headers that a run gets, in the order of the events. -/
def gets (g : Gateway γ) (r : Run) : List (Json × γ) → List Header
  | [] => []
  | head :: heads => (r.gets? g head).toList ++ (r.heard g [head]).gets g heads

theorem heard_append (g : Gateway γ) (r : Run) (heads more : List (Json × γ)) :
    r.heard g (heads ++ more) = (r.heard g heads).heard g more := List.foldl_append

end Run

/-- The reports on announced blocks, after one with the given timestamp if there was one: the first
block of all is not reported on. -/
def Announced (recover : SignerRecovery) :
    Option UInt64 → List Header → List BlockReport → Prop
  | some before, blocks, told => Reported recover before blocks told
  | none, [], told => told = []
  | none, first :: rest, told => Reported recover first.timestamp rest told

/-- The timestamp of the last of some blocks, or the given one if there are none. -/
def baseline (previous : Option UInt64) (blocks : List Header) : Option UInt64 :=
  blocks.foldl (fun _ h => some h.timestamp) previous

theorem baseline_eq (blocks : List Header) :
    baseline none blocks = blocks.getLast?.map (·.timestamp) := by
  induction blocks using List.reverseRecOn with
  | nil => rfl
  | append_singleton blocks h _ => simp [baseline]

theorem baseline_append (previous : Option UInt64) (blocks more : List Header) :
    baseline previous (blocks ++ more) = baseline (baseline previous blocks) more :=
  List.foldl_append

theorem announced_nil (recover : SignerRecovery) (previous : Option UInt64) :
    Announced recover previous [] [] := by
  cases previous with
  | none => rfl
  | some before => exact .nil before

/-- What is reported on the blocks of one event, and then on those of the events after it. -/
theorem Announced.append {recover : SignerRecovery} {previous : Option UInt64}
    {found : Option Header} {more : List Header} {told rest : List BlockReport}
    (first : Announced recover previous found.toList told)
    (after : Announced recover (baseline previous found.toList) more rest) :
    Announced recover previous (found.toList ++ more) (told ++ rest) := by
  cases previous with
  | none =>
    cases found with
    | none =>
      cases first
      exact after
    | some h =>
      -- the first block is not reported on, and the time is taken from it
      cases first
      exact after
  | some before =>
    cases found with
    | none =>
      cases first
      exact after
    | some h =>
      exact Reported.append (p := ⟨0, before⟩) first after

/-- One event: the block that is got for it is taken in. -/
theorem TookIn.runWith_takeHead (tookIn : TookIn m₀ log₀ before m log) (previous : Option UInt64)
    (event : Json)
    (mild : ∀ n e, (g (.header (.number n)) x).1 = .error e → e.terminal? = none) :
    ∃ m' x' told, (takeHead previous event).runWith g m x =
        (.ok (baseline previous (headerOf? g m event x).toList), m', x') ∧
      Announced m₀.recover previous (headerOf? g m event x).toList told ∧
      TookIn m₀ log₀ (before ++ { blocks := (headerOf? g m event x).toList, told }) m' log := by
  have untold := announced_nil m₀.recover previous
  have unmoved : ∀ {m' : Monitor}, TookIn m₀ log₀ before m' log →
      TookIn m₀ log₀ (before ++ { blocks := [], told := [] }) m' log := by
    intro m' tookIn
    rwa [Intake.append_nothing]
  unfold takeHead headerOf?
  cases announcedNumber event with
  | error reason => exact ⟨_, x, [], rfl, untold, unmoved (tookIn.of_journal _)⟩
  | ok n =>
    have looked := (Monitor.ensures_header_number n m x (mild n)).runWith ⟨rfl, rfl⟩
    have same : ∀ {m' : Monitor}, (∃ cache journal, m' = { m with cache, journal }) →
        TookIn m₀ log₀ before m' log := by
      rintro _ ⟨cache, journal, rfl⟩
      exact (tookIn.of_cache cache).of_journal journal
    simp only [Inquiry.runWith_bind, Inquiry.runWith_attempt]
    rcases hheader : (Monitor.header (.number n)).runWith g m x with ⟨result, m', x'⟩
    rw [hheader] at looked
    cases result with
    | error e =>
      obtain ⟨mild, kept⟩ := looked
      refine ⟨m'.warn .headerNotFetched, x', [], ?_, untold,
        unmoved ((same kept).of_journal _)⟩
      simp only [Inquiry.runWith_bind, runWith_tolerate _ mild]
      rfl
    | ok h =>
      have found := same looked
      cases previous with
      | none =>
        obtain ⟨m', hrun, counted⟩ := found.runWith_countFirst g x' h
        refine ⟨m', x', [], ?_, .nil _, counted⟩
        simp only [Inquiry.runWith_bind, hrun]
        rfl
      | some before =>
        obtain ⟨m', told, hrun, reported, processed⟩ := found.runWith_process g x' h before
        refine ⟨m', x', told, ?_, reported, processed⟩
        simp only [Inquiry.runWith_bind, hrun]
        rfl

/-! ## Runs -/

variable {r : Run} {previous : Option UInt64}

/-- One event. -/
theorem TookIn.heard_singleton (tookIn : TookIn m₀ log₀ before m log)
    (hstage : r.stage = .waiting m (.head previous)) (head : Json × γ)
    (mild : ∀ n e, (g (.header (.number n)) head.2).1 = .error e → e.terminal? = none) :
    ∃ m' told, (r.heard g [head]).stage =
        .waiting m' (.head (baseline previous (r.gets? g head).toList)) ∧
      Announced m₀.recover previous (r.gets? g head).toList told ∧
      TookIn m₀ log₀ (before ++ { blocks := (r.gets? g head).toList, told }) m' log := by
  obtain ⟨m', x', told, hrun, announced, tookIn'⟩ :=
    tookIn.runWith_takeHead previous head.1 mild
  have hgets : r.gets? g head = headerOf? g m head.1 head.2 := by
    simp only [Run.gets?, hstage]
  have works : r.announced head.1 =
      r.work false m (do return .head (← takeHead previous head.1)) := by
    simp only [Run.announced, hstage]
  have hwork : (do return Next.head (← takeHead previous head.1) : Inquiry RunError Next).runWith
      g m head.2 =
        (.ok (.head (baseline previous (headerOf? g m head.1 head.2).toList)), m', x') := by
    rw [Inquiry.runWith_bind, hrun]
    rfl
  rw [hgets]
  refine ⟨m', told, ?_, announced, tookIn'⟩
  rw [Run.heard, List.foldl_cons, List.foldl_nil, works, Run.serve_work hwork]
  rfl

/-- Any number of events. -/
theorem TookIn.heard (tookIn : TookIn m₀ log₀ before m log)
    (hstage : r.stage = .waiting m (.head previous)) (heads : List (Json × γ))
    (mild : ∀ head ∈ heads, ∀ n e, (g (.header (.number n)) head.2).1 = .error e →
      e.terminal? = none) :
    ∃ m' told, (r.heard g heads).stage = .waiting m' (.head (baseline previous (r.gets g heads))) ∧
      Announced m₀.recover previous (r.gets g heads) told ∧
      TookIn m₀ log₀ (before ++ { blocks := r.gets g heads, told }) m' log := by
  -- induction over the events to come, from wherever the run waits for the next one
  induction heads generalizing r m previous before with
  | nil =>
    refine ⟨m, [], hstage, announced_nil _ _, ?_⟩
    rwa [Run.gets, Intake.append_nothing]
  | cons head heads ih =>
    obtain ⟨m₁, told₁, hstage₁, announced₁, tookIn₁⟩ :=
      tookIn.heard_singleton hstage head (mild head List.mem_cons_self)
    obtain ⟨m₂, told₂, hstage₂, announced₂, tookIn₂⟩ :=
      ih tookIn₁ hstage₁ fun head mem => mild head (List.mem_cons_of_mem _ mem)
    rw [Intake.append_assoc] at tookIn₂
    refine ⟨m₂, told₁ ++ told₂, ?_, announced₁.append announced₂, tookIn₂⟩
    rw [Run.gets, baseline_append, ← hstage₂]
    rfl

/-- A run whose subscription is created. -/
def Run.listening (r : Run) (m : Monitor) : Run :=
  ({ r with stage := .waiting m .subscribe } : Run).subscribed (.ok ())

/-- What comes of some announced heads, from the creation of the subscription on. -/
structure Heeds (g : Gateway γ) (r : Run) (m : Monitor) (heads : List (Json × γ)) (m' : Monitor)
    (told : List BlockReport) : Prop where
  /-- The run waits for the next head, and takes the time from the last header that it got. -/
  waits : ((r.listening m).heard g heads).stage =
    .waiting m' (.head (((r.listening m).gets g heads).getLast?.map (·.timestamp)))
  /-- What it has published is what it tells of the headers. -/
  published : m'.published = m.published ++ told
  /-- Of the first header it tells nothing. -/
  silent : (r.listening m).gets g heads = [] → told = []
  /-- Of the others it tells those whose signers are known, in their order, each with the time since
  the one before it. -/
  tells : ∀ first rest, (r.listening m).gets g heads = first :: rest →
    Reported m.recover first.timestamp rest told
  /-- They are counted as if they were handed in one after another. -/
  counts : ∀ x, m'.statistics =
    (m.afterCalls g (((r.listening m).gets g heads).map .update) x).1.statistics
  /-- An event without a header leaves the reports, the statistics, and the time to take as they
  were. -/
  idle : ∀ earlier head later, heads = earlier ++ head :: later →
    ((r.listening m).heard g earlier).gets? g head = none →
      ∃ m₁ m₂ place, ((r.listening m).heard g earlier).stage = .waiting m₁ place ∧
        ((r.listening m).heard g (earlier ++ [head])).stage = .waiting m₂ place ∧
        m₂.published = m₁.published ∧ m₂.statistics = m₁.statistics

/-- **Every announced head after the first is reported.** A run that is subscribed hears of any
heads in any order, and the node answers each fetch in any way that does not end the session. Then
the run goes on waiting for heads. It reports on each header that it gets, in the order of the
events, except on the first one and on those whose signers are not known, and counts all of them as
if they were handed in. The time on a report is the one since the header before, whether or not that
one was counted. -/
theorem heeds (g : Gateway γ) (r : Run) (m : Monitor) (heads : List (Json × γ))
    (mild : ∀ head ∈ heads, ∀ n e, (g (.header (.number n)) head.2).1 = .error e →
      e.terminal? = none) : ∃ m' told, Heeds g r m heads m' told := by
  have hstage : (r.listening m).stage = .waiting m (.head none) := rfl
  obtain ⟨m', told, waits, announced, tookIn⟩ :=
    (TookIn.nothing m []).heard hstage heads mild
  refine ⟨m', told, ?_, tookIn.published_eq, ?_, ?_, ?_, ?_⟩
  · rw [waits, baseline_eq]
  · intro hgets
    rw [hgets] at announced
    exact announced
  · intro first rest hgets
    rw [hgets] at announced
    exact announced
  · intro x
    rw [Monitor.afterCalls_update, tookIn.statistics_eq]
    rfl
  · rintro earlier head later rfl nothing
    obtain ⟨m₁, told₁, hstage₁, -, -⟩ := (TookIn.nothing m []).heard hstage earlier
      fun head mem => mild head (List.mem_append_left _ mem)
    obtain ⟨m₂, told₂, hstage₂, announced₂, tookIn₂⟩ :=
      (TookIn.nothing m₁ []).heard_singleton hstage₁ head
        (mild head (List.mem_append_right _ List.mem_cons_self))
    rw [nothing] at hstage₂ announced₂ tookIn₂
    have untold : told₂ = [] := by
      revert announced₂
      cases baseline none ((r.listening m).gets g earlier) with
      | none => exact id
      | some before =>
        rintro ⟨⟩
        rfl
    subst untold
    refine ⟨m₁, m₂, _, hstage₁, ?_, ?_, tookIn₂.statistics_eq⟩
    · rw [Run.heard_append]
      exact hstage₂
    · rw [tookIn₂.published_eq]
      exact List.append_nil _

/-- An event that names a head. -/
def headEvent (n : UInt64) : Json := .ofMembers [("number", .word n)]

/-- The first event names no head, block six is not answered for, block seven comes late and has no
seals, and block eight is announced again. -/
def sixHeads : List (Json × List (Except MonitorError (Option Header))) :=
  [(.null, [.ok none]), (headEvent 5, [.ok (some (lateBlock 5))]),
    (headEvent 6, [.error (.transport (.timeout "eth_getBlockByNumber" (.ofSeconds 30)))]),
    (headEvent 8, [.ok (some (lateBlock 8))]), (headEvent 7, [.ok (some (lateBlock 7))]),
    (headEvent 8, [.ok none]), (headEvent 9, [.ok (some (lateBlock 9))])]

/-- Block five is only counted. The time of block nine is taken from block eight, which comes from
the cache when it is announced again. -/
theorem heeds_sixHeads :
    let r : Run := ⟨0, .subscribe, .ready (Monitor.make {} ⟨[]⟩ Monitor.spelledOut), 0, 0⟩
    let m := (Monitor.make {} ⟨[]⟩ Monitor.spelledOut).watch (.ofMembers [.zero])
    (∀ head ∈ sixHeads, ∀ n e, (reciting (.header (.number n)) head.2).1 = .error e →
      e.terminal? = none) ∧
    (∃ m' told, Heeds reciting r m sixHeads m' told) ∧
      ((r.listening m).gets reciting sixHeads).map (·.number) = [5, 8, 7, 8, 9] ∧
      ((r.listening m).heard reciting sixHeads).stage.monitor.published.map
        (fun r => (r.number, r.elapsed)) = [(8, 30), (8, 0), (9, 10)] := by
  intro r m
  have mild : ∀ head ∈ sixHeads, ∀ n e, (reciting (.header (.number n)) head.2).1 = .error e →
      e.terminal? = none := by
    intro head mem n e failed
    simp only [sixHeads, List.mem_cons, List.not_mem_nil, or_false] at mem
    rcases mem with rfl | rfl | rfl | rfl | rfl | rfl | rfl <;> cases failed
    rfl
  exact ⟨mild, heeds reciting r m sixHeads mild, by decide +kernel, by decide +kernel⟩

end Follow

end IstanbulMonitor
