import IstanbulMonitor.Follow.Run
import Mathlib.Data.List.Induction

/-!
# Requests to stop

`RunEvent`s are all that can happen to a run, in any order: its own steps, answers and heads of
whatever content, changes that others make to its monitor, and requests to stop. Wherever the run
waits for a head or a tick and looks, it is told to stop exactly if a request came since it was
started, however busy it was then (`notices_afterEvents`). A request that came before does not
count, and is never heard of (`unnoticed_early`).
-/

set_option autoImplicit false

namespace IstanbulMonitor.Follow

/-- What happens to a run. -/
inductive RunEvent where
  /-- The run starts. -/
  | start
  /-- The query that is out is answered; others may have changed the monitor in the meantime. -/
  | answered (others : Monitor → Monitor) (answer : (q : Query) → Except MonitorError q.Answer)
  /-- The run goes on after its present work. -/
  | conclude
  /-- The run hears of its subscription. -/
  | subscribed (answer : Except TransportError Unit)
  /-- A head is announced. -/
  | announced (event : Json)
  /-- No more heads will be announced. -/
  | unannounced
  /-- It is time to poll. -/
  | ticked
  /-- Others change the monitor of a run that is not at work. -/
  | changed (others : Monitor → Monitor)
  /-- Somebody asks the run to stop. -/
  | shutdown
  /-- The run looks whether it is to stop. -/
  | heed

/-- Whether a run waits for a head or a tick: it takes what comes first, and may look whether it is
to stop. -/
def Stage.isSelecting : Stage → Bool
  | .waiting _ (.head _) => true
  | .waiting _ (.tick _) => true
  | _ => false

/-- Whether a run is yet to be started. -/
def Stage.isReady : Stage → Bool
  | .ready _ => true
  | _ => false

/-- A request to stop came after the run was started. -/
def RequestedSinceStart (events : List RunEvent) : Prop :=
  ∃ before after, events = before ++ .start :: after ∧ .shutdown ∈ after

section Requests

variable {e : RunEvent} {events : List RunEvent}

theorem RequestedSinceStart.started (h : RequestedSinceStart events) : .start ∈ events := by
  obtain ⟨before, after, rfl, -⟩ := h
  simp

theorem requestedSinceStart_concat :
    RequestedSinceStart (events ++ [e]) ↔
      RequestedSinceStart events ∨ e = .shutdown ∧ .start ∈ events := by
  constructor
  · rintro ⟨before, after, heq, requested⟩
    rcases List.eq_nil_or_concat after with rfl | ⟨after, last, rfl⟩
    · cases requested
    · rw [List.concat_eq_append, ← List.cons_append, ← List.append_assoc] at heq
      obtain ⟨rfl, hlast⟩ := List.append_inj' heq rfl
      cases List.singleton_inj.mp hlast
      rw [List.concat_eq_append, List.mem_append, List.mem_singleton] at requested
      rcases requested with requested | rfl
      · exact .inl ⟨before, after, rfl, requested⟩
      · exact .inr ⟨rfl, by simp⟩
  · rintro (⟨before, after, rfl, requested⟩ | ⟨rfl, started⟩)
    · exact ⟨before, after ++ [e], by simp, List.mem_append_left _ requested⟩
    · obtain ⟨before, after, rfl⟩ := List.append_of_mem started
      exact ⟨before, after ++ [.shutdown], by simp, by simp⟩

end Requests

namespace Run

/-- A run that is yet to be started. -/
def unstarted (window : UInt64) (mode : FollowMode) (m : Monitor) : Run :=
  { window, mode, stage := .ready m }

/-- The query that is out is answered, and the monitor comes back as others left it. -/
def answered (r : Run) (others : Monitor → Monitor)
    (answer : (q : Query) → Except MonitorError q.Answer) : Run :=
  match r.stage with
  | .working held (.ask m q resume) =>
    { r with stage := .working held (resume (answer q) (others m)) }
  | _ => r

/-- One event; it does nothing where it cannot happen. -/
def step (r : Run) : RunEvent → Run
  | .start => r.start
  | .answered others answer => r.answered others answer
  | .conclude => r.conclude
  | .subscribed answer => r.subscribed answer
  | .announced event => r.announced event
  | .unannounced => r.unannounced
  | .ticked => r.ticked
  | .changed others => { r with stage := r.stage.mapMonitor others }
  | .shutdown => r.shutdown
  | .heed => r.heed

/-- A list of events. -/
def afterEvents (r : Run) (events : List RunEvent) : Run := events.foldl step r

variable {r : Run} {e : RunEvent} {events : List RunEvent}

theorem afterEvents_concat (r : Run) (events : List RunEvent) (e : RunEvent) :
    r.afterEvents (events ++ [e]) = (r.afterEvents events).step e := by
  rw [afterEvents, List.foldl_append]
  rfl

/-! ## What is counted -/

/-- A run after which the same requests are counted, and which is started if it was before. -/
structure CountsAlike (r r' : Run) : Prop where
  stops : r'.stops = r.stops
  disregarded : r'.disregarded = r.disregarded
  isReady : r'.stage.isReady = r.stage.isReady

namespace CountsAlike

theorem refl (r : Run) : CountsAlike r r := ⟨rfl, rfl, rfl⟩

theorem isStopped_eq {r' : Run} (h : CountsAlike r r') : r'.isStopped = r.isStopped := by
  rw [isStopped, isStopped, h.stops, h.disregarded]

theorem of_stage {stage : Stage} (h : stage.isReady = r.stage.isReady) :
    CountsAlike r { r with stage } := ⟨rfl, rfl, h⟩

/-- A run at one stage that goes on to another one, neither of them before its start. -/
theorem of_started {old new : Stage} (hstage : r.stage = old) (hold : old.isReady = false)
    (hnew : new.isReady = false) : CountsAlike r { r with stage := new } :=
  of_stage (by rw [hstage, hold, hnew])

theorem answered (r : Run) (others : Monitor → Monitor)
    (answer : (q : Query) → Except MonitorError q.Answer) :
    CountsAlike r (r.answered others answer) := by
  unfold Run.answered
  split
  · next hstage => exact of_started hstage rfl rfl
  · exact refl r

theorem conclude (r : Run) : CountsAlike r r.conclude := by
  unfold Run.conclude
  split
  · next m next hstage => cases next <;> exact of_started hstage rfl rfl
  · next hstage => exact of_started hstage rfl rfl
  · exact refl r

theorem subscribed (r : Run) (answer : Except TransportError Unit) :
    CountsAlike r (r.subscribed answer) := by
  unfold Run.subscribed
  split
  · next hstage => cases answer <;> exact of_started hstage rfl rfl
  · exact refl r

theorem announced (r : Run) (event : Json) : CountsAlike r (r.announced event) := by
  unfold Run.announced
  split
  · next hstage => exact of_started hstage rfl rfl
  · exact refl r

theorem unannounced (r : Run) : CountsAlike r r.unannounced := by
  unfold Run.unannounced
  split
  · next hstage => exact of_started hstage rfl rfl
  · exact refl r

theorem ticked (r : Run) : CountsAlike r r.ticked := by
  unfold Run.ticked
  split
  · next hstage => exact of_started hstage rfl rfl
  · exact refl r

theorem heed (r : Run) : CountsAlike r r.heed := by
  unfold Run.heed
  split
  · split
    · next hstage => exact of_started hstage rfl rfl
    · next hstage => exact of_started hstage rfl rfl
    · exact refl r
  · exact refl r

/-- Only a start and a request to stop change what is counted. -/
theorem step (notStart : e ≠ .start) (notRequest : e ≠ .shutdown) : CountsAlike r (r.step e) := by
  cases e with
  | start => exact absurd rfl notStart
  | shutdown => exact absurd rfl notRequest
  | answered others answer => exact answered r others answer
  | conclude => exact conclude r
  | subscribed answer => exact subscribed r answer
  | announced event => exact announced r event
  | unannounced => exact unannounced r
  | ticked => exact ticked r
  | changed others => exact of_stage (by cases r.stage <;> rfl)
  | heed => exact heed r

end CountsAlike

/-- A run is started once. -/
theorem start_of_started (h : r.stage.isReady = false) : r.start = r := by
  unfold start
  split
  · next hstage =>
    rw [hstage] at h
    cases h
  · rfl

/-- No request counts when a run is started. -/
theorem start_of_ready (h : r.stage.isReady = true) :
    r.start.stage.isReady = false ∧ r.start.disregarded = r.start.stops := by
  unfold start
  split
  · exact ⟨rfl, rfl⟩
  · next hstage =>
    cases hready : r.stage with
    | ready m => exact absurd hready (hstage m)
    | _ =>
      rw [hready] at h
      cases h

/-! ## Whole runs -/

/-- How a run stands after some events: it is yet to be started, or it is told to stop exactly if
there was a request since. -/
inductive Stands (events : List RunEvent) (r : Run) : Prop where
  | unstarted (never : .start ∉ events) (ready : r.stage.isReady = true)
  | started (once : .start ∈ events) (going : r.stage.isReady = false)
      (le : r.disregarded ≤ r.stops) (told : r.isStopped = true ↔ RequestedSinceStart events)

theorem Stands.of_countsAlike (stands : Stands events r) {r' : Run} (alike : CountsAlike r r')
    (notStart : e ≠ .start) (notRequest : e ≠ .shutdown) : Stands (events ++ [e]) r' := by
  have hstart : .start ∈ events ++ [e] ↔ .start ∈ events := by simp [notStart.symm]
  have hrequest : RequestedSinceStart (events ++ [e]) ↔ RequestedSinceStart events := by
    simp [requestedSinceStart_concat, notRequest]
  cases stands with
  | unstarted never ready =>
      exact .unstarted (hstart.not.mpr never) (alike.isReady.trans ready)
  | started once going le told =>
      refine .started (hstart.mpr once) (alike.isReady.trans going) ?_ ?_
      · rw [alike.stops, alike.disregarded]
        exact le
      · rw [alike.isStopped_eq, hrequest]
        exact told

theorem Stands.start (stands : Stands events r) : Stands (events ++ [.start]) r.start := by
  have hrequest : RequestedSinceStart (events ++ [.start]) ↔ RequestedSinceStart events := by
    simp [requestedSinceStart_concat]
  cases stands with
  | unstarted never ready =>
      obtain ⟨going, even⟩ := start_of_ready ready
      -- whatever was requested before is disregarded
      refine .started (by simp) going (Nat.le_of_eq even) ?_
      rw [hrequest, isStopped, even, decide_eq_true_iff]
      exact ⟨fun h => absurd h (Nat.lt_irrefl _), fun h => absurd h.started never⟩
  | started once going le told =>
      rw [start_of_started going]
      exact .started (by simp) going le (told.trans hrequest.symm)

theorem Stands.shutdown (stands : Stands events r) : Stands (events ++ [.shutdown]) r.shutdown := by
  cases stands with
  | unstarted never ready => exact .unstarted (by simpa using never) ready
  | started once going le told =>
      refine .started (List.mem_append_left _ once) going (Nat.le_succ_of_le le) ?_
      have heard : r.shutdown.isStopped = true := decide_eq_true (Nat.lt_succ_of_le le)
      simp [heard, requestedSinceStart_concat, once]

theorem Stands.step (stands : Stands events r) (e : RunEvent) :
    Stands (events ++ [e]) (r.step e) := by
  by_cases isStart : e = .start
  · subst isStart
    exact stands.start
  · by_cases isRequest : e = .shutdown
    · subst isRequest
      exact stands.shutdown
    · exact stands.of_countsAlike (.step isStart isRequest) isStart isRequest

theorem stands_afterEvents (window : UInt64) (mode : FollowMode) (m : Monitor)
    (events : List RunEvent) : Stands events ((unstarted window mode m).afterEvents events) := by
  -- from the end: the last event finds the run as the others have left it
  induction events using List.reverseRecOn with
  | nil => exact .unstarted (by simp) rfl
  | append_singleton events e ih =>
      rw [afterEvents_concat]
      exact ih.step e

theorem heed_of_stopped (selecting : r.stage.isSelecting = true) (stopped : r.isStopped = true) :
    r.heed.stage = .ended r.stage.monitor (.ok ()) := by
  rw [heed, if_pos stopped]
  unfold Stage.isSelecting at selecting
  split at selecting
  · next hstage => simp only [hstage, finish, Stage.monitor]
  · next hstage => simp only [hstage, finish, Stage.monitor]
  · cases selecting

/-- **No request is lost once a run is started.** Whatever happens to a run, and in whatever order:
where it waits for a head or a tick, it is told to stop exactly if a request came since it was
started. If it is, looking ends it well; if not, looking changes nothing. -/
theorem notices_afterEvents (window : UInt64) (mode : FollowMode) (m : Monitor)
    (events : List RunEvent)
    (selecting : ((unstarted window mode m).afterEvents events).stage.isSelecting = true) :
    let r := (unstarted window mode m).afterEvents events
    (r.isStopped = true ↔ RequestedSinceStart events) ∧
      (RequestedSinceStart events → r.heed.stage = .ended r.stage.monitor (.ok ())) ∧
      (¬ RequestedSinceStart events → r.heed = r) := by
  intro r
  have told : r.isStopped = true ↔ RequestedSinceStart events := by
    cases stands_afterEvents window mode m events with
    | unstarted never ready =>
        have hstage : r.stage.isReady = false := by
          unfold Stage.isSelecting at selecting
          split at selecting
          · next hstage => rw [hstage]; rfl
          · next hstage => rw [hstage]; rfl
          · cases selecting
        cases hstage.symm.trans ready
    | started once going le told => exact told
  refine ⟨told, fun requested => heed_of_stopped selecting (told.mpr requested), fun none => ?_⟩
  exact if_neg fun stopped => none (told.mp stopped)

/-- Answers of a node that has one block and tells nothing of itself. -/
def soleBlock : (q : Query) → Except MonitorError q.Answer
  | .header _ => .ok (some Header.blank)
  | .validators _ => .ok []
  | .nodeInfo => .ok none
  | .peers => .ok none

/-- A run that was started comes to the replay. -/
def toReplay : List RunEvent := [.answered id soleBlock, .answered id soleBlock, .conclude]

/-- A run gets from the replay to its loop. -/
def toLoop : FollowMode → List RunEvent
  | .subscribe => [.answered id soleBlock, .conclude, .subscribed (.ok ())]
  | .poll => [.answered id soleBlock, .conclude, .answered id soleBlock, .conclude]

/-- A run with a window of one, after some events. -/
def watching (mode : FollowMode) (events : List RunEvent) : Run :=
  (unstarted 1 mode (Monitor.make {} ⟨[]⟩ recoverSigner)).afterEvents events

/-- The request comes during the replay. -/
def midway (mode : FollowMode) : List RunEvent := .start :: toReplay ++ .shutdown :: toLoop mode

/-- The request comes before the start. -/
def early (mode : FollowMode) : List RunEvent := .shutdown :: .start :: toReplay ++ toLoop mode

/-- A request during the replay is heard of in the loop. -/
theorem notices_midway :
    (watching .poll (midway .poll)).stage.isSelecting = true ∧ RequestedSinceStart (midway .poll) ∧
      (watching .poll (midway .poll)).isStopped = true ∧
      (watching .poll (midway .poll)).heed.stage =
        .ended (watching .poll (midway .poll)).stage.monitor (.ok ()) := by
  have selecting : (watching .poll (midway .poll)).stage.isSelecting = true := by decide
  have requested : RequestedSinceStart (midway .poll) :=
    ⟨[], toReplay ++ .shutdown :: toLoop .poll, rfl, by simp⟩
  obtain ⟨told, ends, -⟩ := notices_afterEvents 1 .poll (Monitor.make {} ⟨[]⟩ recoverSigner)
    (midway .poll) selecting
  exact ⟨selecting, requested, told.mpr requested, ends requested⟩

/-- In either mode a request before the start is never heard of: the run waits in its loop and goes
on when it looks. -/
theorem unnoticed_early :
    ((watching .subscribe (early .subscribe)).stage.isSelecting = true ∧
      .shutdown ∈ early .subscribe ∧
      (watching .subscribe (early .subscribe)).isStopped = false ∧
      (watching .subscribe (early .subscribe)).heed = watching .subscribe (early .subscribe)) ∧
    ((watching .poll (early .poll)).stage.isSelecting = true ∧
      .shutdown ∈ early .poll ∧
      (watching .poll (early .poll)).isStopped = false ∧
      (watching .poll (early .poll)).heed = watching .poll (early .poll)) ∧
    ¬ ∀ (window : UInt64) (mode : FollowMode) (m : Monitor) (events : List RunEvent),
      ((unstarted window mode m).afterEvents events).stage.isSelecting = true →
        (((unstarted window mode m).afterEvents events).isStopped = true ↔ .shutdown ∈ events) := by
  have listens : (watching .subscribe (early .subscribe)).stage.isSelecting = true := by decide
  have polls : (watching .poll (early .poll)).stage.isSelecting = true := by decide
  have deaf : (watching .subscribe (early .subscribe)).isStopped = false := by decide
  have deaf' : (watching .poll (early .poll)).isStopped = false := by decide
  refine ⟨⟨listens, .head _, deaf, if_neg (by simp [deaf])⟩,
    ⟨polls, .head _, deaf', if_neg (by simp [deaf'])⟩, fun told => ?_⟩
  have stopped := (told 1 .poll (Monitor.make {} ⟨[]⟩ recoverSigner) (early .poll) polls).mpr
    (.head _)
  cases deaf'.symm.trans stopped

end Run

end IstanbulMonitor.Follow
