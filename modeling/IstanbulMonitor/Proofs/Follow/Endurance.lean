import IstanbulMonitor.Proofs.Follow.Intake

/-!
# Only a dead session stops a run

Once a run follows the chain, it gets `Turn`s: ticks, announced heads, the end of the stream of
heads, and requests to stop that it hears of when it looks. A turn brings fetches and blocks
(`Turn.Brings`), and `Turned` lists all ways in which it goes. So a run ends with an error exactly
if a fetch finds the session dead, or if the heads end while it waits for one; every other failure
leaves it waiting where it is, past the blocks that it got before (`endures`). Besides, a run that
polls panics once it wants the number after the last one, which takes a head with that number.
-/

set_option autoImplicit false

namespace IstanbulMonitor.Follow

variable {γ : Type} {g : Gateway γ}

/-! ## Turns -/

namespace Next

/-- The mode of the loop that waits at a place. -/
def mode? : Next → Option FollowMode
  | .head _ => some .subscribe
  | .tick _ => some .poll
  | _ => none

/-- Where the loop waits once some blocks are taken in; without a block it waits where it did. -/
def after : Next → List Header → Next
  | .tick p, blocks => .tick (p.advance blocks)
  | .head previous, blocks => .head (blocks.foldl (fun _ h => some h.timestamp) previous)
  | next, _ => next

/-- The reports on the blocks that are taken in from a place. There is none on the first announced
block. -/
def Tells (recover : SignerRecovery) : Next → List Header → List BlockReport → Prop
  | .tick p, blocks, told => Reported recover p.previous blocks told
  | .head (some before), blocks, told => Reported recover before blocks told
  | _, _, told => told = []

theorem tells_nil (recover : SignerRecovery) (place : Next) : place.Tells recover [] [] := by
  cases place with
  | tick p => exact .nil _
  | head previous => cases previous <;> first | exact rfl | exact .nil _
  | _ => rfl

theorem mode?_after (place : Next) (blocks : List Header) :
    (place.after blocks).mode? = place.mode? := by
  cases place <;> rfl

end Next

/-- What can happen to a run that follows the chain. -/
inductive Turn where
  /-- It is time to poll. -/
  | tick
  /-- A head is announced. -/
  | head (event : Json)
  /-- No more heads will be announced. -/
  | headsEnd
  /-- Somebody asks the run to stop. -/
  | stop
  /-- The run looks whether it is to stop. -/
  | look

namespace Turn

/-- Whether a turn means nothing to a run that waits at a place. -/
def isIdle (stopped : Bool) : Turn → Next → Bool
  | .tick, place => place.mode? ≠ some .poll
  | .head _, place => place.mode? ≠ some .subscribe
  | .headsEnd, place => place.mode? ≠ some .subscribe
  | .stop, _ => true
  | .look, _ => !stopped

/-- The fetches of a turn, the blocks that it brings, and the failure that it meets. -/
inductive Brings : Turn → Next → List Fetch → List Header → Option MonitorError → Prop where
  /-- The event names no head. -/
  | undecodable {event : Json} {previous : Option UInt64} {reason : Mismatch}
      (reads : announcedNumber event = .error reason) :
      Brings (.head event) (.head previous) [] [] none
  /-- The announced block is fetched in vain. -/
  | unfetched {event : Json} {previous : Option UInt64} {number : UInt64}
      {answer : Except MonitorError (Option Header)} {e : MonitorError}
      (reads : announcedNumber event = .ok number)
      (fails : Fetch.failure? (.number number, answer) = some e) :
      Brings (.head event) (.head previous) [(.number number, answer)] [] (some e)
  /-- The announced block. -/
  | announced {event : Json} {previous : Option UInt64} {number : UInt64} {h : Header}
      {fetches : List Fetch} (reads : announcedNumber event = .ok number)
      (obtains : Obtains number h fetches) :
      Brings (.head event) (.head previous) fetches [h] none
  /-- The head is fetched in vain. -/
  | headless {p : Progress} {answer : Except MonitorError (Option Header)} {e : MonitorError}
      (fails : Fetch.failure? (.latest, answer) = some e) :
      Brings .tick (.tick p) [(.latest, answer)] [] (some e)
  /-- The blocks up to the head, or up to one that is fetched in vain. -/
  | polled {p : Progress} {head : Header} {n : Nat} {fetches : List Fetch} {blocks : List Header}
      {failure : Option MonitorError} (counted : ahead? p.last head.number = some n)
      (caught : CatchesUp n p.last fetches blocks failure) :
      Brings .tick (.tick p) ((.latest, .ok (some head)) :: fetches) blocks failure

/-- Whatever a turn brings, the run goes no further than to a head that it was told. -/
theorem Brings.reaches {t : Turn} {place : Next} {log fetches : List Fetch} {blocks : List Header}
    {failure : Option MonitorError} (h : t.Brings place fetches blocks failure)
    (reaches : ∀ p, place = .tick p → Fetch.Reaches log p.last) :
    ∀ p, place.after blocks = .tick p → Fetch.Reaches (log ++ fetches) p.last := by
  intro p hplace
  cases h with
  | headless fails =>
    cases hplace
    exact (reaches _ rfl).append _
  | @polled p head n fetches blocks failure counted caught =>
    cases hplace
    by_cases no_block : blocks = []
    · subst no_block
      exact (reaches p rfl).append _
    · obtain ⟨-, rfl⟩ := ahead?_eq_some.mp counted
      exact ⟨head, List.mem_append_right _ List.mem_cons_self, caught.last_le no_block⟩
  | _ => cases hplace

theorem Brings.failsLast {t : Turn} {place : Next} {fetches : List Fetch} {blocks : List Header}
    {failure : Option MonitorError} (h : t.Brings place fetches blocks failure) :
    Fetch.FailsLast fetches failure := by
  cases h with
  | undecodable reads => exact .sound fun f mem => absurd mem List.not_mem_nil
  | unfetched reads fails => exact .fails (fun f mem => absurd mem List.not_mem_nil) fails
  | announced reads obtains => exact .sound obtains.sound
  | headless fails => exact .fails (fun f mem => absurd mem List.not_mem_nil) fails
  | @polled p head n fetches blocks failure counted caught =>
    have answered : ∀ f : Fetch, f ∈ [(.latest, .ok (some head))] → f.failure? = none := by
      intro f mem
      cases List.mem_singleton.mp mem
      rfl
    exact caught.failsLast.prepend answered

end Turn

/-- The ways in which a turn of a run goes that waits at a place, with the monitor `m` and the log
`log₀` of its fetches. -/
inductive Turned (stopped : Bool) (m : Monitor) (log₀ : List Fetch) :
    Next → Turn → Stage → List Fetch → Prop where
  /-- Nothing happens. -/
  | idle {place : Next} {t : Turn} (idle : t.isIdle stopped place = true) :
      Turned stopped m log₀ place t (.waiting m place) log₀
  /-- The run takes blocks in and lives with a failure, if there is one. -/
  | goesOn {place : Next} {t : Turn} {i : Intake} {failure : Option MonitorError} {m' : Monitor}
      {log : List Fetch} (brings : t.Brings place i.fetches i.blocks failure)
      (lives : ∀ e ∈ failure, e.terminal? = none)
      (tells : place.Tells m.recover i.blocks i.told) (tookIn : TookIn m log₀ i m' log) :
      Turned stopped m log₀ place t (.waiting m' (place.after i.blocks)) log
  /-- The run takes blocks in until the session is found dead. -/
  | sessionDead {place : Next} {t : Turn} {i : Intake} {e : TransportError} {m' : Monitor}
      {log : List Fetch} (brings : t.Brings place i.fetches i.blocks (some (.transport e)))
      (terminal : e.isTerminal = true) (tells : place.Tells m.recover i.blocks i.told)
      (tookIn : TookIn m log₀ i m' log) :
      Turned stopped m log₀ place t (.ended m' (.error (.sessionTerminated (.transport e)))) log
  /-- The last block has the last number of all. When the head is told, the run panics. -/
  | panics {p : Progress} {head : Header} {m' : Monitor} {log : List Fetch}
      (last_eq : p.last = lastNumber)
      (tookIn : TookIn m log₀ { fetches := [(.latest, .ok (some head))] } m' log) :
      Turned stopped m log₀ (.tick p) .tick (.panicked m') log
  /-- The heads end while the run waits for one. -/
  | headsOver {previous : Option UInt64} :
      Turned stopped m log₀ (.head previous) .headsEnd (.ended m (.error .headsEnded)) log₀
  /-- The run was told to stop. -/
  | stops {place : Next} (told : stopped = true) :
      Turned stopped m log₀ place .look (.ended m (.ok ())) log₀

/-! ## The dialogues of a turn -/

/-- A tick takes blocks in, unless there is no number for the next one. -/
theorem TookIn.ensures_poll {m₀ : Monitor} {log₀ : List Fetch} {before : Intake} (p : Progress) :
    Inquiry.Ensures g.logged Eq (fun _ _ => True) (fun m s => TookIn m₀ log₀ before m s.2) (poll p)
      (fun result m s =>
        Ingested (Turn.Brings .tick (.tick p)) (fun recover => (Next.tick p).Tells recover)
            (fun blocks => some (p.advance blocks)) m₀ log₀ before result m s ∨
          result = none ∧ p.last = lastNumber ∧ ∃ head : Header,
            TookIn m₀ log₀ (before ++ { fetches := [(.latest, .ok (some head))] }) m s.2)
      (CutOff (Turn.Brings .tick (.tick p)) (fun recover => (Next.tick p).Tells recover) m₀ log₀
        before) := by
  intro m s tookIn
  refine Inquiry.Ensures.bind (Q := fun found m s =>
    match found with
    | .ok number => ∃ head : Header, head.number = number ∧
        TookIn m₀ log₀ (before ++ { fetches := [(.latest, .ok (some head))] }) m s.2
    | .error e => ∃ answer, Fetch.failure? (.latest, answer) = some e ∧
        TookIn m₀ log₀ (before ++ { fetches := [(.latest, answer)] }) m s.2)
    (.attempt (.bind ((TookIn.ensures_latest s).weaken (fun m s h => h) (fun h m s hQ => hQ) ?_)
      fun h => .pure ?_)) ?_ m s ⟨tookIn, rfl⟩
  · rintro e m s ⟨answer, -, fails, tookIn⟩
    exact ⟨answer, fails, tookIn⟩
  · rintro m s ⟨-, tookIn⟩
    exact ⟨h, rfl, tookIn⟩
  · intro found
    cases found with
    | error e =>
      rintro m s ⟨answer, fails, tookIn⟩
      exact Inquiry.Ensures.or_left (ensures_missed (.headless fails) (.nil p.previous) rfl) m s
        tookIn
    | ok number =>
      rintro m s ⟨head, rfl, tookIn⟩
      dsimp only
      cases counted : ahead? p.last head.number with
      | none => exact .inr ⟨rfl, ahead?_eq_none.mp counted, head, tookIn⟩
      | some n =>
        exact Inquiry.Ensures.or_left (((ingests_catchUp n p).map some).ensures_after
          (fun caught => .polled counted caught) (fun told => told) fun blocks => rfl) m s tookIn

/-- An announced head. -/
theorem ingests_takeHead (previous : Option UInt64) (event : Json) :
    Ingests (Turn.Brings (.head event) (.head previous))
      (fun recover => (Next.head previous).Tells recover)
      (fun blocks => blocks.foldl (fun _ h => some h.timestamp) previous) g
      (takeHead previous event) := by
  intro m₀ log₀ before
  have untold := Next.tells_nil m₀.recover (.head previous)
  unfold takeHead
  cases reads : announcedNumber event with
  | error reason =>
    refine .bind (Q := fun _ m s => TookIn m₀ log₀ before m s.2) (.change ?_) fun _ => .pure ?_
    · exact fun m s tookIn => tookIn.of_journal _
    · exact fun m s => .nothing (.undecodable reads) untold
  | ok number =>
    refine ensures_lookUp (.unfetched reads) untold rfl ?_
    intro h fetches obtains
    cases previous with
    | none =>
      refine .bind_sure (TookIn.ensures_countFirst h) fun _ => .pure ?_
      intro m s tookIn
      rw [Intake.append_assoc, Intake.fetched_append] at tookIn
      exact ⟨⟨fetches, [h], []⟩, none, .announced reads obtains, by simp, rfl, rfl, tookIn⟩
    | some last =>
      refine .bind_sure (TookIn.ensures_process h last) fun _ => .pure ?_
      rintro m s ⟨told, reported, tookIn⟩
      rw [Intake.append_assoc, Intake.fetched_append] at tookIn
      exact ⟨⟨fetches, [h], told⟩, none, .announced reads obtains, by simp, reported, rfl, tookIn⟩

/-- The first head is fetched and processed. -/
theorem TookIn.ensures_firstHead {m₀ : Monitor} {log₀ : List Fetch} {before : Intake}
    (s₀ : γ × List Fetch) :
    Inquiry.Ensures g.logged Eq (fun _ _ => True)
      (fun m s => TookIn m₀ log₀ before m s.2 ∧ s = s₀) firstHead
      (fun p m s => ∃ head told, (g (.header .latest) s₀.1).1 = .ok (some head) ∧
        p = ⟨head.number, head.timestamp⟩ ∧ Reported m₀.recover head.timestamp [head] told ∧
        TookIn m₀ log₀ (before ++ ⟨[(.latest, .ok (some head))], [head], told⟩) m s.2)
      (fun _ _ _ => ∀ head, (g (.header .latest) s₀.1).1 ≠ .ok (some head)) := by
  refine .bind (.mapError ((TookIn.ensures_latest s₀).weaken (fun m s h => h)
    (fun h m s hQ => hQ) ?_)) ?_
  · rintro e m s ⟨_, rfl, fails, -⟩ head served
    rw [served] at fails
    cases fails
  · rintro head m s ⟨served, tookIn⟩
    refine Inquiry.Ensures.bind_sure (TookIn.ensures_process head head.timestamp)
      (fun _ => .pure ?_) m s tookIn
    rintro m s ⟨told, reported, tookIn⟩
    rw [Intake.append_assoc, Intake.fetched_append] at tookIn
    exact ⟨head, told, served, rfl, reported, tookIn⟩

/-! ## Runs with their nodes -/

/-- Whether nothing more can happen to a run. -/
def Stage.isOver : Stage → Bool
  | .ended _ _ => true
  | .panicked _ => true
  | _ => false

namespace Run

/-- The node once the present work of a run is done. -/
def left (g : Gateway γ) (r : Run) (x : γ) : γ :=
  match r.stage with
  | .working _ d => (d.run (fun q m x => ((g q x).1, m, (g q x).2)) x).2.2
  | _ => x

/-- A run and its node once the present work of the run is done. -/
def served (g : Gateway γ) (r : Run) (x : γ) : Run × γ := (r.serve g x, r.left g x)

/-- A turn of a run, with the work that comes of it. -/
def turn (g : Gateway γ) (s : Run × γ) : Turn → Run × γ
  | .tick => s.1.ticked.served g s.2
  | .head event => (s.1.announced event).served g s.2
  | .headsEnd => (s.1.unannounced, s.2)
  | .stop => (s.1.shutdown, s.2)
  | .look => (s.1.heed, s.2)

/-- A run and its node after some turns. -/
def followed (g : Gateway γ) (s : Run × γ) (turns : List Turn) : Run × γ :=
  turns.foldl (Run.turn g) s

/-- A run that comes to its loop: in subscription mode the subscription is created, and in polling
mode the first head is asked for. -/
def begun (g : Gateway γ) (r : Run) (m : Monitor) (x : γ) : Run × γ :=
  match r.mode with
  | .subscribe => (({ r with stage := .waiting m .subscribe } : Run).subscribed (.ok ()), x)
  | .poll => (r.go m .firstHead).served g x

variable {r : Run} {m : Monitor} {x : γ}

theorem served_work {held : Bool} {i : Inquiry RunError Next} {result : Except RunError Next}
    {m' : Monitor} {x' : γ} (hrun : i.runWith g m x = (result, m', x')) :
    (r.work held m i).served g x =
      (({ r with stage := .working held (.done m' result) } : Run).conclude, x') := by
  unfold Inquiry.runWith at hrun
  simp only [served, serve, left, work, hrun]

theorem served_waiting {place : Next} (hstage : r.stage = .waiting m place) :
    r.served g x = (r, x) := by
  simp only [served, serve, left, hstage]

/-- The work of a run that takes blocks in, or panics. -/
theorem turned_served {stopped : Bool} {log : List Fetch} {place : Next} {t : Turn}
    {mode : FollowMode} (hmode : place.mode? = some mode) {i : Inquiry RunError Next}
    (works : Inquiry.Ensures g.logged Eq (fun _ _ => True) (fun m' s => TookIn m log {} m' s.2) i
      (fun next m' s =>
        Ingested (t.Brings place) (fun recover => place.Tells recover) place.after m log {} next m'
            s ∨
          next = .panic ∧ Turned stopped m log place t (.panicked m') s.2)
      (CutOff (t.Brings place) (fun recover => place.Tells recover) m log {})) :
    Turned stopped m log place t ((r.work false m i).served g.logged (x, log)).1.stage
      ((r.work false m i).served g.logged (x, log)).2.2 := by
  have hrun := works.runWith (x := (x, log)) (.nothing m log)
  rcases hi : i.runWith g.logged m (x, log) with ⟨result, m', x', log'⟩
  rw [hi] at hrun
  rw [served_work hi]
  cases result with
  | error e =>
    obtain ⟨more, t, brings, terminal, tells, rfl, tookIn⟩ := hrun
    exact .sessionDead brings terminal tells tookIn
  | ok next =>
    rcases hrun with ⟨more, failure, brings, lives, tells, rfl, tookIn⟩ | ⟨rfl, panics⟩
    · have waits : (({ r with stage := .working false (.done m' (.ok (place.after more.blocks))) } :
          Run).conclude).stage = .waiting m' (place.after more.blocks) := by
        cases place with
        | head _ => rfl
        | tick _ => rfl
        | _ => cases hmode
      rw [waits]
      exact .goesOn brings lives tells tookIn
    · exact panics

/-- A tick of a run that polls. -/
theorem turned_tick {log : List Fetch} {p : Progress} (hstage : r.stage = .waiting m (.tick p)) :
    Turned r.isStopped m log (.tick p) .tick (r.ticked.served g.logged (x, log)).1.stage
      (r.ticked.served g.logged (x, log)).2.2 := by
  have works : r.ticked = r.work false m (do return (← poll p).elim .panic .tick) := by
    simp only [ticked, hstage]
  have hmode : (Next.tick p).mode? = some .poll := rfl
  rw [works]
  refine turned_served hmode (.bind (TookIn.ensures_poll p) fun progress => .pure ?_)
  intro m' s taken
  rcases taken with ⟨more, failure, brings, lives, tells, rfl, tookIn⟩ |
    ⟨rfl, last_eq, head, tookIn⟩
  · exact .inl ⟨more, failure, brings, lives, tells, rfl, tookIn⟩
  · exact .inr ⟨rfl, .panics last_eq tookIn⟩

/-- An announced head for a run that waits for heads. -/
theorem turned_head {log : List Fetch} {previous : Option UInt64} {event : Json}
    (hstage : r.stage = .waiting m (.head previous)) :
    Turned r.isStopped m log (.head previous) (.head event)
      ((r.announced event).served g.logged (x, log)).1.stage
      ((r.announced event).served g.logged (x, log)).2.2 := by
  have works : r.announced event =
      r.work false m (do return .head (← takeHead previous event)) := by
    simp only [announced, hstage]
  have hmode : (Next.head previous).mode? = some .subscribe := rfl
  rw [works]
  exact turned_served hmode ((ingests_takeHead previous event).map Next.head m log {}).or_left

/-- A turn of a run that waits in its loop. -/
theorem turned {s : Run × γ × List Fetch} {place : Next} {mode : FollowMode}
    (hstage : s.1.stage = .waiting m place) (hmode : place.mode? = some mode) (t : Turn) :
    Turned s.1.isStopped m s.2.2 place t (Run.turn g.logged s t).1.stage
      (Run.turn g.logged s t).2.2 := by
  obtain ⟨r, x, log⟩ := s
  change r.stage = .waiting m place at hstage
  -- a tick or an announced head that finds the run in the other loop gives it no work
  have waits : ∀ {r' : Run}, r' = r → t.isIdle r.isStopped place = true →
      Turned r.isStopped m log place t (r'.served g.logged (x, log)).1.stage
        (r'.served g.logged (x, log)).2.2 := by
    rintro _ rfl idle
    rw [served_waiting hstage, hstage]
    exact .idle idle
  cases t with
  | tick =>
    cases place with
    | tick p => exact turned_tick hstage
    | head previous => exact waits (by simp only [ticked, hstage]) rfl
    | _ => cases hmode
  | head event =>
    cases place with
    | head previous => exact turned_head hstage
    | tick p => exact waits (by simp only [announced, hstage]) rfl
    | _ => cases hmode
  | headsEnd =>
    cases place with
    | head previous =>
      simp only [Run.turn, unannounced, hstage]
      exact .headsOver
    | tick p =>
      simp only [Run.turn, unannounced, hstage]
      exact .idle (by rfl)
    | _ => cases hmode
  | stop =>
    simp only [Run.turn, shutdown, hstage]
    exact .idle (by rfl)
  | look =>
    cases told : r.isStopped with
    | true =>
      have stops : r.heed.stage = .ended m (.ok ()) := by
        cases place with
        | head previous => simp only [heed, told, if_true, hstage, finish]
        | tick p => simp only [heed, told, if_true, hstage, finish]
        | _ => cases hmode
      rw [Run.turn, stops]
      exact .stops rfl
    | false =>
      simp only [Run.turn, heed, told, Bool.false_eq_true, if_false, hstage]
      exact .idle (by rfl)

/-- Nothing happens to a run that has ended or panicked. -/
theorem turn_over {s : Run × γ} (isOver : s.1.stage.isOver = true) (t : Turn) :
    (Run.turn g s t).1.stage = s.1.stage ∧ (Run.turn g s t).2 = s.2 := by
  cases hstage : s.1.stage with
  | ended m result =>
    cases t with
    | tick => simp [Run.turn, ticked, hstage, served, serve, left]
    | head event => simp [Run.turn, announced, hstage, served, serve, left]
    | headsEnd => simp [Run.turn, unannounced, hstage]
    | stop => simp [Run.turn, shutdown, hstage]
    | look => simp [Run.turn, heed, hstage]
  | panicked m =>
    cases t with
    | tick => simp [Run.turn, ticked, hstage, served, serve, left]
    | head event => simp [Run.turn, announced, hstage, served, serve, left]
    | headsEnd => simp [Run.turn, unannounced, hstage]
    | stop => simp [Run.turn, shutdown, hstage]
    | look => simp [Run.turn, heed, hstage]
  | _ =>
    rw [hstage] at isOver
    cases isOver

/-! ## The log -/

/-- A run and its node without the log. -/
def unlogged (s : Run × γ × List Fetch) : Run × γ := (s.1, s.2.1)

theorem served_unlogged (g : Gateway γ) (r : Run) (s : γ × List Fetch) :
    r.served g s.1 = unlogged (r.served g.logged s) := by
  unfold served serve left unlogged
  cases r.stage with
  | working held d =>
    obtain ⟨log, hrun⟩ := d.run_logged g s
    simp only [hrun]
  | _ => rfl

theorem turn_unlogged (g : Gateway γ) (s : Run × γ × List Fetch) (t : Turn) :
    Run.turn g (unlogged s) t = unlogged (Run.turn g.logged s t) := by
  cases t with
  | tick => exact served_unlogged g s.1.ticked s.2
  | head event => exact served_unlogged g (s.1.announced event) s.2
  | _ => rfl

/-- A run goes with the log as it does without. -/
theorem followed_unlogged (g : Gateway γ) (s : Run × γ × List Fetch) (turns : List Turn) :
    followed g (unlogged s) turns = unlogged (followed g.logged s turns) :=
  List.foldl_hom unlogged (turn_unlogged g)

theorem begun_unlogged (g : Gateway γ) (r : Run) (m : Monitor) (x : γ) :
    begun g r m x = unlogged (begun g.logged r m (x, [])) := by
  unfold begun
  cases r.mode with
  | subscribe => rfl
  | poll => exact served_unlogged g (r.go m .firstHead) (x, [])

/-- A run and its node after some turns of its loop, with the log of the fetches. -/
def afterTurns (g : Gateway γ) (r : Run) (m : Monitor) (x : γ) (turns : List Turn) :
    Run × γ × List Fetch :=
  followed g.logged (begun g.logged r m (x, [])) turns

theorem afterTurns_concat (g : Gateway γ) (r : Run) (m : Monitor) (x : γ) (turns : List Turn)
    (t : Turn) :
    afterTurns g r m x (turns ++ [t]) = Run.turn g.logged (afterTurns g r m x turns) t :=
  List.foldl_append

end Run

/-! ## Whole runs -/

/-- The loop of a run begins. In polling mode the first head is taken in before. -/
inductive Began (g : Gateway γ) (m : Monitor) (x : γ) :
    FollowMode → Stage → List Fetch → Prop where
  | subscribed : Began g m x .subscribe (.waiting m (.head none)) []
  | polling {head : Header} {told : List BlockReport} {m' : Monitor} {log : List Fetch}
      (answered : (g (.header .latest) x).1 = .ok (some head))
      (tells : Reported m.recover head.timestamp [head] told)
      (tookIn : TookIn m [] ⟨[(.latest, .ok (some head))], [head], told⟩ m' log) :
      Began g m x .poll (.waiting m' (.tick ⟨head.number, head.timestamp⟩)) log

/-- The heads end while a run waits for one. -/
def HeadsEndIn (g : Gateway γ) (r : Run) (m : Monitor) (x : γ) (turns : List Turn) : Prop :=
  ∃ before after m' previous, turns = before ++ .headsEnd :: after ∧
    (r.afterTurns g m x before).1.stage = .waiting m' (.head previous)

/-- How a run stands after some turns. `noHeads` says whether the heads have ended while it waited
for one. A run that polls is never further than a head that it was told. -/
inductive Standing (mode : FollowMode) (turns : List Turn) (noHeads : Prop) :
    Stage → List Fetch → Prop where
  /-- It waits in its loop. -/
  | waiting {m : Monitor} {place : Next} {log : List Fetch} (mode_eq : place.mode? = some mode)
      (alive : Fetch.Alive log) (unended : ¬ noHeads)
      (reaches : ∀ p, place = .tick p → Fetch.Reaches log p.last) :
      Standing mode turns noHeads (.waiting m place) log
  /-- It was told to stop. -/
  | stopped {m : Monitor} {log : List Fetch} (looked : .look ∈ turns) (alive : Fetch.Alive log)
      (unended : ¬ noHeads) : Standing mode turns noHeads (.ended m (.ok ())) log
  /-- Its last fetch has found the session dead. -/
  | sessionDead {m : Monitor} {log : List Fetch} {f : Fetch} {e : TransportError}
      (alive : Fetch.Alive log) (lost : f.Lost e) (unended : ¬ noHeads) :
      Standing mode turns noHeads (.ended m (.error (.sessionTerminated (.transport e))))
        (log ++ [f])
  /-- The number of the next block was wanted, and there is none. -/
  | panicked {m : Monitor} {log : List Fetch} (polls : mode = .poll) (alive : Fetch.Alive log)
      (unended : ¬ noHeads) (reaches : Fetch.Reaches log lastNumber) :
      Standing mode turns noHeads (.panicked m) log
  /-- There are no more heads. -/
  | headsOver {m : Monitor} {log : List Fetch} (subscribed : mode = .subscribe)
      (alive : Fetch.Alive log) (ended : noHeads) :
      Standing mode turns noHeads (.ended m (.error .headsEnded)) log

section Standing

variable {mode : FollowMode} {turns : List Turn} {noHeads noHeads' : Prop} {m : Monitor}
  {place : Next} {stage : Stage} {log log₀ : List Fetch} {stopped : Bool} {t : Turn}

/-- One more turn of a run that waits. -/
theorem Turned.standing (turned : Turned stopped m log₀ place t stage log)
    (mode_eq : place.mode? = some mode) (alive : Fetch.Alive log₀) (unended : ¬ noHeads)
    (reaches : ∀ p, place = .tick p → Fetch.Reaches log₀ p.last)
    (hheads : noHeads' ↔ noHeads ∨ t = .headsEnd ∧ ∃ previous, place = .head previous) :
    Standing mode (turns ++ [t]) noHeads' stage log := by
  -- only the end of the heads, while the run waits for one, changes whether they have ended
  have goesOn : (t = .headsEnd → ∀ previous, place ≠ .head previous) → ¬ noHeads' := by
    rintro other hheads'
    rcases hheads.mp hheads' with ended | ⟨ht, previous, hplace⟩
    · exact unended ended
    · exact other ht previous hplace
  cases turned with
  | idle idle =>
    refine .waiting mode_eq alive (goesOn ?_) reaches
    rintro rfl previous rfl
    cases idle
  | goesOn brings lives tells tookIn =>
    rw [tookIn.log_eq]
    refine .waiting ((Next.mode?_after ..).trans mode_eq)
      (alive.append (brings.failsLast.alive lives)) (goesOn ?_) (brings.reaches reaches)
    rintro rfl
    cases brings
  | panics last_eq tookIn =>
    cases mode_eq
    rw [tookIn.log_eq]
    refine .panicked rfl (alive.append (Fetch.alive_of_sound ?_)) (goesOn ?_)
      (last_eq ▸ (reaches _ rfl).append _)
    · intro f mem
      cases List.mem_singleton.mp mem
      rfl
    · rintro ⟨⟩
  | sessionDead brings terminal tells tookIn =>
    obtain ⟨earlier, f, hfetches, alive', lost⟩ := brings.failsLast.lost terminal
    rw [tookIn.log_eq, hfetches, ← List.append_assoc]
    refine .sessionDead (alive.append alive') lost (goesOn ?_)
    rintro rfl
    cases brings
  | headsOver =>
    cases mode_eq
    exact .headsOver rfl alive (hheads.mpr (.inr ⟨rfl, _, rfl⟩))
  | stops told =>
    refine .stopped (List.mem_append_right _ List.mem_cons_self) alive (goesOn ?_)
    rintro ⟨⟩

/-- One more turn of a run that is over. -/
theorem Standing.over (standing : Standing mode turns noHeads stage log)
    (isOver : stage.isOver = true) (hheads : noHeads' ↔ noHeads) :
    Standing mode (turns ++ [t]) noHeads' stage log := by
  cases standing with
  | waiting mode_eq alive unended reaches => cases isOver
  | panicked polls alive unended reaches =>
    exact .panicked polls alive (mt hheads.mp unended) reaches
  | stopped looked alive unended =>
    exact .stopped (List.mem_append_left _ looked) alive (mt hheads.mp unended)
  | sessionDead alive lost unended => exact .sessionDead alive lost (mt hheads.mp unended)
  | headsOver subscribed alive ended => exact .headsOver subscribed alive (hheads.mpr ended)

namespace Standing

variable (standing : Standing mode turns noHeads stage log)
include standing

/-- A run has failed exactly if the session was found dead or the heads have ended. -/
theorem fails_iff :
    (∃ m' e, stage = .ended m' (.error e)) ↔ (∃ f ∈ log, ∃ e, f.Lost e) ∨ noHeads := by
  have silent : Fetch.Alive log → ¬ noHeads → ¬ ((∃ f ∈ log, ∃ e, f.Lost e) ∨ noHeads) := by
    rintro alive unended (⟨f, mem, e, lost⟩ | ended)
    · exact alive f mem e lost
    · exact unended ended
  cases standing with
  | waiting mode_eq alive unended reaches => exact iff_of_false (by simp) (silent alive unended)
  | panicked polls alive unended reaches => exact iff_of_false (by simp) (silent alive unended)
  | stopped looked alive unended => exact iff_of_false (by simp) (silent alive unended)
  | sessionDead alive lost unended =>
    exact iff_of_true ⟨_, _, rfl⟩ (.inl ⟨_, List.mem_append_right _ List.mem_cons_self, _, lost⟩)
  | headsOver subscribed alive ended => exact iff_of_true ⟨_, _, rfl⟩ (.inr ended)

/-- The error of a run is that of its last fetch, unless the heads have ended. -/
theorem chain {m' : Monitor} {e : RunError} (hstage : stage = .ended m' (.error e)) :
    noHeads ∧ mode = .subscribe ∧ e = .headsEnded ∨
      ∃ earlier f t, log = earlier ++ [f] ∧ Fetch.Alive earlier ∧ f.Lost t ∧
        e.context = "Session terminated" ∧ e.cause? = some (.monitor (.transport t)) := by
  cases standing with
  | waiting mode_eq alive unended reaches => cases hstage
  | panicked polls alive unended reaches => cases hstage
  | stopped looked alive unended => cases hstage
  | sessionDead alive lost unended =>
    cases hstage
    exact .inr ⟨_, _, _, rfl, alive, lost, rfl, rfl⟩
  | headsOver subscribed alive ended =>
    cases hstage
    exact .inl ⟨ended, subscribed, rfl⟩

/-- A run that has not failed waits in its loop, unless it was told to stop, or panicked after it
was told a head with the last number of all. -/
theorem runs : (∃ m' place, stage = .waiting m' place ∧ place.mode? = some mode) ∨
    (∃ m' e, stage = .ended m' (.error e)) ∨
      (.look ∈ turns ∧ ∃ m', stage = .ended m' (.ok ())) ∨
        mode = .poll ∧ Fetch.Reaches log lastNumber ∧ ∃ m', stage = .panicked m' := by
  cases standing with
  | waiting mode_eq alive unended reaches => exact .inl ⟨_, _, rfl, mode_eq⟩
  | stopped looked alive unended => exact .inr (.inr (.inl ⟨looked, _, rfl⟩))
  | panicked polls alive unended reaches => exact .inr (.inr (.inr ⟨polls, reaches, _, rfl⟩))
  | sessionDead alive lost unended => exact .inr (.inl ⟨_, _, rfl⟩)
  | headsOver subscribed alive ended => exact .inr (.inl ⟨_, _, rfl⟩)

end Standing

end Standing

variable {r : Run} {m : Monitor} {x : γ}

theorem headsEndIn_concat (g : Gateway γ) (r : Run) (m : Monitor) (x : γ) (turns : List Turn)
    (t : Turn) :
    HeadsEndIn g r m x (turns ++ [t]) ↔ HeadsEndIn g r m x turns ∨
      t = .headsEnd ∧ ∃ m' previous,
        (r.afterTurns g m x turns).1.stage = .waiting m' (.head previous) := by
  constructor
  · rintro ⟨before, after, m', previous, hturns, hstage⟩
    -- the end of the heads is the last turn, or one before it
    rcases List.eq_nil_or_concat after with rfl | ⟨after, last, rfl⟩
    · obtain ⟨rfl, ht⟩ := List.append_inj' hturns rfl
      cases ht
      exact .inr ⟨rfl, m', previous, hstage⟩
    · rw [List.concat_eq_append, ← List.cons_append, ← List.append_assoc] at hturns
      obtain ⟨rfl, -⟩ := List.append_inj' hturns rfl
      exact .inl ⟨before, after, m', previous, rfl, hstage⟩
  · rintro (⟨before, after, m', previous, rfl, hstage⟩ | ⟨rfl, m', previous, hstage⟩)
    · exact ⟨before, after ++ [t], m', previous, by simp, hstage⟩
    · exact ⟨turns, [], m', previous, rfl, hstage⟩

/-- The loop begins once the first head is fetched or the subscription is created. -/
theorem began (fetched : r.mode = .poll → ∃ head, (g (.header .latest) x).1 = .ok (some head)) :
    Began g m x r.mode (r.afterTurns g m x []).1.stage (r.afterTurns g m x []).2.2 := by
  show Began g m x r.mode (r.begun g.logged m (x, [])).1.stage (r.begun g.logged m (x, [])).2.2
  unfold Run.begun
  cases hmode : r.mode with
  | subscribe => exact .subscribed
  | poll =>
    obtain ⟨head, answered⟩ := fetched hmode
    have hrun := (TookIn.ensures_firstHead (g := g) (x, [])).runWith (m := m)
      ⟨.nothing m [], rfl⟩
    rcases hfirst : firstHead.runWith g.logged m (x, []) with ⟨result, m', x', log⟩
    rw [hfirst] at hrun
    cases result with
    | error e => exact absurd answered (hrun head)
    | ok p =>
      -- the head that was taken in is the one that the node told
      obtain ⟨head, told, answered, rfl, tells, tookIn⟩ := hrun
      have hwork : (do return Next.tick (← firstHead) : Inquiry RunError Next).runWith g.logged m
          (x, []) = (.ok (.tick ⟨head.number, head.timestamp⟩), m', x', log) := by
        rw [Inquiry.runWith_bind, hfirst]
        rfl
      rw [Run.go, Run.served_work hwork]
      exact .polling answered tells tookIn

theorem Began.standing {mode : FollowMode} {stage : Stage} {log : List Fetch} {noHeads : Prop}
    (began : Began g m x mode stage log) (unended : ¬ noHeads) :
    Standing mode [] noHeads stage log := by
  cases began with
  | subscribed =>
    refine .waiting rfl (fun f mem => absurd mem List.not_mem_nil) unended ?_
    rintro p ⟨⟩
  | @polling head told m' log answered tells tookIn =>
    rw [tookIn.log_eq]
    refine .waiting rfl (Fetch.alive_of_sound ?_) unended ?_
    · intro f mem
      cases List.mem_singleton.mp mem
      rfl
    · rintro p ⟨⟩
      exact ⟨head, List.mem_singleton_self _, UInt64.le_refl _⟩

theorem standing_afterTurns
    (fetched : r.mode = .poll → ∃ head, (g (.header .latest) x).1 = .ok (some head))
    (turns : List Turn) :
    Standing r.mode turns (HeadsEndIn g r m x turns) (r.afterTurns g m x turns).1.stage
      (r.afterTurns g m x turns).2.2 := by
  -- from the end: how the run stands before the last turn says which ways that turn can go
  induction turns using List.reverseRecOn with
  | nil =>
    refine (began fetched).standing ?_
    rintro ⟨before, after, m', previous, hturns, -⟩
    exact List.cons_ne_nil _ _ (List.append_eq_nil_iff.mp hturns.symm).2
  | append_singleton turns t ih =>
    rw [Run.afterTurns_concat]
    have hheads := headsEndIn_concat g r m x turns t
    generalize r.afterTurns g m x turns = s at ih hheads ⊢
    cases hstage : s.1.stage with
    | waiting m' place =>
      rw [hstage] at ih hheads
      cases ih with
      | waiting mode_eq alive unended reaches =>
        refine (Run.turned hstage mode_eq t).standing mode_eq alive unended reaches
          (hheads.trans ?_)
        simp
    | ended m' result =>
      have isOver : s.1.stage.isOver = true := by rw [hstage]; rfl
      obtain ⟨hstays, hnode⟩ := Run.turn_over (g := g.logged) isOver t
      rw [hstays, hnode]
      exact ih.over isOver (hheads.trans (by simp [hstage]))
    | panicked m' =>
      have isOver : s.1.stage.isOver = true := by rw [hstage]; rfl
      obtain ⟨hstays, hnode⟩ := Run.turn_over (g := g.logged) isOver t
      rw [hstays, hnode]
      exact ih.over isOver (hheads.trans (by simp [hstage]))
    | _ =>
      rw [hstage] at ih
      cases ih

/-- What is so after any turns of a run that has come to its loop. -/
structure Endures (g : Gateway γ) (r : Run) (m : Monitor) (x : γ) (turns : List Turn) : Prop where
  /-- The run goes as it does without the log of the fetches. -/
  unlogged : Run.unlogged (r.afterTurns g m x turns) = Run.followed g (r.begun g m x) turns
  began : Began g m x r.mode (r.afterTurns g m x []).1.stage (r.afterTurns g m x []).2.2
  /-- It ends with an error if, and only if, a fetch finds the session dead or the heads end. -/
  fails_iff : (∃ m' e, (r.afterTurns g m x turns).1.stage = .ended m' (.error e)) ↔
    (∃ f ∈ (r.afterTurns g m x turns).2.2, ∃ e, f.Lost e) ∨ HeadsEndIn g r m x turns
  /-- The error is that of the last fetch, which alone has found the session dead, unless the heads
  have ended. -/
  chain : ∀ m' e, (r.afterTurns g m x turns).1.stage = .ended m' (.error e) →
    HeadsEndIn g r m x turns ∧ r.mode = .subscribe ∧ e = .headsEnded ∨
      ∃ earlier f t, (r.afterTurns g m x turns).2.2 = earlier ++ [f] ∧ Fetch.Alive earlier ∧
        f.Lost t ∧ e.context = "Session terminated" ∧ e.cause? = some (.monitor (.transport t))
  /-- Unless it ends with an error, it waits in its loop, or it was told to stop, or it panicked
  after it was told a head with the last number of all. -/
  runs : (∃ m' place, (r.afterTurns g m x turns).1.stage = .waiting m' place ∧
      place.mode? = some r.mode) ∨
    (∃ m' e, (r.afterTurns g m x turns).1.stage = .ended m' (.error e)) ∨
      (.look ∈ turns ∧ ∃ m', (r.afterTurns g m x turns).1.stage = .ended m' (.ok ())) ∨
        r.mode = .poll ∧ Fetch.Reaches (r.afterTurns g m x turns).2.2 lastNumber ∧
          ∃ m', (r.afterTurns g m x turns).1.stage = .panicked m'
  /-- While it polls, it is no further than a head that it was told. -/
  reaches : ∀ m' p, (r.afterTurns g m x turns).1.stage = .waiting m' (.tick p) →
    Fetch.Reaches (r.afterTurns g m x turns).2.2 p.last
  /-- While it waits, the next turn goes in one of the ways of `Turned`. -/
  turned : ∀ m' place, (r.afterTurns g m x turns).1.stage = .waiting m' place → ∀ t,
    Turned (r.afterTurns g m x turns).1.isStopped m' (r.afterTurns g m x turns).2.2 place t
      (r.afterTurns g m x (turns ++ [t])).1.stage (r.afterTurns g m x (turns ++ [t])).2.2

/-- **Only a dead session stops a run.** A run has come to its loop: the subscription is created, or
the first head is fetched. Whatever turns it gets, and whatever the node answers, it ends with an
error exactly if a fetch finds the session dead, and then the error names that fetch, or if the
heads end while it waits for one. Every other failure leaves it in its loop, with the blocks taken
in that it got before, and at the place that they lead to; a block whose signers cannot be recovered
is neither counted nor reported, and does not keep the run from the blocks after it. As long as no
head has the last number of all, the run does not panic either. -/
theorem endures (g : Gateway γ) (r : Run) (m : Monitor) (x : γ)
    (fetched : r.mode = .poll → ∃ head, (g (.header .latest) x).1 = .ok (some head))
    (turns : List Turn) : Endures g r m x turns := by
  have standing := standing_afterTurns (m := m) fetched turns
  refine ⟨?_, began fetched, standing.fails_iff, fun m' e => standing.chain, standing.runs, ?_, ?_⟩
  · rw [Run.begun_unlogged]
    exact (Run.followed_unlogged g _ turns).symm
  · intro m' p hstage
    rw [hstage] at standing
    cases standing with
    | waiting mode_eq alive unended reaches => exact reaches p rfl
  · intro m' place hstage t
    rw [Run.afterTurns_concat]
    rw [hstage] at standing
    cases standing with
    | waiting mode_eq alive unended reaches => exact Run.turned hstage mode_eq t

/-- A node that gives the answers of a list to the blocks that it is asked for. -/
def reciting : Gateway (List (Except MonitorError (Option Header)))
  | .header _, [] => (.error (.transport .closed), [])
  | .header _, answer :: rest => (answer, rest)
  | .validators _, x => (.ok [], x)
  | .nodeInfo, x => (.ok none, x)
  | .peers, x => (.ok none, x)

/-- The head is not told, then block seven is missing, then it has no seals, and then the connection
breaks. Block eight is kept since it was the head. -/
def brokenOff : List (Except MonitorError (Option Header)) :=
  [.ok (some (lateBlock 5)),
    .error (.transport (.timeout "eth_getBlockByNumber" (.ofSeconds 30))),
    .ok (some (lateBlock 8)), .ok (some (lateBlock 6)), .ok none,
    .ok (some (lateBlock 8)), .ok (some (lateBlock 7)),
    .error (.transport (.connectionLost "reset"))]

/-- The reason for which the connection broke with which a run ended. -/
def Stage.broken? : Stage → Option String
  | .ended _ (.error (.sessionTerminated (.transport (.connectionLost reason)))) => some reason
  | _ => none

/-- A run lives through a timeout, a missing block and a block without seals, and the lost
connection ends it. -/
theorem endures_brokenOff :
    let r : Run := ⟨0, .poll, .ready (Monitor.make {} ⟨[]⟩ Monitor.spelledOut), 0, 0⟩
    let m := (Monitor.make {} ⟨[]⟩ Monitor.spelledOut).watch (.ofMembers [.zero])
    let turns : List Turn := [.tick, .tick, .head .null, .tick, .headsEnd, .tick, .tick]
    (∃ head, (reciting (.header .latest) brokenOff).1 = .ok (some head)) ∧
      Endures reciting r m brokenOff turns ∧
      (r.afterTurns reciting m brokenOff turns).1.stage.monitor.published.map (·.number) =
        [5, 6, 8] ∧
      (r.afterTurns reciting m brokenOff turns).1.stage.broken? = some "reset" := by
  intro r m turns
  have answered : ∃ head, (reciting (.header .latest) brokenOff).1 = .ok (some head) := ⟨_, rfl⟩
  exact ⟨answered, endures reciting r m brokenOff (fun _ => answered) turns, by decide +kernel,
    by decide +kernel⟩

end IstanbulMonitor.Follow
