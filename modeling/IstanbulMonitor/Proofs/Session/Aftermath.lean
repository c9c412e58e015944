import IstanbulMonitor.Proofs.Session.Soundness

/-!
# Sessions that have ended

Once a session has ended and its table of calls is empty, little can still happen to it: new calls
are turned away, callers leave with what their mailboxes hold or without an answer, and receivers
read or are dropped. `Session.Aftermath` lists it, and `Session.aftermath_step` says that this is
all. From the list follows what every later state has in common with the end (`Session.Over.step`).
-/

set_option autoImplicit false

namespace IstanbulMonitor

theorem Channel.senderOpen_receive (c : Channel) : c.receive.2.2.senderOpen = c.senderOpen := by
  simp only [receive]
  split <;> rfl

namespace Session

/-- What an event can do to a session that has ended. -/
inductive Aftermath (s : Session) : SessionEvent → Session → Prop
  | rest {e : SessionEvent} {t : Session} (ledger : t.ledger = s.ledger)
      (channels : t.channels = s.channels) (signal : t.signal = s.signal) : Aftermath s e t
  | turnAway {method : String} {kind : CallKind} {timeout : Span} {cause : TransportError}
      (closed : s.termination = some cause) :
      Aftermath s (.called method kind timeout)
        ({ s with nextId := s.nextId + 1 }.finish { id := s.nextId, method, kind, timeout }
          (.error cause))
  | accept {id : UInt64} : Aftermath s (.accepted id) (s.accepted id)
  | take {id : UInt64} {c : Caller} {delivery : Delivery} (found : s.caller? id = some c)
      (sent : c.sending = false) (mail : c.mail = some delivery) :
      Aftermath s (.woken id) (s.finish c (conclude c.kind c.method delivery))
  | refuse {id : UInt64} {c : Caller} (found : s.caller? id = some c)
      (sending : c.sending = true) :
      Aftermath s (.refused id) (s.finish c (.error s.cause))
  | expire {id : UInt64} {c : Caller} (found : s.caller? id = some c) (waits : c.waits = true) :
      Aftermath s (.expired id)
        ((s.warn .callTimedOut).finish c (.error (.timeout c.method c.timeout)))
  | cancel {id : UInt64} :
      Aftermath s (.cancelled id)
        ({ s with callers := s.callers.filter (·.id ≠ id) }.mapChannel id Channel.dropReceiver)
  | read {id : UInt64} : Aftermath s (.channelRead id) (s.receive id).2
  | release {id : UInt64} : Aftermath s (.channelReleased id) (s.release id)

variable {s t : Session} {e : SessionEvent} {id : UInt64}

/-! ## Small steps that leave signals and channels alone -/

theorem abandon_of_calls (idle : s.calls = []) (id : UInt64) : s.abandon id = s := by
  unfold abandon
  rw [idle]
  rfl

theorem raise_of_ne (raised : s.signal ≠ .running) (signal : Signal) : s.raise signal = s :=
  if_neg raised

theorem callers_of_ledger (h : t.ledger = s.ledger) : t.callers = s.callers :=
  congrArg Ledger.callers h

theorem ended_of_ledger (h : t.ledger = s.ledger) : t.ended = s.ended :=
  congrArg Ledger.ended h

theorem callers_finish (c : Caller) (answer : Except TransportError Reply) :
    (s.finish c answer).callers = s.callers.filter (·.id ≠ c.id) :=
  congrArg Ledger.callers (ledger_finish s c answer)

theorem ended_finish (c : Caller) (answer : Except TransportError Reply) :
    (s.finish c answer).ended = s.ended ++ [(c.id, answer)] :=
  congrArg Ledger.ended (ledger_finish s c answer)

/-- Everything that an event can do after the end is listed. -/
theorem aftermath_step (closed : s.isClosed = true) (idle : s.calls = [])
    (raised : s.signal ≠ .running) (e : SessionEvent) : s.Aftermath e (s.step e) := by
  have same : s.Aftermath e s := .rest rfl rfl rfl
  cases e with
  | called method kind timeout =>
    obtain ⟨cause, hterm⟩ := Option.isSome_iff_exists.mp closed
    have hstep : s.step (.called method kind timeout) =
        { s with nextId := s.nextId + 1 }.finish { id := s.nextId, method, kind, timeout }
          (.error cause) := by
      simp only [step, start, hterm]
    rw [hstep]
    exact .turnAway hterm
  | accepted id =>
    simp only [step]
    split
    · exact same
    · exact .accept
  | refused id =>
    simp only [step]
    split
    · next hguard =>
      obtain ⟨-, hsending⟩ := Bool.and_eq_true_iff.mp hguard
      obtain ⟨c, hc, hsending⟩ := (Option.any_eq_true _ _).mp hsending
      have hrefuse : s.refuse id = s.finish c (.error s.cause) := by
        rw [refuse, show s.callers.find? (·.id = id) = some c from hc, abandon_of_calls idle]
      rw [hrefuse]
      exact .refuse hc hsending
    · exact same
  | woken id =>
    simp only [step, wake]
    cases hc : s.callers.find? (·.id = id) with
    | none => exact same
    | some c =>
      simp only [abandon_of_calls idle]
      split
      · next delivery hsent hmail => exact .take hc hsent hmail
      · exact same
  | expired id =>
    simp only [step]
    split
    · next hguard =>
      obtain ⟨c, hc, hwaits⟩ := (Option.any_eq_true _ _).mp hguard
      have hexpire : s.expire id =
          (s.warn .callTimedOut).finish c (.error (.timeout c.method c.timeout)) := by
        rw [expire, show s.callers.find? (·.id = id) = some c from hc,
          abandon_of_calls (s := s.warn .callTimedOut) idle]
      rw [hexpire]
      exact .expire hc hwaits
    · exact same
  | cancelled id =>
    simp only [step, cancel, abandon_of_calls idle]
    split
    · exact .cancel
    · exact same
  | textArrived text =>
    simp only [step, dispatch, closed, if_true]
    exact same
  | bytesArrived =>
    simp only [step, closed, if_true]
    exact same
  | connectionLost reason =>
    simp only [step, lose, closed, if_true]
    exact same
  | closeRequested =>
    simp only [step, raise_of_ne raised]
    exact same
  | readerObeyed =>
    simp only [step, obey, closed, if_true]
    exact same
  | writeFailed reason =>
    simp only [step, failWriting]
    split
    · exact same
    · rw [raise_of_ne (s := s.warn .writeFailed) raised]
      exact .rest rfl rfl rfl
  | writerObeyed =>
    simp only [step, stopWriting, if_neg raised]
    exact .rest rfl rfl rfl
  | channelRead id => exact .read
  | channelReleased id => exact .release

/-! ## What every later state has in common -/

/-- What holds of a session since it ended with a cause: nothing is registered, every mailbox holds
an answer, those of the calls that were `lost` hold the cause, and no channel has a sender. -/
structure Over (cause : TransportError) (lost : UInt64 → Prop) (s : Session) : Prop where
  closed : s.termination = some cause
  calls : s.calls = []
  subscriptions : s.subscriptions = []
  raised : s.signal ≠ .running
  answered : ∀ c ∈ s.callers, c.mail ≠ none
  told : ∀ c ∈ s.callers, lost c.id → c.mail = some (.error cause)
  muted : ∀ c ∈ s.channels, c.2.senderOpen = false

namespace Over

variable {cause : TransportError} {lost : UInt64 → Prop}

theorem isClosed (h : s.Over cause lost) : s.isClosed = true := by
  rw [Session.isClosed, h.closed]
  rfl

theorem cause_eq (h : s.Over cause lost) : s.cause = cause := by
  rw [Session.cause, h.closed]
  rfl

theorem aftermath (h : s.Over cause lost) (e : SessionEvent) : s.Aftermath e (s.step e) :=
  aftermath_step h.isClosed h.calls h.raised e

/-- A session of which some callers have left is still over. -/
theorem fewer (h : s.Over cause lost) (callers : ∀ c ∈ t.callers, c ∈ s.callers)
    (closed : t.termination = s.termination) (calls : t.calls = s.calls)
    (subscriptions : t.subscriptions = s.subscriptions) (signal : t.signal = s.signal)
    (muted : ∀ c ∈ t.channels, c.2.senderOpen = false) : t.Over cause lost where
  closed := closed.trans h.closed
  calls := calls.trans h.calls
  subscriptions := subscriptions.trans h.subscriptions
  raised := signal ▸ h.raised
  answered c hc := h.answered c (callers c hc)
  told c hc := h.told c (callers c hc)
  muted := muted

theorem muted_mapChannel (h : s.Over cause lost) (id : UInt64) (change : Channel → Channel)
    (mute : ∀ c : Channel, c.senderOpen = false → (change c).senderOpen = false) :
    ∀ c ∈ (s.mapChannel id change).channels, c.2.senderOpen = false := by
  intro entry hentry
  obtain ⟨old, hold, rfl⟩ := List.mem_map.mp hentry
  split
  · exact mute old.2 (h.muted old hold)
  · exact h.muted old hold

theorem finish (h : s.Over cause lost) (c : Caller) (answer : Except TransportError Reply) :
    (s.finish c answer).Over cause lost := by
  have callers : ∀ b ∈ (s.finish c answer).callers, b ∈ s.callers := by
    intro b hb
    rw [callers_finish] at hb
    exact (List.mem_filter.mp hb).1
  cases answer with
  | ok reply => exact h.fewer callers rfl rfl rfl rfl h.muted
  | error e =>
    exact h.fewer callers rfl rfl rfl rfl
      (h.muted_mapChannel c.id Channel.dropReceiver fun _ hc => hc)

/-- A session with other channels or another journal, and otherwise as before. -/
theorem rest (h : s.Over cause lost) (ledger : t.ledger = s.ledger) (signal : t.signal = s.signal)
    (muted : ∀ c ∈ t.channels, c.2.senderOpen = false) : t.Over cause lost :=
  h.fewer (fun _ hc => callers_of_ledger ledger ▸ hc) (congrArg Ledger.termination ledger)
    (congrArg Ledger.calls ledger) (congrArg Ledger.subscriptions ledger) signal muted

theorem accepted (h : s.Over cause lost) (id : UInt64) : (s.accepted id).Over cause lost where
  closed := h.closed
  calls := h.calls
  subscriptions := h.subscriptions
  raised := h.raised
  answered c hc := by
    obtain ⟨b, hb, rfl⟩ := List.mem_map.mp hc
    split <;> exact h.answered b hb
  told c hc := by
    obtain ⟨b, hb, rfl⟩ := List.mem_map.mp hc
    split <;> exact h.told b hb
  muted := h.muted

theorem receive (h : s.Over cause lost) (id : UInt64) : (s.receive id).2.Over cause lost := by
  refine h.rest (ledger_receive id) ?_ ?_
  · unfold Session.receive
    cases s.channel? id with
    | none => rfl
    | some c =>
      dsimp only
      split <;> rfl
  · unfold Session.receive
    cases hc : s.channel? id with
    | none => exact h.muted
    | some c =>
      obtain ⟨entry, hentry, rfl⟩ := Option.map_eq_some_iff.mp hc
      have hopen := h.muted entry (List.mem_of_find?_eq_some hentry)
      have hread := h.muted_mapChannel id (fun _ => entry.2.receive.2.2) fun _ _ => by
        rw [Channel.senderOpen_receive, hopen]
      dsimp only
      split <;> exact hread

theorem of_aftermath (h : s.Over cause lost) (happened : s.Aftermath e t) :
    t.Over cause lost := by
  cases happened with
  | rest ledger channels signal => exact h.rest ledger signal (channels ▸ h.muted)
  | turnAway => exact Over.finish (s := { s with nextId := s.nextId + 1 }) { h with } _ _
  | accept => exact h.accepted _
  | take => exact h.finish _ _
  | refuse => exact h.finish _ _
  | expire => exact Over.finish (s := s.warn .callTimedOut) { h with } _ _
  | cancel =>
    exact h.fewer (fun c hc => (List.mem_filter.mp hc).1) rfl rfl rfl rfl
      (h.muted_mapChannel _ Channel.dropReceiver fun _ hc => hc)
  | read => exact h.receive _
  | release => exact h.rest rfl rfl (h.muted_mapChannel _ Channel.dropReceiver fun _ hc => hc)

/-- A session that has ended stays so, with the same cause and nothing registered. -/
theorem step (h : s.Over cause lost) (e : SessionEvent) : (s.step e).Over cause lost :=
  h.of_aftermath (h.aftermath e)

theorem run (h : s.Over cause lost) (events : List SessionEvent) :
    (s.run events).Over cause lost := by
  induction events generalizing s with
  | nil => exact h
  | cons e events ih => exact ih (h.step e)

/-! ### Calls, callers and answers -/

/-- No mailbox is filled after the end. -/
theorem callers_step (h : s.Over cause lost) (e : SessionEvent) :
    ∀ c ∈ (s.step e).callers, ∃ b ∈ s.callers, b.id = c.id ∧ b.mail = c.mail := by
  have same : ∀ c ∈ s.callers, ∃ b ∈ s.callers, b.id = c.id ∧ b.mail = c.mail :=
    fun c hc => ⟨c, hc, rfl, rfl⟩
  have left : ∀ gone : Caller → Bool, ∀ c ∈ s.callers.filter gone,
      ∃ b ∈ s.callers, b.id = c.id ∧ b.mail = c.mail :=
    fun gone c hc => same c (List.mem_filter.mp hc).1
  have happened := h.aftermath e
  generalize s.step e = t at happened ⊢
  cases happened with
  | rest ledger _ _ => exact callers_of_ledger ledger ▸ same
  | turnAway => exact left _
  | accept =>
    intro c hc
    obtain ⟨b, hb, rfl⟩ := List.mem_map.mp hc
    exact ⟨b, hb, by split <;> rfl, by split <;> rfl⟩
  | take => exact callers_finish (s := s) _ _ ▸ left _
  | refuse => exact left _
  | expire => exact left _
  | cancel => exact left _
  | @read id => exact callers_of_ledger (s := s) (ledger_receive id) ▸ same
  | release => exact same

/-- A call after the end ends at once with the cause. Nothing is registered for it. -/
theorem called (h : s.Over cause lost) (method : String) (kind : CallKind) (timeout : Span) :
    let t := s.step (.called method kind timeout)
    t.ended = s.ended ++ [(s.nextId, .error cause)] ∧ t.calls = [] ∧ t.subscriptions = [] ∧
      (∀ c ∈ t.callers, c ∈ s.callers) ∧ t.channels.map (·.1) = s.channels.map (·.1) := by
  have hstep : s.step (.called method kind timeout) =
      { s with nextId := s.nextId + 1 }.finish { id := s.nextId, method, kind, timeout }
        (.error cause) := by
    simp only [Session.step, start, h.closed]
  have later := h.step (.called method kind timeout)
  rw [hstep] at later ⊢
  refine ⟨ended_finish (s := { s with nextId := s.nextId + 1 }) _ _, later.calls,
    later.subscriptions, ?_, ?_⟩
  · intro c hc
    rw [callers_finish] at hc
    exact (List.mem_filter.mp hc).1
  · -- the receiver of a channel is dropped, if one has the id, and no channel is added
    show (s.channels.map fun c => if c.1 = s.nextId then (c.1, c.2.dropReceiver) else c).map (·.1) = _
    rw [List.map_map]
    refine List.map_congr_left fun c _ => ?_
    simp only [Function.comp]
    split <;> rfl

/-- A caller whose frame is on its way takes what its mailbox holds. -/
theorem woken (h : s.Over cause lost) {c : Caller} (found : s.caller? id = some c)
    (sent : c.sending = false) :
    ∃ delivery, c.mail = some delivery ∧
      (s.step (.woken id)).ended =
        s.ended ++ [(id, conclude c.kind c.method delivery)] := by
  obtain ⟨mem, rfl⟩ := mem_callers_of_find? found
  obtain ⟨delivery, hmail⟩ := Option.ne_none_iff_exists'.mp (h.answered c mem)
  refine ⟨delivery, hmail, ?_⟩
  rw [← ended_finish, Session.step, wake, show s.callers.find? (·.id = c.id) = some c from found]
  simp only [sent, hmail, abandon_of_calls h.calls]

/-- A caller whose frame waits for room is told the cause once the writer has stopped. -/
theorem refused (h : s.Over cause lost) {c : Caller} (found : s.caller? id = some c)
    (sending : c.sending = true) :
    ((s.step .writerObeyed).step (.refused id)).ended = s.ended ++ [(id, .error cause)] := by
  have hstopped : s.step .writerObeyed = { s with writerStopped := true } := if_neg h.raised
  have later := h.step .writerObeyed
  rw [hstopped] at later ⊢
  have hguard : (true && (s.caller? id).any Caller.sending) = true := by
    rw [found, Option.any_some, sending, Bool.and_self]
  obtain ⟨-, rfl⟩ := mem_callers_of_find? found
  show (if (true && (s.caller? c.id).any Caller.sending) = true
    then { s with writerStopped := true }.refuse c.id else { s with writerStopped := true }).ended = _
  rw [if_pos hguard, refuse, show s.callers.find? (·.id = c.id) = some c from found]
  simp only [abandon_of_calls later.calls, ended_finish, later.cause_eq]

/-- The signal to close has no effect after the end. -/
theorem step_closeRequested (h : s.Over cause lost) : s.step .closeRequested = s :=
  raise_of_ne h.raised .close

/-- A call that was lost ends with the cause, or in time while its frame waits for room. -/
theorem answer_of_lost (h : s.Over cause lost) (e : SessionEvent)
    {answer : Except TransportError Reply} (given : (s.step e).ended = s.ended ++ [(id, answer)])
    (hlost : lost id) :
    answer = .error cause ∨
      e = .expired id ∧ ∃ c, s.caller? id = some c ∧ c.sending = true ∧
        answer = .error (.timeout c.method c.timeout) := by
  have happened := h.aftermath e
  generalize s.step e = t at happened given
  have silent : t.ended ≠ s.ended := by
    intro heq
    rw [heq] at given
    exact absurd given (by simp)
  have spoken : ∀ {c : Caller} {result : Except TransportError Reply},
      s.ended ++ [(c.id, result)] = s.ended ++ [(id, answer)] → c.id = id ∧ result = answer := by
    intro c result heq
    simpa using heq
  cases happened with
  | rest ledger _ _ => exact absurd (ended_of_ledger ledger) silent
  | accept => exact absurd rfl silent
  | cancel => exact absurd rfl silent
  | read => exact absurd (ended_of_ledger (ledger_receive _)) silent
  | release => exact absurd rfl silent
  | turnAway closed =>
    rw [ended_finish] at given
    rw [h.closed] at closed
    cases closed
    exact Or.inl (spoken given).2.symm
  | take found sent mail =>
    rw [ended_finish] at given
    obtain ⟨rfl, rfl⟩ := spoken given
    rw [h.told _ (mem_callers_of_find? found).1 hlost] at mail
    cases mail
    exact Or.inl rfl
  | refuse found sending =>
    rw [ended_finish, h.cause_eq] at given
    exact Or.inl (spoken given).2.symm
  | @expire target c found waits =>
    rw [ended_finish] at given
    obtain ⟨rfl, rfl⟩ := spoken given
    obtain ⟨mem, rfl⟩ := mem_callers_of_find? found
    have hsending : c.sending = true := by
      have hmail := h.answered c mem
      rw [Caller.waits, Bool.or_eq_true] at waits
      rcases waits with hsending | hempty
      · exact hsending
      · exact absurd (Option.isNone_iff_eq_none.mp hempty) hmail
    exact Or.inr ⟨rfl, c, found, hsending, rfl⟩

end Over

end Session

end IstanbulMonitor
