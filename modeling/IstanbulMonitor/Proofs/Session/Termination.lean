import IstanbulMonitor.Proofs.Session.Handles

/-!
# The end of a session

A session ends with the first event that has a cause for it: the reader finds the connection lost,
or obeys the signal of a close or of a failed write (`Session.endCause?`). That is final. The cause
stays, the calls that were pending are delivered it once, everyone who calls later is told it at
once, and the handles of the subscriptions find what their channels retained and then the end
(`Session.final_run`).

The end is one event. The program records the cause and takes the calls out of the table at once,
under the lock of the table; then it delivers the cause to one caller after the other and drops the
subscriptions last. What another thread may see between these is not a state of a run.
-/

set_option autoImplicit false

namespace IstanbulMonitor

namespace Ledger

/-- A caller with an empty mailbox has a pending entry, and a pending entry has a caller. -/
structure Manned (l : Ledger) : Prop where
  waiting : ∀ c ∈ l.callers, c.mail = none → l.IsPending c.id
  manned : ∀ id, l.IsPending id → ∃ c ∈ l.callers, c.id = id

namespace Manned

variable {l l' : Ledger} {e : SessionEvent} {id : UInt64}

theorem leave (h : l.Manned) : ((l.strike id).dismiss id).Manned where
  waiting c hc hmail := by
    obtain ⟨hc, hne⟩ := mem_callers_dismiss.mp hc
    exact (isPending_strike c.id).mpr ⟨h.waiting c hc hmail, hne⟩
  manned id' pending := by
    obtain ⟨pending, hne⟩ := (isPending_strike id').mp pending
    obtain ⟨c, hc, rfl⟩ := h.manned id' pending
    exact ⟨c, mem_callers_dismiss.mpr ⟨hc, hne⟩, rfl⟩

theorem answer (h : l.Manned) (result : Except TransportError Reply) :
    (l.answer id result).Manned :=
  ⟨h.waiting, h.manned⟩

theorem register (h : l.Manned) (method : String) (kind : CallKind) (timeout : Span) :
    (l.register method kind timeout).Manned where
  waiting c hc hmail := by
    rw [isPending_register]
    rcases List.mem_append.mp hc with hc | hc
    · exact Or.inl (h.waiting c hc hmail)
    · rw [List.mem_singleton.mp hc]
      exact Or.inr rfl
  manned id' pending := by
    rcases (isPending_register method kind timeout id').mp pending with pending | rfl
    · obtain ⟨c, hc, hid⟩ := h.manned id' pending
      exact ⟨c, List.mem_append_left _ hc, hid⟩
    · exact ⟨_, List.mem_append_right _ (List.mem_singleton.mpr rfl), rfl⟩

theorem accept (h : l.Manned) : (l.accept id).Manned where
  waiting c hc hmail := by
    obtain ⟨b, hb, rfl⟩ := mem_callers_accept.mp hc
    split at hmail <;> split <;> exact h.waiting b hb hmail
  manned id' pending := by
    obtain ⟨c, hc, rfl⟩ := h.manned id' pending
    exact ⟨_, mem_callers_accept.mpr ⟨c, hc, rfl⟩, by split <;> rfl⟩

/-- Entries leave the table, and the mailboxes of their callers are filled. -/
theorem post (h : l.Manned) {ids : List UInt64} {delivery : Delivery}
    (left : ∀ id, l'.IsPending id ↔ l.IsPending id ∧ id ∉ ids)
    (callers : l'.callers = (l.post ids delivery).callers) : l'.Manned where
  waiting c hc hmail := by
    rw [callers] at hc
    obtain ⟨b, hb, rfl⟩ := mem_callers_post.mp hc
    by_cases hid : b.id ∈ ids
    · simp [hid] at hmail
    · rw [if_neg hid] at hmail ⊢
      exact (left b.id).mpr ⟨h.waiting b hb hmail, hid⟩
  manned id' pending := by
    obtain ⟨c, hc, rfl⟩ := h.manned id' ((left id').mp pending).1
    rw [callers]
    exact ⟨_, mem_callers_post.mpr ⟨c, hc, rfl⟩, by split <;> rfl⟩

theorem terminate (h : l.Manned) (cause : TransportError) : (l.terminate cause).Manned := by
  refine h.post (fun id' => ?_) rfl
  constructor
  · rintro ⟨call, hcall, -⟩
    exact absurd hcall List.not_mem_nil
  · rintro ⟨⟨call, hcall, rfl⟩, hnot⟩
    exact absurd (List.mem_map_of_mem hcall) hnot

/-- Every change of a session that is open keeps it so. -/
theorem change (h : l.Manned) (hchange : l.Change e l') (isOpen : l.termination = none) :
    l'.Manned := by
  cases hchange with
  | rest => exact ⟨h.waiting, h.manned⟩
  | turnAway closed =>
    rw [isOpen] at closed
    cases closed
  | register => exact h.register _ _ _
  | accept => exact h.accept
  | @resolve _ id _ subscriptions _ _ _ =>
    refine h.post (fun id' => ?_) rfl
    rw [List.mem_singleton]
    exact isPending_strike id'
  | conclude => exact h.leave.answer _
  | fail => exact h.leave.answer _
  | cancel => exact h.leave
  | terminate => exact h.terminate _

end Manned

end Ledger

namespace Session

variable {s : Session} {e : SessionEvent} {cause : TransportError} {id : UInt64}

/-! ## The cause of the end -/

/-- The cause with which an event ends a session that is open. -/
def endCause? (s : Session) : SessionEvent → Option TransportError
  | .connectionLost reason => some (.connectionLost reason)
  | .readerObeyed =>
    match s.signal with
    | .running => none
    | .close => some .closed
    | .writeFailed reason => some (.connectionLost reason)
  | _ => none

theorem lose_of_isOpen (isOpen : s.termination = none) (reason : String) :
    s.lose reason = (s.warn .receiveEnded).terminate (.connectionLost reason) :=
  if_neg (by simp [isClosed, isOpen])

/-- The end is one act, with a warning before it if the connection was lost. -/
theorem step_of_endCause? (isOpen : s.termination = none) (ends : s.endCause? e = some cause) :
    s.step e = s.terminate cause ∨ s.step e = (s.warn .receiveEnded).terminate cause := by
  cases e <;> simp only [endCause?, reduceCtorEq, Option.some.injEq] at ends
  case connectionLost reason =>
    subst ends
    exact Or.inr (lose_of_isOpen isOpen reason)
  case readerObeyed =>
    have hobey : s.step .readerObeyed =
        match s.signal with
        | .running => s
        | .close => s.terminate .closed
        | .writeFailed reason => s.lose reason :=
      if_neg (by simp [isClosed, isOpen])
    rw [hobey]
    cases hsignal : s.signal <;> simp only [hsignal, reduceCtorEq, Option.some.injEq] at ends
    case close =>
      subst ends
      exact Or.inl rfl
    case writeFailed reason =>
      subst ends
      exact Or.inr (lose_of_isOpen isOpen reason)

theorem signal_raise_ne {signal : Signal} (h : signal ≠ .running) :
    (s.raise signal).signal ≠ .running := by
  unfold raise
  split
  · exact h
  · next hraised => exact hraised

theorem channels_raise (signal : Signal) : (s.raise signal).channels = s.channels := by
  unfold raise
  split <;> rfl

theorem channels_terminate (cause : TransportError) :
    (s.terminate cause).channels = s.channels.map fun c => (c.1, c.2.dropSender) := by
  have delivered : ∀ (calls : List PendingCall) (t : Session),
      (calls.foldl (fun t call => (t.measure Metrics.callEnded).deliver call.id (.error cause))
        t).channels = t.channels := by
    intro calls
    induction calls with
    | nil => exact fun _ => rfl
    | cons call calls ih => exact fun t => ih _
  unfold terminate
  dsimp only
  rw [channels_raise, delivered]

/-- At the end of a session the cause is recorded, every pending call is delivered it, and every
table is emptied. -/
theorem over_terminate (h : s.ledger.Manned) (isOpen : s.termination = none)
    (cause : TransportError) : (s.terminate cause).Over cause s.ledger.IsPending := by
  have hledger := ledger_terminate s cause isOpen
  have hcallers : (s.terminate cause).callers =
      (s.ledger.post (s.calls.map (·.id)) (.error cause)).callers := congrArg Ledger.callers hledger
  have pending_iff : ∀ id, s.ledger.IsPending id ↔ id ∈ s.calls.map (·.id) := by
    intro id
    simp only [List.mem_map]
    rfl
  exact
    { closed := congrArg Ledger.termination hledger
      calls := congrArg Ledger.calls hledger
      subscriptions := congrArg Ledger.subscriptions hledger
      raised := signal_raise_ne nofun
      answered := fun c hc => by
        obtain ⟨b, hb, rfl⟩ := Ledger.mem_callers_post.mp (hcallers ▸ hc)
        split
        · exact Option.some_ne_none _
        · next hnot =>
          intro hmail
          exact hnot ((pending_iff b.id).mp (h.waiting b hb hmail))
      told := fun c hc pending => by
        obtain ⟨b, hb, rfl⟩ := Ledger.mem_callers_post.mp (hcallers ▸ hc)
        by_cases hid : b.id ∈ s.calls.map (·.id)
        · rw [if_pos hid]
        · rw [if_neg hid] at pending
          exact absurd ((pending_iff b.id).mp pending) hid
      muted := fun c hc => by
        rw [channels_terminate] at hc
        obtain ⟨old, -, rfl⟩ := List.mem_map.mp hc
        rfl }

theorem retained_terminate (cause : TransportError) (id : UInt64) :
    (s.terminate cause).retained id = s.retained id :=
  retained_of_map (fun _ => Channel.dropSender) (fun _ => Channel.retained_dropSender)
    (channels_terminate cause)

theorem over_step (h : s.ledger.Manned) (isOpen : s.termination = none)
    (ends : s.endCause? e = some cause) : (s.step e).Over cause s.ledger.IsPending := by
  rcases step_of_endCause? isOpen ends with hstep | hstep
  · rw [hstep]
    exact over_terminate h isOpen cause
  · rw [hstep]
    exact over_terminate (s := s.warn .receiveEnded) h isOpen cause

theorem termination_finish (c : Caller) (answer : Except TransportError Reply) :
    (s.finish c answer).termination = s.termination :=
  congrArg Ledger.termination (ledger_finish s c answer)

theorem termination_abandon : (s.abandon id).termination = s.termination :=
  congrArg Ledger.termination (ledger_abandon s id)

theorem termination_raise (signal : Signal) : (s.raise signal).termination = s.termination :=
  congrArg Ledger.termination (ledger_raise s signal)

theorem termination_resolve (outcome : Outcome) :
    (s.resolve id outcome).termination = s.termination := by
  unfold resolve
  cases s.calls.find? (·.id = id) with
  | none => rfl
  | some call =>
    dsimp only
    cases call.creates with
    | false => rfl
    | true =>
      cases outcome.toOption.bind subscriptionKey? with
      | none => rfl
      | some key =>
        obtain ⟨subs, hsubs, -⟩ := ledger_subscribe
          ({ s with calls := s.calls.filter (·.id ≠ id) }.measure Metrics.callEnded) key id
        exact congrArg Ledger.termination hsubs

/-- The end leaves the events that are kept. -/
theorem retained_step_of_endCause? (isOpen : s.termination = none)
    (ends : s.endCause? e = some cause) : (s.step e).retained id = s.retained id := by
  rcases step_of_endCause? isOpen ends with hstep | hstep
  · rw [hstep, retained_terminate]
  · rw [hstep, retained_terminate]
    rfl

/-- The end takes no caller away. -/
theorem exists_caller_step (isOpen : s.termination = none) (ends : s.endCause? e = some cause)
    {b : Caller} (hb : b ∈ s.callers) : ∃ c ∈ (s.step e).callers, c.id = b.id := by
  have hledger : (s.step e).ledger = s.ledger.terminate cause := by
    rcases step_of_endCause? isOpen ends with hstep | hstep
    · rw [hstep, ledger_terminate s cause isOpen]
    · rw [hstep, ledger_terminate (s.warn .receiveEnded) cause isOpen]
      rfl
  have hcallers : (s.step e).callers = (s.ledger.terminate cause).callers :=
    congrArg Ledger.callers hledger
  rw [hcallers]
  exact ⟨_, Ledger.mem_callers_post.mpr ⟨b, hb, rfl⟩, by split <;> rfl⟩

/-- An event that has no cause for the end does not end a session. -/
theorem termination_step_of_endCause?_eq_none (isOpen : s.termination = none)
    (goesOn : s.endCause? e = none) : (s.step e).termination = none := by
  cases e with
  | called method kind timeout =>
    simp only [step, start, isOpen]
    rfl
  | accepted id =>
    simp only [step]
    split <;> exact isOpen
  | refused id =>
    simp only [step, refuse]
    split
    · cases s.callers.find? (·.id = id) with
      | none => exact isOpen
      | some c => simp only [termination_finish, termination_abandon, isOpen]
    · exact isOpen
  | woken id =>
    simp only [step, wake]
    cases s.callers.find? (·.id = id) with
    | none => exact isOpen
    | some c =>
      dsimp only
      split
      · simp only [termination_finish, termination_abandon, isOpen]
      · exact isOpen
  | expired id =>
    simp only [step, expire]
    split
    · cases s.callers.find? (·.id = id) with
      | none => exact isOpen
      | some c =>
        simp only [termination_finish, termination_abandon]
        exact isOpen
    · exact isOpen
  | cancelled id =>
    simp only [step, cancel]
    split
    · exact termination_abandon.trans isOpen
    · exact isOpen
  | textArrived text =>
    simp only [step, dispatch]
    split
    · exact isOpen
    · cases Frame.decode text with
      | error fault => exact isOpen
      | ok frame =>
        cases frame with
        | request id method params => exact isOpen
        | response id outcome => exact (termination_resolve outcome).trans isOpen
        | notification key payload =>
          obtain ⟨subs, hsubs, -⟩ := ledger_forward (s := s) key payload
          exact (congrArg Ledger.termination hsubs).trans isOpen
  | bytesArrived =>
    simp only [step]
    split <;> exact isOpen
  | connectionLost reason => cases goesOn
  | closeRequested => exact (termination_raise .close).trans isOpen
  | readerObeyed =>
    have hsignal : s.signal = .running := by
      cases hsignal : s.signal <;> simp [endCause?, hsignal] at goesOn
      rfl
    simp only [step, obey, hsignal]
    split <;> exact isOpen
  | writeFailed reason => exact (congrArg Ledger.termination (ledger_failWriting reason)).trans isOpen
  | writerObeyed => exact (congrArg Ledger.termination ledger_stopWriting).trans isOpen
  | channelRead id => exact (congrArg Ledger.termination (ledger_receive id)).trans isOpen
  | channelReleased id => exact isOpen

/-- A run without an event that has a cause for the end keeps a session open and manned. -/
theorem open_run (h : s.ledger.Manned) (isOpen : s.termination = none) (events : List SessionEvent)
    (goesOn : ∀ p ∈ s.trace events, p.1.endCause? p.2 = none) :
    (s.run events).ledger.Manned ∧ (s.run events).termination = none := by
  induction events generalizing s with
  | nil => exact ⟨h, isOpen⟩
  | cons e events ih =>
    have hfirst := goesOn (s, e) List.mem_cons_self
    exact ih (h.change (s.change_step e) isOpen)
      (termination_step_of_endCause?_eq_none isOpen hfirst)
      fun p hp => goesOn p (List.mem_cons_of_mem _ hp)

theorem manned_fresh (buffer : Nat) : (fresh buffer).ledger.Manned where
  waiting c hc := absurd hc List.not_mem_nil
  manned id pending := by
    obtain ⟨call, hcall, -⟩ := pending
    exact absurd hcall List.not_mem_nil

/-! ## The main theorem -/

/-- What holds at any time after a session `s` ended with a cause; `t` is the session then. -/
structure Ended (s : Session) (cause : TransportError) (t : Session) : Prop where
  /-- The cause stays recorded. -/
  recorded : t.termination = some cause ∧ t.isClosed = true
  /-- No call is pending and no subscription is live. -/
  emptied : t.calls = [] ∧ t.subscriptions = []
  /-- Who is left of those that waited at the end has the cause in the mailbox. -/
  delivered : ∀ c ∈ t.callers, s.ledger.IsPending c.id → c.mail = some (.error cause)
  /-- Nothing new comes into a mailbox. -/
  once : ∀ e, ∀ c ∈ (t.step e).callers, ∃ b ∈ t.callers, b.id = c.id ∧ b.mail = c.mail
  /-- A call that was pending at the end ends with the cause. Only while its frame waits for room
  can it end in time instead. -/
  answers : ∀ e id answer, s.ledger.IsPending id →
    (t.step e).ended = t.ended ++ [(id, answer)] →
      answer = .error cause ∨
        e = .expired id ∧ ∃ c, t.caller? id = some c ∧ c.sending = true ∧
          answer = .error (.timeout c.method c.timeout)
  /-- Nobody hangs: a caller whose frame is on its way wakes with what its mailbox holds. -/
  wakes : ∀ id c, t.caller? id = some c → c.sending = false →
    ∃ delivery, c.mail = some delivery ∧
      (t.step (.woken id)).ended = t.ended ++ [(id, conclude c.kind c.method delivery)]
  /-- Nobody hangs: a caller whose frame waits for room is told the cause when the writer stops. -/
  refuses : ∀ id c, t.caller? id = some c → c.sending = true →
    ((t.step .writerObeyed).step (.refused id)).ended = t.ended ++ [(id, .error cause)]
  /-- A later call of any kind is told the cause at once. It gets neither an entry nor a caller nor
  a channel. -/
  turnsAway : ∀ method kind timeout,
    let u := t.step (.called method kind timeout)
    u.ended = t.ended ++ [(t.nextId, .error cause)] ∧ u.calls = [] ∧ u.subscriptions = [] ∧
      (∀ c ∈ u.callers, c ∈ t.callers) ∧ u.channels.map (·.1) = t.channels.map (·.1)
  /-- Closing once more changes nothing. -/
  closes : t.step .closeRequested = t

theorem Over.ended {t : Session} (h : t.Over cause s.ledger.IsPending) : Ended s cause t where
  recorded := ⟨h.closed, h.isClosed⟩
  emptied := ⟨h.calls, h.subscriptions⟩
  delivered := h.told
  once := h.callers_step
  answers e _ _ pending given := h.answer_of_lost e given pending
  wakes _ _ found sent := h.woken found sent
  refuses _ _ found sending := h.refused found sending
  turnsAway := h.called
  closes := h.step_closeRequested

/-- Signals that come later than the first one change nothing. -/
theorem raise_raise (first second : Signal) (h : first ≠ .running) :
    (s.raise first).raise second = s.raise first :=
  raise_of_ne (signal_raise_ne h) second

/-- **The end of a session is final.** Let an event be the first of a run that has a cause for the
end. The session is open until then, closing it twice is closing it once, and no call that is
pending has been answered. The event delivers the cause to all of them, and whatever happens after
it, the session has ended with this cause. The handle of a subscription reads the events that its
channel retained, one by one, and then the end. The states are those between whole events. -/
theorem final_run {buffer : Nat} {before : List SessionEvent} {e : SessionEvent}
    {cause : TransportError}
    (first : ∀ p ∈ (fresh buffer).trace before, p.1.endCause? p.2 = none)
    (ends : ((fresh buffer).run before).endCause? e = some cause) (after : List SessionEvent) :
    let s := (fresh buffer).run before
    (s.isClosed = false ∧
        (s.step .closeRequested).step .closeRequested = s.step .closeRequested ∧
        (before.countP SessionEvent.isCall < 2 ^ 64 →
          ∀ c ∈ s.callers, s.ledger.IsPending c.id → c.mail = none)) ∧
      (∀ id, s.ledger.IsPending id →
        ∃ c ∈ (s.step e).callers, c.id = id ∧ c.mail = some (.error cause)) ∧
      Ended s cause ((s.step e).run after) ∧
      ∀ (id : UInt64) (k : Nat) (received : Received),
        ((s.step e).readings after id)[k]? = some received →
          received = (s.retained id)[k]?.elim .ended .event := by
  obtain ⟨manned, isOpen⟩ := open_run (manned_fresh buffer) rfl before first
  generalize hs : (fresh buffer).run before = s at manned isOpen ends ⊢
  have gone := over_step manned isOpen ends
  refine ⟨⟨?_, ?_, ?_⟩, ?_, (gone.run after).ended, ?_⟩
  · rw [isClosed, isOpen]
    rfl
  · apply raise_raise .close .close
    intro hclose
    cases hclose
  · intro few c hc pending
    have sound := (Ledger.sound_faithful_run buffer before few).1
    rw [hs] at sound
    exact sound.mail_of_pending hc pending
  · intro id pending
    obtain ⟨b, hb, rfl⟩ := manned.manned id pending
    obtain ⟨c, hc, hid⟩ := exists_caller_step isOpen ends hb
    exact ⟨c, hc, hid, gone.told c hc (hid ▸ pending)⟩
  · intro id k received hreceived
    rw [← retained_step_of_endCause? isOpen ends]
    exact gone.getElem?_readings after id k received hreceived

/-- An event of the subscription `0xa`. -/
def announcement (n : Nat) : String :=
  Frame.encodeNotification "0xa" (.number (.int n))

/-- A subscription with two events, a call on its way and one that waits for room, until a frame
cannot be written. -/
def brokenPipe : List SessionEvent :=
  [.called "eth_subscribe" .subscription (.ofSeconds 5), .accepted 1,
   .textArrived "\x7b\"id\":1,\"result\":\"0xa\"\x7d", .woken 1,
   .textArrived (announcement 7), .textArrived (announcement 8),
   .called "net_version" .raw (.ofSeconds 5), .accepted 2,
   .called "net_peerCount" .raw (.ofSeconds 5), .writeFailed "broken pipe"]

/-- What happens after it: the callers leave, another call is made, and the handle reads. -/
def leaving : List SessionEvent :=
  [.woken 2, .writerObeyed, .refused 3, .called "net_version" .raw (.ofSeconds 5), .closeRequested,
   .channelRead 1, .channelRead 1, .channelRead 1]

/-- The two calls end with the cause and so does the one after them. The handle reads both events
and then the end. -/
theorem final_brokenPipe :
    let s := (fresh 4).run brokenPipe
    let cause := TransportError.connectionLost "broken pipe"
    (∀ p ∈ (fresh 4).trace brokenPipe, p.1.endCause? p.2 = none) ∧
      s.endCause? .readerObeyed = some cause ∧
      s.calls.map (·.id) = [2, 3] ∧ s.retained 1 = [.number (.int 7), .number (.int 8)] ∧
      Ended s cause ((s.step .readerObeyed).run leaving) ∧
      (((s.step .readerObeyed).run leaving).ended.map (·.1)) = [1, 2, 3, 4] ∧
      (s.step .readerObeyed).readings leaving 1 =
        [.event (.number (.int 7)), .event (.number (.int 8)), .ended] := by
  have first : ∀ p ∈ (fresh 4).trace brokenPipe, p.1.endCause? p.2 = none := by
    simp [brokenPipe, trace, endCause?]
  have ends : ((fresh 4).run brokenPipe).endCause? .readerObeyed =
      some (.connectionLost "broken pipe") := by cbv
  obtain ⟨-, -, ended, -⟩ := final_run first ends leaving
  exact ⟨first, ends, by cbv, by cbv, ended, by cbv, by cbv⟩

end Session

end IstanbulMonitor
