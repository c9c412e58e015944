import IstanbulMonitor.Proofs.Session.Termination

/-!
# What happens to a channel

A channel is opened by the call that creates its subscription. Afterwards an event sends it the
payload of a notification, lets its receiver read, or drops its sender or its receiver; in most
cases it does none of these. `Session.ChannelChange` lists what can happen together with what the
event was, and `Session.channelChange_step` says that this is all.
-/

set_option autoImplicit false

namespace IstanbulMonitor

/-- The notification that an event brings in: the key of its subscription and its payload. -/
def SessionEvent.notification? : SessionEvent → Option (String × Json)
  | .textArrived text =>
    match Frame.decode text with
    | .ok (.notification key payload) => some (key, payload)
    | _ => none
  | _ => none

namespace Session

/-- The call whose channel is registered under a key. -/
def sink? (s : Session) (key : String) : Option UInt64 :=
  (s.subscriptions.find? (·.1 = key)).map (·.2)

/-- Whether notifications with a key go to the channel of a call. -/
def feeds (s : Session) (key : String) (id : UInt64) : Bool :=
  !s.isClosed && (s.sink? key == some id) && (s.channel? id).any (·.receiverOpen)

/-- The payload that an event dispatches to the channel of a call. -/
def incoming? (id : UInt64) (p : Session × SessionEvent) : Option Json :=
  p.2.notification?.bind fun n => if p.1.feeds n.1 id then some n.2 else none

/-- An event that neither sends to the channel of a call nor reads from it. -/
structure PassesBy (s : Session) (e : SessionEvent) (id : UInt64) : Prop where
  unsent : incoming? id (s, e) = none
  unread : e ≠ .channelRead id

/-- Why the receiver of a channel is dropped: its handle is released, or the caller of its call,
which may be a newcomer, leaves without a reply. -/
inductive Forsakes (s : Session) (e : SessionEvent) (id : UInt64) : Prop
  | released (release : e = .channelReleased id)
  | left (there : (∃ c ∈ s.callers, c.id = id) ∨ e.isCall = true ∧ id = s.nextId)
      (gone : ∀ c ∈ (s.step e).callers, c.id ≠ id)
      (unanswered : ∀ reply, (id, .ok reply) ∈ (s.step e).ended → (id, .ok reply) ∈ s.ended)

/-- Everything that an event can do to the channel of a call. -/
inductive ChannelChange (s : Session) (e : SessionEvent) (id : UInt64) : Option Channel → Prop
  | rest (passes : s.PassesBy e id) : ChannelChange s e id (s.channel? id)
  | opened (passes : s.PassesBy e id) (missing : s.channel? id = none)
      (call : e.isCall = true ∧ id = s.nextId) :
      ChannelChange s e id (some (.make s.buffer))
  | sent {payload : Json} (incoming : incoming? id (s, e) = some payload) :
      ChannelChange s e id ((s.channel? id).map (·.send payload))
  | read (reads : e = .channelRead id) :
      ChannelChange s e id ((s.channel? id).map fun c => c.receive.2.2)
  | muted (passes : s.PassesBy e id) : ChannelChange s e id ((s.channel? id).map (·.dropSender))
  | forsaken (passes : s.PassesBy e id) (why : s.Forsakes e id) :
      ChannelChange s e id ((s.channel? id).map (·.dropReceiver))

variable {s t : Session} {e : SessionEvent} {id : UInt64}

/-! ## What the operations of a session do to its channels -/

theorem channel?_congr (h : t.channels = s.channels) : t.channel? id = s.channel? id := by
  unfold channel?
  rw [h]

theorem channel?_mapChannel (target : UInt64) (change : Channel → Channel) :
    (s.mapChannel target change).channel? id =
      if id = target then (s.channel? id).map change else s.channel? id := by
  split
  · next heq =>
    subst heq
    exact channel?_mapChannel_self change
  · next hne => exact channel?_mapChannel_ne hne change

theorem channel?_append {target : UInt64} {c : Channel}
    (h : t.channels = s.channels ++ [(target, c)]) :
    t.channel? id = (s.channel? id).or (if target = id then some c else none) := by
  unfold channel?
  rw [h, List.find?_append, List.find?_singleton]
  cases s.channels.find? (·.1 = id) with
  | some entry => rfl
  | none => by_cases hid : target = id <;> simp [hid]

theorem channels_abandon (target : UInt64) : (s.abandon target).channels = s.channels := by
  unfold abandon
  split <;> rfl

theorem ended_abandon (target : UInt64) : (s.abandon target).ended = s.ended :=
  congrArg Ledger.ended (ledger_abandon s target)

theorem cancel_of_any {target : UInt64} (there : s.callers.any (·.id = target) = true) :
    ∃ t : Session, t.channels = s.channels ∧ t.ended = s.ended ∧
      t.callers = s.callers.filter (·.id ≠ target) ∧
      s.cancel target = t.mapChannel target Channel.dropReceiver := by
  have callers : (s.abandon target).callers = s.callers :=
    congrArg Ledger.callers (ledger_abandon s target)
  refine ⟨{ s.abandon target with
    callers := (s.abandon target).callers.filter (·.id ≠ target) }, channels_abandon target,
    ended_abandon target, ?_, ?_⟩
  · exact congrArg (List.filter _) callers
  · rw [cancel, if_pos there]

theorem channel?_finish_error (c : Caller) (error : TransportError) :
    (s.finish c (.error error)).channel? id =
      if id = c.id then (s.channel? id).map .dropReceiver else s.channel? id :=
  channel?_mapChannel (s := s) c.id Channel.dropReceiver

theorem channel?_subscribe (key : String) (target : UInt64) :
    (s.subscribe key target).channel? id =
      if s.sink? key = some id then (s.channel? id).map .dropSender else s.channel? id := by
  unfold subscribe sink?
  cases s.subscriptions.find? (·.1 = key) with
  | none => rfl
  | some old =>
    have hsubscribe : ({ s.mapChannel old.2 Channel.dropSender with
        subscriptions := (s.mapChannel old.2 Channel.dropSender).subscriptions.filter (·.1 ≠ key) ++
          [(key, target)] } : Session).channel? id =
        (s.mapChannel old.2 Channel.dropSender).channel? id := rfl
    rw [Option.map_some, hsubscribe, channel?_mapChannel]
    simp only [Option.some.injEq, eq_comm]

/-- A response leaves every channel as it is, or takes its sender away. -/
theorem channel?_resolve (target : UInt64) (outcome : Outcome) :
    (s.resolve target outcome).channel? id = s.channel? id ∨
      (s.resolve target outcome).channel? id = (s.channel? id).map .dropSender := by
  unfold resolve
  cases s.calls.find? (·.id = target) with
  | none => exact Or.inl rfl
  | some call =>
    dsimp only
    generalize hstruck : { s with calls := s.calls.filter (·.id ≠ target) }.measure
      Metrics.callEnded = struck
    have same : struck.channel? id = s.channel? id := hstruck ▸ rfl
    have delivered : ∀ (t : Session) (delivery : Delivery),
        (t.deliver target delivery).channel? id = t.channel? id := fun _ _ => rfl
    rw [delivered]
    cases call.creates with
    | false => exact Or.inl same
    | true =>
      cases outcome.toOption.bind subscriptionKey? with
      | none =>
        simp only [if_true, channel?_mapChannel, same]
        split
        · exact Or.inr rfl
        · exact Or.inl rfl
      | some key =>
        simp only [if_true, channel?_subscribe, same]
        split
        · exact Or.inr rfl
        · exact Or.inl rfl

/-- A notification goes to the channel registered under its key, if its receiver is there. -/
theorem channel?_forward (isOpen : s.isClosed = false) (key : String) (payload : Json) :
    (s.forward key payload).channel? id =
      if s.feeds key id then (s.channel? id).map (·.send payload)
      else if s.sink? key = some id then (s.channel? id).map .dropSender
      else s.channel? id := by
  unfold forward feeds sink?
  cases s.subscriptions.find? (·.1 = key) with
  | none => simp
  | some sub =>
    obtain ⟨registered, target⟩ := sub
    have hforward : (if (s.channel? target).any (·.receiverOpen) then
          (s.mapChannel target (·.send payload)).measure Metrics.countEvent
        else { s with subscriptions := s.subscriptions.filter (·.1 ≠ key) }.mapChannel target
          Channel.dropSender).channel? id =
        if (s.channel? target).any (·.receiverOpen) then
          (s.mapChannel target (·.send payload)).channel? id
        else (s.mapChannel target Channel.dropSender).channel? id := by
      split <;> exact channel?_congr rfl
    dsimp only
    rw [hforward]
    simp only [channel?_mapChannel, isOpen, Option.map_some]
    by_cases hid : id = target
    · subst hid
      cases (s.channel? id).any (·.receiverOpen) <;> simp
    · simp [hid, Ne.symm hid]

theorem channel?_terminate (cause : TransportError) :
    (s.terminate cause).channel? id = (s.channel? id).map .dropSender :=
  channel?_of_map (fun _ => Channel.dropSender) (channels_terminate cause)

theorem channel?_receive (target : UInt64) :
    (s.receive target).2.channel? id =
      if id = target then (s.channel? id).map fun c => c.receive.2.2 else s.channel? id := by
  cases hc : s.channel? target with
  | none =>
    rw [receive_of_channel?_eq_none hc]
    split
    · next heq =>
      subst heq
      rw [hc]
      rfl
    · rfl
  | some c =>
    rw [channel?_congr (receive_of_channel? hc).2, channel?_mapChannel]
    split
    · next heq =>
      subst heq
      rw [hc]
      rfl
    · rfl

/-! ## The change that each event makes -/

namespace ChannelChange

theorem same (passes : s.PassesBy e id) (h : t.channels = s.channels) :
    s.ChannelChange e id (t.channel? id) := by
  rw [channel?_congr h]
  exact .rest passes

/-- A caller leaves with its answer; without a reply its receiver is dropped. -/
theorem finish (passes : s.PassesBy e id) {c : Caller} {answer : Except TransportError Reply}
    (there : (∃ b ∈ s.callers, b.id = c.id) ∨ e.isCall = true ∧ c.id = s.nextId)
    (channels : t.channels = s.channels) (ended : t.ended = s.ended)
    (step : s.step e = t.finish c answer) : s.ChannelChange e id ((s.step e).channel? id) := by
  cases answer with
  | ok reply =>
    rw [step]
    exact .same passes channels
  | error error =>
    have forsakes : id = c.id → s.Forsakes e id := by
      rintro rfl
      refine .left there ?_ ?_
      · intro b hb
        rw [step, callers_finish] at hb
        simpa using (List.mem_filter.mp hb).2
      · intro reply hreply
        rw [step, ended_finish, ended] at hreply
        rcases List.mem_append.mp hreply with hreply | hreply
        · exact hreply
        · cases List.mem_singleton.mp hreply
    rw [step, channel?_finish_error, channel?_congr channels]
    split
    · next hid => exact .forsaken passes (forsakes hid)
    · exact .rest passes

theorem terminate (passes : s.PassesBy e id) (channels : t.channels = s.channels)
    (cause : TransportError) : s.ChannelChange e id ((t.terminate cause).channel? id) := by
  rw [channel?_terminate, channel?_congr channels]
  exact .muted passes

theorem lose (passes : s.PassesBy e id) (reason : String) :
    s.ChannelChange e id ((s.lose reason).channel? id) := by
  unfold Session.lose
  split
  · exact .rest passes
  · exact .terminate (t := s.warn .receiveEnded) passes rfl _

end ChannelChange

theorem channelChange_start (method : String) (kind : CallKind) (timeout : Span) :
    s.ChannelChange (.called method kind timeout) id
      ((s.step (.called method kind timeout)).channel? id) := by
  have passes : s.PassesBy (.called method kind timeout) id := ⟨rfl, by simp⟩
  cases hterm : s.termination with
  | some cause =>
    have hstep : s.step (.called method kind timeout) =
        { s with nextId := s.nextId + 1 }.finish { id := s.nextId, method, kind, timeout }
          (.error cause) := by
      simp only [step, start, hterm]
    exact .finish (t := { s with nextId := s.nextId + 1 }) passes (.inr ⟨rfl, rfl⟩) rfl rfl hstep
  | none =>
    simp only [step, start, hterm]
    cases kind with
    | structured => exact .same passes rfl
    | raw => exact .same passes rfl
    | subscription =>
      rw [channel?_append (s := s) rfl]
      cases hc : s.channel? id with
      | some c =>
        rw [Option.some_or, ← hc]
        exact .rest passes
      | none =>
        rw [Option.none_or]
        split
        · next hid => exact .opened passes hc ⟨rfl, hid.symm⟩
        · rw [← hc]
          exact .rest passes

theorem incoming?_eq_some_iff {payload : Json} : incoming? id (s, e) = some payload ↔
    ∃ key, e.notification? = some (key, payload) ∧ s.feeds key id = true := by
  unfold incoming?
  rw [Option.bind_eq_some_iff]
  constructor
  · rintro ⟨⟨key, sent⟩, hnotification, hfeeds⟩
    split at hfeeds
    · next h =>
      cases hfeeds
      exact ⟨key, hnotification, h⟩
    · cases hfeeds
  · rintro ⟨key, hnotification, hfeeds⟩
    exact ⟨(key, payload), hnotification, if_pos hfeeds⟩

theorem incoming?_eq_none (h : e.notification? = none) : incoming? id (s, e) = none := by
  simp only [incoming?, h, Option.bind_none]

theorem channelChange_dispatch (text : String) :
    s.ChannelChange (.textArrived text) id ((s.dispatch text).channel? id) := by
  have unread : SessionEvent.textArrived text ≠ .channelRead id := by simp
  unfold dispatch
  cases hclosed : s.isClosed with
  | true =>
    have unsent : incoming? id (s, .textArrived text) = none := by
      simp [incoming?, feeds, hclosed]
    exact .rest ⟨unsent, unread⟩
  | false =>
    cases hframe : Frame.decode text with
    | error fault =>
      exact .same ⟨incoming?_eq_none (by simp [SessionEvent.notification?, hframe]), unread⟩ rfl
    | ok frame =>
      cases frame with
      | request target method params =>
        exact .rest ⟨incoming?_eq_none (by simp [SessionEvent.notification?, hframe]), unread⟩
      | response target outcome =>
        have passes : s.PassesBy (.textArrived text) id :=
          ⟨incoming?_eq_none (by simp [SessionEvent.notification?, hframe]), unread⟩
        have hresolve : (s.resolve target outcome).channel? id = s.channel? id ∨
            (s.resolve target outcome).channel? id = (s.channel? id).map .dropSender :=
          channel?_resolve target outcome
        rcases hresolve with h | h
        · simp only [Bool.false_eq_true, if_false, h]
          exact .rest passes
        · simp only [Bool.false_eq_true, if_false, h]
          exact .muted passes
      | notification key payload =>
        have hincoming : incoming? id (s, .textArrived text) =
            if s.feeds key id then some payload else none := by
          simp [incoming?, SessionEvent.notification?, hframe]
        simp only [Bool.false_eq_true, if_false, channel?_forward hclosed]
        split
        · next hfeeds => exact .sent (by rw [hincoming, if_pos hfeeds])
        · next hfeeds =>
          have passes : s.PassesBy (.textArrived text) id :=
            ⟨by rw [hincoming, if_neg hfeeds], unread⟩
          split
          · exact .muted passes
          · exact .rest passes

theorem channelChange_refuse (target : UInt64) :
    s.ChannelChange (.refused target) id ((s.step (.refused target)).channel? id) := by
  have passes : s.PassesBy (.refused target) id := ⟨rfl, by simp⟩
  cases hguard : s.writerStopped && (s.caller? target).any (·.sending) with
  | false =>
    simp only [step, hguard, Bool.false_eq_true, if_false]
    exact .rest passes
  | true =>
    cases hfound : s.callers.find? (·.id = target) with
    | none =>
      simp only [step, hguard, if_true, refuse, hfound]
      exact .rest passes
    | some c =>
      have hstep : s.step (.refused target) = (s.abandon target).finish c (.error s.cause) := by
        simp only [step, hguard, if_true, refuse, hfound]
      exact .finish passes (.inl ⟨c, (mem_callers_of_find? hfound).1, rfl⟩)
        (channels_abandon target) (ended_abandon target) hstep

theorem channelChange_wake (target : UInt64) :
    s.ChannelChange (.woken target) id ((s.step (.woken target)).channel? id) := by
  have passes : s.PassesBy (.woken target) id := ⟨rfl, by simp⟩
  cases hfound : s.callers.find? (·.id = target) with
  | none =>
    simp only [step, wake, hfound]
    exact .rest passes
  | some c =>
    cases hsending : c.sending with
    | true =>
      simp only [step, wake, hfound, hsending]
      exact .rest passes
    | false =>
      cases hmail : c.mail with
      | none =>
        simp only [step, wake, hfound, hsending, hmail]
        exact .rest passes
      | some delivery =>
        have hstep : s.step (.woken target) =
            (s.abandon target).finish c (conclude c.kind c.method delivery) := by
          simp only [step, wake, hfound, hsending, hmail]
        exact .finish passes (.inl ⟨c, (mem_callers_of_find? hfound).1, rfl⟩)
          (channels_abandon target) (ended_abandon target) hstep

theorem channelChange_expire (target : UInt64) :
    s.ChannelChange (.expired target) id ((s.step (.expired target)).channel? id) := by
  have passes : s.PassesBy (.expired target) id := ⟨rfl, by simp⟩
  cases hguard : (s.caller? target).any (·.waits) with
  | false =>
    simp only [step, hguard, Bool.false_eq_true, if_false]
    exact .rest passes
  | true =>
    cases hfound : s.callers.find? (·.id = target) with
    | none =>
      simp only [step, hguard, if_true, expire, hfound]
      exact .rest passes
    | some c =>
      have hstep : s.step (.expired target) = ((s.warn .callTimedOut).abandon target).finish c
          (.error (.timeout c.method c.timeout)) := by
        simp only [step, hguard, if_true, expire, hfound]
      exact .finish passes (.inl ⟨c, (mem_callers_of_find? hfound).1, rfl⟩)
        (channels_abandon (s := s.warn .callTimedOut) target)
        (ended_abandon (s := s.warn .callTimedOut) target) hstep

/-- The receiver of a creating call goes away together with its caller. -/
theorem channelChange_cancel (target : UInt64) :
    s.ChannelChange (.cancelled target) id ((s.step (.cancelled target)).channel? id) := by
  have passes : s.PassesBy (.cancelled target) id := ⟨rfl, by simp⟩
  cases hthere : s.callers.any (·.id = target) with
  | false =>
    simp only [step, cancel, hthere, Bool.false_eq_true, if_false]
    exact .rest passes
  | true =>
    obtain ⟨t, channels, ended, callers, hcancel⟩ := cancel_of_any hthere
    have hstep : s.step (.cancelled target) = t.mapChannel target Channel.dropReceiver := hcancel
    have forsakes : id = target → s.Forsakes (.cancelled target) id := by
      rintro rfl
      obtain ⟨c, hc, hid⟩ := List.any_eq_true.mp hthere
      refine .left (.inl ⟨c, hc, of_decide_eq_true hid⟩) ?_ ?_
      · intro c hc
        have hmem : c ∈ t.callers := by rwa [hstep] at hc
        rw [callers] at hmem
        simpa using (List.mem_filter.mp hmem).2
      · intro reply hreply
        rw [hstep] at hreply
        rwa [← ended]
    rw [hstep, channel?_mapChannel, channel?_congr channels]
    split
    · next hid => exact .forsaken passes (forsakes hid)
    · exact .rest passes

/-- Every event changes the channel of a call in one of the listed ways. -/
theorem channelChange_step (s : Session) (e : SessionEvent) (id : UInt64) :
    s.ChannelChange e id ((s.step e).channel? id) := by
  cases e with
  | called method kind timeout => exact channelChange_start method kind timeout
  | textArrived text => exact channelChange_dispatch text
  | accepted target =>
    have passes : s.PassesBy (.accepted target) id := ⟨rfl, by simp⟩
    simp only [step]
    split <;> exact .same passes rfl
  | refused target => exact channelChange_refuse target
  | woken target => exact channelChange_wake target
  | expired target => exact channelChange_expire target
  | cancelled target => exact channelChange_cancel target
  | bytesArrived =>
    have passes : s.PassesBy .bytesArrived id := ⟨rfl, by simp⟩
    simp only [step]
    split <;> exact .same passes rfl
  | connectionLost reason => exact .lose (e := .connectionLost reason) ⟨rfl, by simp⟩ reason
  | closeRequested => exact .same ⟨rfl, by simp⟩ (channels_raise _)
  | readerObeyed =>
    have passes : s.PassesBy .readerObeyed id := ⟨rfl, by simp⟩
    simp only [step, obey]
    split
    · exact .rest passes
    · cases s.signal with
      | running => exact .rest passes
      | close => exact .terminate passes rfl _
      | writeFailed reason => exact .lose passes _
  | writeFailed reason =>
    have passes : s.PassesBy (.writeFailed reason) id := ⟨rfl, by simp⟩
    simp only [step, failWriting]
    split
    · exact .rest passes
    · exact .same passes (channels_raise _)
  | writerObeyed =>
    have passes : s.PassesBy .writerObeyed id := ⟨rfl, by simp⟩
    simp only [step, stopWriting]
    split <;> exact .same passes rfl
  | channelRead target =>
    simp only [step, channel?_receive]
    split
    · next heq => exact .read (by rw [heq])
    · next hne =>
      refine .rest ⟨rfl, fun heq => hne ?_⟩
      cases heq
      rfl
  | channelReleased target =>
    have passes : s.PassesBy (.channelReleased target) id := ⟨rfl, by simp⟩
    simp only [step, release, channel?_mapChannel]
    split
    · next heq => exact .forsaken passes (.released (by rw [heq]))
    · exact .rest passes

/-! ## The size of new channels and the count of missed events -/

/-- The size of new channels, and how many events were counted as missed by consumers. -/
def marks (s : Session) : Nat × Nat := (s.buffer, s.journal.metrics.lagged)

theorem marks_measure {change : Metrics → Metrics} (same : ∀ m, (change m).lagged = m.lagged) :
    (s.measure change).marks = s.marks :=
  congrArg (Prod.mk s.buffer) (same s.journal.metrics)

-- with a variable for the new value, since a rounded sum is not to be computed here
theorem lagged_events (m : Metrics) (n : Nat) : { m with events := n }.lagged = m.lagged := rfl

theorem lagged_pending (m : Metrics) (n : Nat) : { m with pending := n }.lagged = m.lagged := rfl

theorem marks_finish (c : Caller) (answer : Except TransportError Reply) :
    (s.finish c answer).marks = s.marks := by
  cases answer <;> rfl

theorem marks_abandon (target : UInt64) : (s.abandon target).marks = s.marks := by
  unfold abandon
  split <;> rfl

theorem marks_subscribe (key : String) (target : UInt64) :
    (s.subscribe key target).marks = s.marks := by
  unfold subscribe
  cases s.subscriptions.find? (·.1 = key) <;> rfl

theorem marks_resolve (target : UInt64) (outcome : Outcome) :
    (s.resolve target outcome).marks = s.marks := by
  unfold resolve
  cases s.calls.find? (·.id = target) with
  | none => rfl
  | some call =>
    dsimp only
    cases call.creates with
    | false => rfl
    | true =>
      cases outcome.toOption.bind subscriptionKey? with
      | none => rfl
      | some key =>
        exact marks_subscribe (s := { s with calls := s.calls.filter (·.id ≠ target) }.measure
          Metrics.callEnded) key target

theorem marks_raise (signal : Signal) : (s.raise signal).marks = s.marks := by
  unfold raise
  split <;> rfl

theorem marks_terminate (cause : TransportError) : (s.terminate cause).marks = s.marks := by
  have delivered : ∀ (calls : List PendingCall) (t : Session),
      (calls.foldl (fun t call => (t.measure Metrics.callEnded).deliver call.id (.error cause))
        t).marks = t.marks := by
    intro calls
    induction calls with
    | nil => exact fun _ => rfl
    | cons call calls ih => exact fun t => ih _
  exact (marks_raise _).trans (delivered s.calls _)

theorem marks_lose (reason : String) : (s.lose reason).marks = s.marks := by
  unfold lose
  split
  · rfl
  · exact marks_terminate _

theorem marks_forward (key : String) (payload : Json) :
    (s.forward key payload).marks = s.marks := by
  unfold forward
  cases s.subscriptions.find? (·.1 = key) with
  | none => rfl
  | some sub =>
    dsimp only
    split
    · exact marks_measure (s := s.mapChannel sub.2 (·.send payload)) fun m => lagged_events m _
    · rfl

/-- Only a read changes either of the two. -/
theorem marks_step (e : SessionEvent) (unread : ∀ id, e ≠ .channelRead id) :
    (s.step e).marks = s.marks := by
  cases e with
  | called method kind timeout =>
    simp only [step, start]
    split
    · exact marks_finish _ _
    · exact (marks_measure fun m => lagged_pending m _).trans rfl
  | accepted target =>
    simp only [step]
    split <;> rfl
  | refused target =>
    simp only [step]
    split
    · unfold refuse
      split
      · rfl
      · exact (marks_finish _ _).trans (marks_abandon _)
    · rfl
  | woken target =>
    simp only [step]
    unfold wake
    split
    · rfl
    · split
      · exact (marks_finish _ _).trans (marks_abandon _)
      · rfl
  | expired target =>
    simp only [step]
    split
    · unfold expire
      split
      · rfl
      · exact (marks_finish _ _).trans (marks_abandon _)
    · rfl
  | cancelled target =>
    simp only [step, cancel]
    split
    · exact marks_abandon _
    · rfl
  | textArrived text =>
    simp only [step, dispatch]
    split
    · rfl
    · split
      · exact marks_resolve _ _
      · exact marks_forward _ _
      · rfl
      · rfl
  | bytesArrived =>
    simp only [step]
    split <;> rfl
  | connectionLost reason => exact marks_lose _
  | closeRequested => exact marks_raise _
  | readerObeyed =>
    simp only [step, obey]
    split
    · rfl
    · split
      · rfl
      · exact marks_terminate _
      · exact marks_lose _
  | writeFailed reason =>
    simp only [step, failWriting]
    split
    · rfl
    · exact marks_raise _
  | writerObeyed =>
    simp only [step, stopWriting]
    split <;> rfl
  | channelRead target => exact absurd rfl (unread target)
  | channelReleased target => rfl

/-- How many events were overwritten that the receiver of a channel has not read. -/
def lag (s : Session) (id : UInt64) : Nat := (s.channel? id).elim 0 Channel.lag

/-- A read counts the events that it passes over, if there are any. -/
theorem marks_receive (id : UInt64) :
    (s.receive id).2.marks =
      if s.lag id = 0 then s.marks
      else (s.buffer, Metrics.increase s.journal.metrics.lagged (s.lag id)) := by
  unfold receive
  cases hc : s.channel? id with
  | none => simp only [lag, hc, Option.elim_none, if_true]
  | some c =>
    have hmissed : s.lag id = c.receive.2.1 := by
      simp only [lag, hc, Option.elim_some, Channel.receive]
      split <;> rfl
    have read : (s.mapChannel id fun _ => c.receive.2.2).marks = s.marks := rfl
    rw [hmissed]
    by_cases none : c.receive.2.1 = 0
    · simp only [if_pos none]
      exact read
    · simp only [if_neg none]
      exact congrArg (fun marks : Nat × Nat =>
        (marks.1, Metrics.increase marks.2 c.receive.2.1)) read

/-- The size of new channels is set at the beginning. -/
theorem buffer_step (s : Session) (e : SessionEvent) : (s.step e).buffer = s.buffer := by
  by_cases reads : ∃ id, e = .channelRead id
  · obtain ⟨id, rfl⟩ := reads
    have hread := congrArg Prod.fst (marks_receive (s := s) id)
    split at hread <;> exact hread
  · exact congrArg Prod.fst (marks_step e fun id heq => reads ⟨id, heq⟩)

theorem buffer_run (s : Session) (events : List SessionEvent) :
    (s.run events).buffer = s.buffer := by
  induction events generalizing s with
  | nil => rfl
  | cons e events ih => exact (ih (s.step e)).trans (buffer_step s e)

end Session

end IstanbulMonitor
