import IstanbulMonitor.Proofs.Session.History

/-!
# How calls are answered

`Session.Tells` lists the ways in which an event gives a caller its answer: a call after the end
of the connection is turned away, a caller takes what its mailbox holds, finds that its frame cannot
be sent any more, or runs out of time. Whatever is answered is counted at the same time, and nothing
else is (`Session.toll_step`).
-/

set_option autoImplicit false

namespace IstanbulMonitor

/-- What a call of a kind is answered with. -/
def CallKind.Suits : CallKind → Reply → Prop
  | .structured, reply => ∃ value, reply = .value value
  | .raw, reply => ∃ text, reply = .raw text
  | .subscription, reply => ∃ key, reply = .subscribed key

namespace Session

/-- How an event gives a caller its answer. -/
inductive Tells (s : Session) : SessionEvent → Caller → Except TransportError Reply → Prop
  | turnAway {method : String} {kind : CallKind} {timeout : Span} {cause : TransportError}
      (closed : s.termination = some cause) :
      Tells s (.called method kind timeout) (s.ledger.newcomer method kind timeout)
        (.error cause)
  | take {id : UInt64} {c : Caller} {delivery : Delivery} (found : s.caller? id = some c)
      (sent : c.sending = false) (mail : c.mail = some delivery) :
      Tells s (.woken id) c (conclude c.kind c.method delivery)
  | refuse {id : UInt64} {c : Caller} (found : s.caller? id = some c) (sending : c.sending = true)
      (stopped : s.writerStopped = true) : Tells s (.refused id) c (.error s.cause)
  | expire {id : UInt64} {c : Caller} (found : s.caller? id = some c) (waits : c.waits = true) :
      Tells s (.expired id) c (.error (.timeout c.method c.timeout))

/-- The counts of ended calls, by method and outcome. -/
def samples (s : Session) : LabelCounts (String × String) := s.journal.metrics.calls

/-- Answers by the id of the call, and counts by its method and outcome. -/
abbrev Tolls := List (UInt64 × Except TransportError Reply) × LabelCounts (String × String)

/-- The answers given so far and the counts of ended calls. -/
def tolls (s : Session) : Tolls := (s.ended, s.samples)

/-- An event gives an answer, which is counted under the method of the call, or neither. -/
inductive Toll (s : Session) (e : SessionEvent) : Tolls → Prop
  | rest : Toll s e s.tolls
  | answer {c : Caller} {answer : Except TransportError Reply} (given : s.Tells e c answer) :
      Toll s e (s.ended ++ [(c.id, answer)], s.samples.add (c.method, outcome answer))

variable {s : Session} {e : SessionEvent}

/-! ## What the operations of a session leave uncounted -/

theorem tolls_measure {change : Metrics → Metrics} (same : ∀ m, (change m).calls = m.calls) :
    (s.measure change).tolls = s.tolls := by
  show (s.ended, (change s.journal.metrics).calls) = _
  rw [same]
  rfl

theorem tolls_raise (signal : Signal) : (s.raise signal).tolls = s.tolls := by
  unfold raise
  split <;> rfl

theorem tolls_abandon (id : UInt64) : (s.abandon id).tolls = s.tolls := by
  unfold abandon
  split <;> rfl

theorem tolls_subscribe (key : String) (id : UInt64) : (s.subscribe key id).tolls = s.tolls := by
  unfold subscribe
  cases s.subscriptions.find? (·.1 = key) <;> rfl

theorem tolls_resolve (id : UInt64) (outcome : Outcome) :
    (s.resolve id outcome).tolls = s.tolls := by
  unfold resolve
  cases s.calls.find? (·.id = id) with
  | none => rfl
  | some call =>
    dsimp only
    cases call.creates with
    | false => rfl
    | true =>
      cases outcome.toOption.bind subscriptionKey? with
      | none => rfl
      | some key =>
        exact tolls_subscribe
          (s := { s with calls := s.calls.filter (·.id ≠ id) }.measure Metrics.callEnded) key id

-- with a variable for the new value, since a rounded sum is not to be computed here
theorem calls_events (m : Metrics) (n : Nat) : { m with events := n }.calls = m.calls := rfl

theorem calls_lagged (m : Metrics) (n : Nat) : { m with lagged := n }.calls = m.calls := rfl

theorem calls_pending (m : Metrics) (n : Nat) : { m with pending := n }.calls = m.calls := rfl

theorem calls_countEvent (m : Metrics) : m.countEvent.calls = m.calls := calls_events m _

theorem calls_countLagged (m : Metrics) (amount : Nat) :
    (m.countLagged amount).calls = m.calls := calls_lagged m _

theorem calls_callRegistered (m : Metrics) : m.callRegistered.calls = m.calls := calls_pending m _

theorem tolls_forward (key : String) (payload : Json) :
    (s.forward key payload).tolls = s.tolls := by
  unfold forward
  cases s.subscriptions.find? (·.1 = key) with
  | none => rfl
  | some sub =>
    dsimp only
    split
    · exact tolls_measure (s := s.mapChannel sub.2 (·.send payload)) calls_countEvent
    · rfl

theorem tolls_dispatch (text : String) : (s.dispatch text).tolls = s.tolls := by
  unfold dispatch
  split
  · rfl
  cases Frame.decode text with
  | error fault => rfl
  | ok frame =>
    cases frame with
    | response id outcome => exact tolls_resolve id outcome
    | notification key payload => exact tolls_forward key payload
    | request id method params => rfl

theorem tolls_foldl_deliver (drained : List PendingCall) (delivery : Delivery) :
    (drained.foldl (fun s call => (s.measure Metrics.callEnded).deliver call.id delivery) s).tolls =
      s.tolls := by
  induction drained generalizing s with
  | nil => rfl
  | cons call drained ih =>
    rw [List.foldl_cons, ih]
    rfl

theorem tolls_terminate (cause : TransportError) : (s.terminate cause).tolls = s.tolls := by
  unfold terminate
  rw [tolls_raise]
  exact tolls_foldl_deliver (s := { s with
    calls := [], termination := some (s.termination.getD cause) }) s.calls (.error cause)

theorem tolls_lose (reason : String) : (s.lose reason).tolls = s.tolls := by
  unfold lose
  split
  · rfl
  · rw [tolls_terminate]
    rfl

theorem tolls_obey : s.obey.tolls = s.tolls := by
  unfold obey
  split
  · rfl
  cases s.signal with
  | running => rfl
  | close => exact tolls_terminate .closed
  | writeFailed reason => exact tolls_lose reason

theorem tolls_failWriting (reason : String) : (s.failWriting reason).tolls = s.tolls := by
  unfold failWriting
  split
  · rfl
  · exact tolls_raise (s := s.warn .writeFailed) _

theorem tolls_stopWriting : s.stopWriting.tolls = s.tolls := by
  unfold stopWriting
  split <;> rfl

theorem tolls_receive (id : UInt64) : (s.receive id).2.tolls = s.tolls := by
  unfold receive
  cases s.channel? id with
  | none => rfl
  | some c =>
    dsimp only
    split
    · rfl
    · exact tolls_measure (s := s.mapChannel id fun _ => c.receive.2.2) fun m =>
        calls_countLagged m _

theorem tolls_cancel (id : UInt64) : (s.cancel id).tolls = s.tolls := by
  unfold cancel
  split
  · exact tolls_abandon id
  · rfl

/-! ## What each event answers -/

/-- A caller's end is counted, whatever it is. -/
theorem tolls_finish (c : Caller) (answer : Except TransportError Reply) :
    (s.finish c answer).tolls =
      (s.ended ++ [(c.id, answer)], s.samples.add (c.method, outcome answer)) := by
  unfold finish
  cases answer <;> rfl

/-- A caller's end after steps that count nothing. -/
theorem Tells.toll {c : Caller} {answer : Except TransportError Reply}
    (given : s.Tells e c answer) {t : Session} (same : t.tolls = s.tolls) :
    s.Toll e (t.finish c answer).tolls := by
  have ended : t.ended = s.ended := congrArg Prod.fst same
  have samples : t.samples = s.samples := congrArg Prod.snd same
  rw [tolls_finish, ended, samples]
  exact .answer given

/-- An event that answers nobody. -/
theorem Toll.of_same {tolls : Tolls} (same : tolls = s.tolls) : s.Toll e tolls := by
  rw [same]
  exact .rest

theorem toll_start (method : String) (kind : CallKind) (timeout : Span) :
    s.Toll (.called method kind timeout) (s.start method kind timeout).1.tolls := by
  simp only [start]
  split
  case h_1 cause closed =>
    have turned : s.Tells (.called method kind timeout) (s.ledger.newcomer method kind timeout)
        (.error cause) := .turnAway closed
    exact turned.toll (t := { s with nextId := s.nextId + 1 }) rfl
  case h_2 => exact .of_same (tolls_measure calls_callRegistered)

theorem toll_wake (id : UInt64) : s.Toll (.woken id) (s.wake id).tolls := by
  unfold wake
  split
  · exact .rest
  next c found =>
    split
    next delivery sent mail =>
      have taken : s.Tells (.woken id) c (conclude c.kind c.method delivery) :=
        .take found sent mail
      exact taken.toll (tolls_abandon id)
    · exact .rest

theorem toll_refuse (id : UInt64) : s.Toll (.refused id) (s.step (.refused id)).tolls := by
  simp only [step]
  split
  case isTrue guard =>
    obtain ⟨stopped, hsending⟩ := Bool.and_eq_true_iff.mp guard
    obtain ⟨c, found, sending⟩ := (Option.any_eq_true _ _).mp hsending
    have refused : s.Tells (.refused id) c (.error s.cause) := .refuse found sending stopped
    have hrefuse : s.refuse id = (s.abandon id).finish c (.error s.cause) := by
      rw [refuse, show s.callers.find? (·.id = id) = some c from found]
    rw [hrefuse]
    exact refused.toll (tolls_abandon id)
  case isFalse => exact .rest

theorem toll_expire (id : UInt64) : s.Toll (.expired id) (s.step (.expired id)).tolls := by
  simp only [step]
  split
  case isTrue guard =>
    obtain ⟨c, found, waits⟩ := (Option.any_eq_true _ _).mp guard
    have expired : s.Tells (.expired id) c (.error (.timeout c.method c.timeout)) :=
      .expire found waits
    have hexpire : s.expire id = ((s.warn .callTimedOut).abandon id).finish c
        (.error (.timeout c.method c.timeout)) := by
      rw [expire, show s.callers.find? (·.id = id) = some c from found]
    have left : ((s.warn .callTimedOut).abandon id).tolls = s.tolls := tolls_abandon id
    rw [hexpire]
    exact expired.toll left
  case isFalse => exact .rest

/-- Every event answers in one of the listed ways, or nobody. -/
theorem toll_step (s : Session) (e : SessionEvent) : s.Toll e (s.step e).tolls := by
  cases e with
  | called method kind timeout => exact toll_start method kind timeout
  | accepted id =>
    simp only [step]
    split <;> exact .rest
  | refused id => exact toll_refuse id
  | woken id => exact toll_wake id
  | expired id => exact toll_expire id
  | cancelled id => exact .of_same (tolls_cancel id)
  | textArrived text => exact .of_same (tolls_dispatch text)
  | bytesArrived =>
    simp only [step]
    split <;> exact .rest
  | connectionLost reason => exact .of_same (tolls_lose reason)
  | closeRequested => exact .of_same (tolls_raise .close)
  | readerObeyed => exact .of_same tolls_obey
  | writeFailed reason => exact .of_same (tolls_failWriting reason)
  | writerObeyed => exact .of_same tolls_stopWriting
  | channelRead id => exact .of_same (tolls_receive id)
  | channelReleased id => exact .rest

/-- Either nobody is answered, or one caller is, in one of the listed ways. -/
theorem ended_step (s : Session) (e : SessionEvent) :
    (s.step e).ended = s.ended ∨
      ∃ c answer, s.Tells e c answer ∧ (s.step e).ended = s.ended ++ [(c.id, answer)] := by
  have toll := s.toll_step e
  generalize htolls : (s.step e).tolls = tolls at toll
  cases toll with
  | rest => exact Or.inl (congrArg Prod.fst htolls)
  | answer given => exact Or.inr ⟨_, _, given, congrArg Prod.fst htolls⟩

/-- Every answer of a run was given by one of its events, unless it was there before. -/
theorem exists_tells_of_mem_ended {events : List SessionEvent} {id : UInt64}
    {answer : Except TransportError Reply} (ended : (id, answer) ∈ (s.run events).ended)
    (new : (id, answer) ∉ s.ended) :
    ∃ before x after c, events = before ++ x :: after ∧ (s.run before).Tells x c answer ∧
      c.id = id := by
  induction events generalizing s with
  | nil => exact absurd ended new
  | cons e events ih =>
    by_cases now : (id, answer) ∈ (s.step e).ended
    · -- the first event gave the answer
      rcases s.ended_step e with same | ⟨c, given, tells, hended⟩
      · rw [same] at now
        exact absurd now new
      · rw [hended] at now
        rcases List.mem_append.mp now with earlier | now
        · exact absurd earlier new
        · cases List.mem_singleton.mp now
          exact ⟨[], e, events, c, rfl, tells, rfl⟩
    · obtain ⟨before, x, after, c, rfl, tells, hid⟩ := ih ended now
      exact ⟨e :: before, x, after, c, rfl, tells, hid⟩

/-! ## What the answers are -/

theorem suits_of_conclude {kind : CallKind} {method : String} {delivery : Delivery} {reply : Reply}
    (h : conclude kind method delivery = .ok reply) : kind.Suits reply := by
  cases delivery with
  | error e => cases h
  | ok text =>
    cases kind with
    | raw => exact ⟨text, (Except.ok.inj h).symm⟩
    | structured =>
      simp only [conclude] at h
      split at h
      · exact ⟨_, (Except.ok.inj h).symm⟩
      · cases h
    | subscription =>
      simp only [conclude] at h
      split at h
      · exact ⟨_, (Except.ok.inj h).symm⟩
      · cases h

namespace Tells

variable {c : Caller} {answer : Except TransportError Reply}

/-- A reply is of the kind that was asked for. -/
theorem suits (given : s.Tells e c answer) {reply : Reply} (h : answer = .ok reply) :
    c.kind.Suits reply := by
  cases given with
  | turnAway => cases h
  | take => exact suits_of_conclude h
  | refuse => cases h
  | expire => cases h

/-- Who is answered waited before, or makes a call with the event. -/
theorem mem (given : s.Tells e c answer) : c ∈ s.callers ∨ c ∈ s.ledger.arriving e := by
  cases given with
  | turnAway => exact Or.inr List.mem_cons_self
  | take found => exact Or.inl (mem_callers_of_find? found).1
  | refuse found => exact Or.inl (mem_callers_of_find? found).1
  | expire found => exact Or.inl (mem_callers_of_find? found).1

end Tells

end Session

end IstanbulMonitor
