import IstanbulMonitor.Session.Event

/-!
# The ledger of a session

The ledger is the part of a session that ties calls to answers: the next id, the table of pending
calls, the callers with their mailboxes, the answers given, the cause of the end and the keys of
the subscriptions. `Ledger.Change` lists everything an event can do to it, and
`Session.change_step` says that nothing else happens, so an invariant of the ledger is proved by
one case for each kind of change.
-/

set_option autoImplicit false

namespace IstanbulMonitor

namespace SessionEvent

/-- Whether an event makes a call. -/
def isCall : SessionEvent → Bool
  | .called _ _ _ => true
  | _ => false

/-- The response that an event brings in: the id it carries and the outcome it reports. -/
def response? : SessionEvent → Option (UInt64 × Outcome)
  | .textArrived text =>
    match Frame.decode text with
    | .ok (.response id outcome) => some (id, outcome)
    | _ => none
  | _ => none

theorem isCall_of_response? {e : SessionEvent} {r : UInt64 × Outcome}
    (h : e.response? = some r) : e.isCall = false := by
  cases e <;> first | rfl | simp [response?] at h

end SessionEvent

/-- The part of a session that ties calls to answers. -/
structure Ledger where
  nextId : UInt64
  calls : List PendingCall
  callers : List Caller
  ended : List (UInt64 × Except TransportError Reply)
  termination : Option TransportError
  subscriptions : List (String × UInt64)

/-- The ledger of a session. -/
def Session.ledger (s : Session) : Ledger :=
  ⟨s.nextId, s.calls, s.callers, s.ended, s.termination, s.subscriptions⟩

namespace Ledger

/-- Whether the call with an id waits for its response. -/
def IsPending (l : Ledger) (id : UInt64) : Prop := ∃ call ∈ l.calls, call.id = id

/-- The ledger without a pending entry. -/
def strike (l : Ledger) (id : UInt64) : Ledger :=
  { l with calls := l.calls.filter (·.id ≠ id) }

/-- The ledger without a caller. -/
def dismiss (l : Ledger) (id : UInt64) : Ledger :=
  { l with callers := l.callers.filter (·.id ≠ id) }

/-- The ledger with one more answer given. -/
def answer (l : Ledger) (id : UInt64) (answer : Except TransportError Reply) : Ledger :=
  { l with ended := l.ended ++ [(id, answer)] }

/-- The ledger with a delivery left in the mailboxes of some callers. -/
def post (l : Ledger) (ids : List UInt64) (delivery : Delivery) : Ledger :=
  { l with
    callers := l.callers.map fun c =>
      if c.id ∈ ids then { c with mail := some delivery } else c }

/-- The ledger in which the frame of a call is on its way. -/
def accept (l : Ledger) (id : UInt64) : Ledger :=
  { l with callers := l.callers.map fun c => if c.id = id then { c with sending := false } else c }

/-- The ledger with other subscriptions. -/
def keep (l : Ledger) (subscriptions : List (String × UInt64)) : Ledger := { l with subscriptions }

/-- The ledger with one more id handed out. -/
def advance (l : Ledger) : Ledger := { l with nextId := l.nextId + 1 }

/-- The caller that makes the next call. -/
def newcomer (l : Ledger) (method : String) (kind : CallKind) (timeout : Span) : Caller :=
  { id := l.nextId, method, kind, timeout }

/-- The ledger with the next call registered. -/
def register (l : Ledger) (method : String) (kind : CallKind) (timeout : Span) : Ledger :=
  { l.advance with
    calls := l.calls ++ [⟨l.nextId, method, kind == .subscription⟩]
    callers := l.callers ++ [l.newcomer method kind timeout] }

/-- The ledger after the end of the connection. -/
def terminate (l : Ledger) (cause : TransportError) : Ledger :=
  { l.post (l.calls.map (·.id)) (.error cause) with
    calls := [], termination := some cause, subscriptions := [] }

/-- Errors that a caller is told although no response came in. -/
inductive IsLocal (l : Ledger) : TransportError → Prop
  | cause : IsLocal l (l.termination.getD .closed)
  | timeout (method : String) (after : Span) : IsLocal l (.timeout method after)

/-- Everything that an event can do to a ledger. -/
inductive Change (l : Ledger) : SessionEvent → Ledger → Prop
  | rest {e : SessionEvent} {subscriptions : List (String × UInt64)}
      (noCall : e.isCall = false)
      (idle : ∀ id outcome, e.response? = some (id, outcome) →
        l.termination.isSome ∨ ¬ l.IsPending id)
      (fewer : ∀ p ∈ subscriptions, p ∈ l.subscriptions) :
      Change l e (l.keep subscriptions)
  | turnAway {method : String} {kind : CallKind} {timeout : Span} {cause : TransportError}
      (closed : l.termination = some cause) :
      Change l (.called method kind timeout)
        ((l.advance.dismiss l.nextId).answer l.nextId (.error cause))
  | register {method : String} {kind : CallKind} {timeout : Span} (isOpen : l.termination = none) :
      Change l (.called method kind timeout) (l.register method kind timeout)
  | accept {id : UInt64} : Change l (.accepted id) (l.accept id)
  | resolve {e : SessionEvent} {id : UInt64} {outcome : Outcome}
      {subscriptions : List (String × UInt64)}
      (response : e.response? = some (id, outcome)) (pending : l.IsPending id)
      (known : ∀ p ∈ subscriptions, p ∈ l.subscriptions ∨ p.2 = id) :
      Change l e (((l.strike id).keep subscriptions).post [id] (outcome.mapError .remote))
  | conclude {e : SessionEvent} {c : Caller} {delivery : Delivery}
      (noCall : e.isCall = false) (noResponse : e.response? = none) (mem : c ∈ l.callers)
      (mail : c.mail = some delivery) :
      Change l e (((l.strike c.id).dismiss c.id).answer c.id
        (Session.conclude c.kind c.method delivery))
  | fail {e : SessionEvent} {c : Caller} {error : TransportError}
      (noCall : e.isCall = false) (noResponse : e.response? = none) (mem : c ∈ l.callers)
      (isLocal : l.IsLocal error) :
      Change l e (((l.strike c.id).dismiss c.id).answer c.id (.error error))
  | cancel {id : UInt64} : Change l (.cancelled id) ((l.strike id).dismiss id)
  | terminate {e : SessionEvent} {cause : TransportError}
      (noCall : e.isCall = false) (noResponse : e.response? = none)
      (isOpen : l.termination = none) (terminal : cause.isTerminal = true) :
      Change l e (l.terminate cause)

/-- A change that leaves the ledger alone. -/
theorem Change.refl {l : Ledger} {e : SessionEvent} (noCall : e.isCall = false)
    (noResponse : e.response? = none) : Change l e l :=
  .rest noCall (fun id outcome h => by simp [noResponse] at h) fun _ h => h

end Ledger

/-! ## What the operations of a session do to its ledger -/

namespace Session

variable (s : Session)

theorem ledger_measure (change : Metrics → Metrics) : (s.measure change).ledger = s.ledger := rfl

theorem ledger_warn (w : Warning) : (s.warn w).ledger = s.ledger := rfl

theorem ledger_raise (signal : Signal) : (s.raise signal).ledger = s.ledger := by
  unfold raise
  split <;> rfl

theorem ledger_abandon (id : UInt64) : (s.abandon id).ledger = s.ledger.strike id := by
  unfold abandon
  split
  case isTrue => rfl
  case isFalse h =>
    -- no entry has the id, so there is nothing to take out
    have hcalls : s.calls.filter (·.id ≠ id) = s.calls := by
      simp only [List.filter_eq_self, decide_eq_true_eq]
      intro call hcall heq
      exact h (List.any_eq_true.mpr ⟨call, hcall, by simpa using heq⟩)
    simp only [ledger, Ledger.strike, hcalls]

theorem ledger_finish (c : Caller) (answer : Except TransportError Reply) :
    (s.finish c answer).ledger = (s.ledger.dismiss c.id).answer c.id answer := by
  unfold finish
  cases answer <;> rfl

theorem ledger_deliver (id : UInt64) (delivery : Delivery) :
    (s.deliver id delivery).ledger = s.ledger.post [id] delivery := by
  simp [deliver, ledger, Ledger.post]

theorem ledger_subscribe (key : String) (id : UInt64) :
    ∃ subscriptions, (s.subscribe key id).ledger = s.ledger.keep subscriptions ∧
      ∀ p ∈ subscriptions, p ∈ s.subscriptions ∨ p.2 = id := by
  refine ⟨s.subscriptions.filter (·.1 ≠ key) ++ [(key, id)], ?_, ?_⟩
  · unfold subscribe
    cases s.subscriptions.find? (·.1 = key) <;> rfl
  · intro p hp
    rcases List.mem_append.mp hp with hp | hp
    · exact Or.inl (List.mem_filter.mp hp).1
    · rw [List.mem_singleton.mp hp]
      exact Or.inr rfl

/-- Several deliveries of one text are one delivery to several callers. -/
theorem ledger_foldl_deliver (calls : List PendingCall) (delivery : Delivery) :
    (calls.foldl (fun s call => (s.measure Metrics.callEnded).deliver call.id delivery) s).ledger =
      s.ledger.post (calls.map (·.id)) delivery := by
  induction calls generalizing s with
  | nil => simp [Ledger.post]
  | cons call calls ih =>
    -- a caller is reached by the first delivery or by one of the rest, with the same text
    rw [List.foldl_cons, ih, ledger_deliver, ledger_measure]
    simp only [Ledger.post, List.map_map, List.map_cons, List.mem_cons]
    congr 1
    apply List.map_congr_left
    intro c _
    by_cases hc : c.id = call.id <;> by_cases hr : c.id ∈ calls.map (·.id) <;>
      simp_all

theorem ledger_terminate (cause : TransportError) (isOpen : s.termination = none) :
    (s.terminate cause).ledger = s.ledger.terminate cause := by
  unfold terminate
  rw [ledger_raise, isOpen, Option.getD_none]
  have key := ledger_foldl_deliver { s with calls := [], termination := some cause } s.calls
    (.error cause)
  exact congrArg (fun l : Ledger => l.keep []) key

/-! ## The change that each event makes -/

variable {s}

theorem mem_callers_of_find? {id : UInt64} {c : Caller}
    (h : s.callers.find? (·.id = id) = some c) : c ∈ s.ledger.callers ∧ c.id = id :=
  ⟨List.mem_of_find?_eq_some h, by simpa using List.find?_some h⟩

theorem isPending_of_find? {id : UInt64} {call : PendingCall}
    (h : s.calls.find? (·.id = id) = some call) : s.ledger.IsPending id :=
  ⟨call, List.mem_of_find?_eq_some h, by simpa using List.find?_some h⟩

theorem not_isPending_of_find? {id : UInt64} (h : s.calls.find? (·.id = id) = none) :
    ¬ s.ledger.IsPending id := by
  rintro ⟨call, hcall, rfl⟩
  exact absurd (List.find?_eq_none.mp h call hcall) (by simp)

theorem change_start (method : String) (kind : CallKind) (timeout : Span) :
    s.ledger.Change (.called method kind timeout) (s.start method kind timeout).1.ledger := by
  simp only [start]
  split
  case h_1 cause hterm =>
    simp only [ledger_finish]
    exact Ledger.Change.turnAway (l := s.ledger) hterm
  case h_2 hterm =>
    simp only [ledger_measure]
    exact Ledger.Change.register (l := s.ledger) hterm

theorem change_wake (id : UInt64) : s.ledger.Change (.woken id) (s.wake id).ledger := by
  unfold wake
  cases hc : s.callers.find? (·.id = id) with
  | none => exact .refl rfl rfl
  | some c =>
    obtain ⟨mem, rfl⟩ := mem_callers_of_find? hc
    simp only
    split
    case h_1 delivery _ hmail =>
      rw [ledger_finish, ledger_abandon]
      exact .conclude rfl rfl mem hmail
    case h_2 => exact .refl rfl rfl

theorem change_refuse (id : UInt64) : s.ledger.Change (.refused id) (s.refuse id).ledger := by
  unfold refuse
  cases hc : s.callers.find? (·.id = id) with
  | none => exact .refl rfl rfl
  | some c =>
    obtain ⟨mem, rfl⟩ := mem_callers_of_find? hc
    simp only [ledger_finish, ledger_abandon]
    exact .fail rfl rfl mem .cause

theorem change_expire (id : UInt64) : s.ledger.Change (.expired id) (s.expire id).ledger := by
  unfold expire
  cases hc : s.callers.find? (·.id = id) with
  | none => exact .refl rfl rfl
  | some c =>
    obtain ⟨mem, rfl⟩ := mem_callers_of_find? hc
    simp only [ledger_finish, ledger_abandon, ledger_warn]
    exact .fail rfl rfl mem (.timeout c.method c.timeout)

theorem change_cancel (id : UInt64) : s.ledger.Change (.cancelled id) (s.cancel id).ledger := by
  unfold cancel
  split
  case isTrue =>
    have hl : (({ s.abandon id with
        callers := (s.abandon id).callers.filter (·.id ≠ id) }).mapChannel id
          Channel.dropReceiver).ledger = (s.abandon id).ledger.dismiss id := rfl
    rw [hl, ledger_abandon]
    exact .cancel
  case isFalse => exact .refl rfl rfl

/-- A response for a pending call takes its entry out of the table and fills its caller's
mailbox; any other response is dropped. -/
theorem change_resolve {e : SessionEvent} {id : UInt64} {outcome : Outcome}
    (response : e.response? = some (id, outcome)) :
    s.ledger.Change e (s.resolve id outcome).ledger := by
  unfold resolve
  cases hcall : s.calls.find? (·.id = id) with
  | none =>
    refine .rest (e.isCall_of_response? response) (fun id' outcome' h => ?_) fun _ h => h
    obtain ⟨rfl, -⟩ := Prod.mk.inj (Option.some.inj (response.symm.trans h))
    exact Or.inr (not_isPending_of_find? hcall)
  | some call =>
    simp only [ledger_deliver]
    have pending := isPending_of_find? hcall
    -- only a call that creates a subscription touches the subscriptions
    have same : s.ledger.Change e
        ((s.ledger.strike id).post [id] (outcome.mapError .remote)) :=
      .resolve response pending fun p hp => Or.inl hp
    cases call.creates with
    | false => exact same
    | true =>
      cases outcome.toOption.bind subscriptionKey? with
      | none => exact same
      | some key =>
        obtain ⟨subs, hsubs, known⟩ := ledger_subscribe
          ({ s with calls := s.calls.filter (·.id ≠ id) }.measure Metrics.callEnded) key id
        simp only [if_true, hsubs, ledger_measure]
        exact .resolve response pending known

/-- A notification can only remove subscriptions. -/
theorem ledger_forward (key : String) (payload : Json) :
    ∃ subscriptions, (s.forward key payload).ledger = s.ledger.keep subscriptions ∧
      ∀ p ∈ subscriptions, p ∈ s.subscriptions := by
  unfold forward
  cases s.subscriptions.find? (·.1 = key) with
  | none => exact ⟨s.subscriptions, rfl, fun _ h => h⟩
  | some sub =>
    simp only
    cases (s.channel? sub.2).any (·.receiverOpen) with
    | true => exact ⟨s.subscriptions, rfl, fun _ h => h⟩
    | false => exact ⟨_, rfl, fun p hp => (List.mem_filter.mp hp).1⟩

theorem change_dispatch (text : String) :
    s.ledger.Change (.textArrived text) (s.dispatch text).ledger := by
  unfold dispatch
  cases hterm : s.termination with
  | some cause =>
    -- a closed session may drop a response, since none of its calls is pending
    rw [if_pos (by simp [isClosed, hterm])]
    exact .rest rfl (fun _ _ _ => Or.inl (by simp [ledger, hterm])) fun _ h => h
  | none =>
    rw [if_neg (by simp [isClosed, hterm])]
    cases hframe : Frame.decode text with
    | error fault =>
      simp only [ledger_warn]
      exact .refl rfl (by simp [SessionEvent.response?, hframe])
    | ok frame =>
      cases frame with
      | response id outcome =>
        exact change_resolve (by simp [SessionEvent.response?, hframe])
      | notification key payload =>
        obtain ⟨subs, hsubs, fewer⟩ := ledger_forward (s := s) key payload
        simp only [hsubs]
        exact .rest rfl (by simp [SessionEvent.response?, hframe]) fewer
      | request id method params => exact .refl rfl (by simp [SessionEvent.response?, hframe])

theorem change_lose {e : SessionEvent} (noCall : e.isCall = false)
    (noResponse : e.response? = none) (reason : String) :
    s.ledger.Change e (s.lose reason).ledger := by
  unfold lose
  cases hterm : s.termination with
  | some cause =>
    rw [if_pos (by simp [isClosed, hterm])]
    exact .refl noCall noResponse
  | none =>
    rw [if_neg (by simp [isClosed, hterm]), ledger_terminate (s.warn .receiveEnded) _ hterm,
      ledger_warn]
    exact .terminate noCall noResponse hterm rfl

theorem change_obey : s.ledger.Change .readerObeyed s.obey.ledger := by
  unfold obey
  cases hterm : s.termination with
  | some cause =>
    rw [if_pos (by simp [isClosed, hterm])]
    exact .refl rfl rfl
  | none =>
    rw [if_neg (by simp [isClosed, hterm])]
    cases s.signal with
    | running => exact .refl rfl rfl
    | close =>
      simp only [ledger_terminate _ _ hterm]
      exact .terminate rfl rfl hterm rfl
    | writeFailed reason => exact change_lose rfl rfl reason

theorem ledger_failWriting (reason : String) : (s.failWriting reason).ledger = s.ledger := by
  unfold failWriting
  split
  · rfl
  · exact (ledger_raise _ _).trans (ledger_warn _ _)

theorem ledger_stopWriting : s.stopWriting.ledger = s.ledger := by
  unfold stopWriting
  split <;> rfl

theorem ledger_receive (id : UInt64) : (s.receive id).2.ledger = s.ledger := by
  unfold receive
  cases s.channel? id with
  | none => rfl
  | some c =>
    simp only
    split <;> rfl

/-- Every event changes the ledger in one of the listed ways. -/
theorem change_step (s : Session) (e : SessionEvent) : s.ledger.Change e (s.step e).ledger := by
  cases e with
  | called method kind timeout => exact change_start method kind timeout
  -- a guard of an event only decides whether its change happens at all
  | accepted id =>
    simp only [step]
    split
    · exact .refl rfl rfl
    · exact .accept
  | refused id =>
    simp only [step]
    split
    · exact change_refuse id
    · exact .refl rfl rfl
  | woken id => exact change_wake id
  | expired id =>
    simp only [step]
    split
    · exact change_expire id
    · exact .refl rfl rfl
  | cancelled id => exact change_cancel id
  | textArrived text => exact change_dispatch text
  | bytesArrived =>
    simp only [step]
    split
    · exact .refl rfl rfl
    · rw [ledger_warn]
      exact .refl rfl rfl
  | connectionLost reason => exact change_lose rfl rfl reason
  | closeRequested =>
    simp only [step, ledger_raise]
    exact .refl rfl rfl
  | readerObeyed => exact change_obey
  | writeFailed reason =>
    simp only [step, ledger_failWriting]
    exact .refl rfl rfl
  | writerObeyed =>
    simp only [step, ledger_stopWriting]
    exact .refl rfl rfl
  | channelRead id =>
    simp only [step, ledger_receive]
    exact .refl rfl rfl
  | channelReleased id => exact .refl rfl rfl

end Session

end IstanbulMonitor
