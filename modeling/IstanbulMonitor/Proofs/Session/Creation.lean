import IstanbulMonitor.Proofs.Session.Answers
import IstanbulMonitor.Proofs.Session.Custody

/-!
# Creating a subscription

The id of a new subscription is read twice, once where the response arrives and once where the
caller wakes, and the channel is there before either. The receiver of a channel that a response
registers stays registered until somebody else takes the key (`Session.Attends.sink`), so from the
response on the channel is fed with the notifications of its key and with no others
(`Session.Attends.dispatched_eq`), whenever the caller wakes. Before the response, and for a call
whose caller went away before it, nothing is dispatched at all. `Session.losesNoEvent_run` puts this
together for every response in every run.

The caller is told what the response says, but not always: while its frame waits for room it does
not look at its mailbox (`Session.Overlooks`). A response that arrives before that registers a
channel whose caller may still run out of time (`Session.losesNoEvent_overlooked`).
-/

set_option autoImplicit false

namespace IstanbulMonitor

namespace Session

variable {s t : Session} {n : Nat} {e : SessionEvent} {id : UInt64} {key : String}

/-! ## The response to a creating call -/

theorem firstResponse?_append (s : Session) (before after : List SessionEvent) (id : UInt64) :
    s.firstResponse? (before ++ after) id =
      (s.firstResponse? before id).or ((s.run before).firstResponse? after id) := by
  simp only [firstResponse?, trace_append, List.findSome?_append]

theorem step_of_response? {outcome : Outcome} (isOpen : s.isClosed = false)
    (response : e.response? = some (id, outcome)) : s.step e = s.resolve id outcome := by
  cases e <;> simp only [SessionEvent.response?, reduceCtorEq] at response
  case textArrived text =>
    simp only [Session.step, dispatch, isOpen, Bool.false_eq_true, if_false]
    cases hframe : Frame.decode text with
    | error fault => simp [hframe] at response
    | ok frame =>
      cases frame <;> simp only [hframe, reduceCtorEq, Option.some.injEq, Prod.mk.injEq] at response
      obtain ⟨rfl, rfl⟩ := response
      rfl

/-- What a creating call ends with when its response reports an outcome. -/
def Answers (method : String) (outcome : Outcome) (answer : Except TransportError Reply) : Prop :=
  match outcome with
  | .error error => answer = .error (.remote error)
  | .ok text =>
    match subscriptionKey? text with
    | some key => answer = .ok (.subscribed key)
    | none => ∃ reason, answer = .error (.decode method reason)

theorem answers_conclude (method : String) (outcome : Outcome) :
    Answers method outcome (conclude .subscription method (outcome.mapError .remote)) := by
  cases outcome with
  | error error => rfl
  | ok text =>
    simp only [Answers, conclude, Except.mapError]
    cases subscriptionKey? text with
    | some key => rfl
    | none => exact ⟨_, rfl⟩

/-- The key that is read where the response arrives is the one that the caller is told. -/
theorem granted?_eq_some_iff_answers {outcome : Outcome} (method : String) :
    granted? outcome = some key ↔ Answers method outcome (.ok (.subscribed key)) := by
  cases outcome with
  | error error => simp [granted?, Answers, Except.toOption]
  | ok text =>
    have hgranted : granted? (.ok text) = subscriptionKey? text := rfl
    rw [hgranted]
    cases hkey : subscriptionKey? text with
    | none => simp [Answers, hkey]
    | some other =>
      simp only [Answers, hkey, Option.some.injEq, Except.ok.injEq, Reply.subscribed.injEq]
      exact eq_comm

/-- A value names a key if it is a string that is not empty, or a number. -/
theorem subscriptionKey?_eq_some_iff {value : Json} : Frame.subscriptionKey? value = some key ↔
    value = .string key ∧ key ≠ "" ∨ ∃ n, value = .number n ∧ key = n.render := by
  cases value with
  | string text =>
    have hname : Frame.subscriptionKey? (.string text) =
        if text.isEmpty then none else some text := rfl
    rw [hname]
    constructor
    · intro h
      split at h
      · cases h
      · next hempty =>
        obtain rfl := Option.some.inj h
        exact .inl ⟨rfl, by simpa using hempty⟩
    · rintro (⟨hvalue, hempty⟩ | ⟨n, hvalue, -⟩)
      · cases hvalue
        exact if_neg (by simpa using hempty)
      · cases hvalue
  | number n =>
    constructor
    · intro h
      exact .inr ⟨n, rfl, (Option.some.inj h).symm⟩
    · rintro (⟨hvalue, -⟩ | ⟨m, hvalue, rfl⟩)
      · cases hvalue
      · cases hvalue
        rfl
  | null => simp [Frame.subscriptionKey?]
  | bool b => simp [Frame.subscriptionKey?]
  | array elements => simp [Frame.subscriptionKey?]
  | object members => simp [Frame.subscriptionKey?]

theorem granted?_eq_some_iff {outcome : Outcome} : granted? outcome = some key ↔
    ∃ text value, outcome = .ok text ∧ Json.parse? text = some value ∧
      (value = .string key ∧ key ≠ "" ∨ ∃ n, value = .number n ∧ key = n.render) := by
  cases outcome with
  | error error => simp [granted?, Except.toOption]
  | ok text =>
    simp [granted?, Except.toOption, subscriptionKey?, Option.bind_eq_some_iff,
      subscriptionKey?_eq_some_iff]

/-- The payload of an event that notifies of a key. -/
def note? (key : String) (e : SessionEvent) : Option Json :=
  e.notification?.bind fun n => if n.1 = key then some n.2 else none

/-- The payloads of all notifications of a key, in order. -/
def notes (events : List SessionEvent) (key : String) : List Json := events.filterMap (note? key)

theorem notification?_of_response? {r : UInt64 × Outcome} (h : e.response? = some r) :
    e.notification? = none := by
  cases e <;> simp only [SessionEvent.response?, reduceCtorEq] at h
  case textArrived text =>
    unfold SessionEvent.notification?
    split at h <;> simp_all

/-- The response to a pending call is the first response to it. -/
theorem firstResponse?_of_pending {buffer : Nat} {before : List SessionEvent} {outcome : Outcome}
    (few : before.countP SessionEvent.isCall < 2 ^ 64)
    (response : e.response? = some (id, outcome))
    (pending : ((fresh buffer).run before).ledger.IsPending id) (after : List SessionEvent) :
    (fresh buffer).firstResponse? (before ++ e :: after) id = some outcome := by
  obtain ⟨sound, faithful⟩ := Ledger.sound_faithful_run buffer before few
  have reported := Ledger.reported?_eq_some_iff.mpr ⟨response, pending⟩
  rw [firstResponse?_append, faithful.first_eq_none sound pending, Option.none_or, firstResponse?,
    trace, List.findSome?_cons, reported]

/-- Nothing is dispatched to a call up to its response. -/
theorem dispatched_response {buffer : Nat} {before : List SessionEvent} {outcome : Outcome}
    (few : before.countP SessionEvent.isCall < 2 ^ 64)
    (response : e.response? = some (id, outcome))
    (pending : ((fresh buffer).run before).ledger.IsPending id) :
    (fresh buffer).dispatched (before ++ [e]) id = [] := by
  obtain ⟨sound, faithful⟩ := Ledger.sound_faithful_run buffer before few
  rw [dispatched_concat, dispatched_eq_nil few (faithful.first_eq_none sound pending),
    incoming?_eq_none (notification?_of_response? response)]
  rfl

/-! ### From the response on -/

/-- A run in which an event registers the channel of a call under a key, and in which later no other
call takes the key, the session does not end, and the consumer does not go away. -/
structure Attends (s : Session) (before : List SessionEvent) (e : SessionEvent)
    (after : List SessionEvent) (key : String) (id : UInt64) : Prop where
  registers : (s.run before).registers? e = some (key, id)
  isOpen : (s.run (before ++ e :: after)).isClosed = false
  unreplaced : ∀ p ∈ (s.run (before ++ [e])).trace after, ∀ other,
    p.1.registers? p.2 ≠ some (key, other)
  unreleased : ∀ x ∈ before ++ e :: after, x ≠ .channelReleased id
  attended : ¬ (s.run (before ++ e :: after)).ledger.Forsaken id

section Attended

variable {buffer : Nat} {before after : List SessionEvent} {x : SessionEvent}

theorem cons_concat (before after : List SessionEvent) (e x : SessionEvent) :
    before ++ e :: (after ++ [x]) = (before ++ e :: after) ++ [x] := by simp

theorem countP_isCall_response (few : (before ++ e :: after).countP SessionEvent.isCall < 2 ^ 64) :
    before.countP SessionEvent.isCall < 2 ^ 64 := by
  rw [List.countP_append] at few
  omega

/-- The call that a response registers was pending until then, and it was its first response. -/
theorem of_registers? (few : (before ++ e :: after).countP SessionEvent.isCall < 2 ^ 64)
    (registers : ((fresh buffer).run before).registers? e = some (key, id)) :
    Given ((before ++ e :: after).countP SessionEvent.isCall) id ∧
      (((fresh buffer).run (before ++ e :: after)).channel? id).isSome ∧
      ∃ outcome, (fresh buffer).firstResponse? (before ++ e :: after) id = some outcome ∧
        granted? outcome = some key := by
  have few' := countP_isCall_response few
  obtain ⟨-, outcome, call, response, found, creates, granted⟩ :=
    registers?_eq_some_iff.mp registers
  obtain ⟨sound, -⟩ := Ledger.sound_faithful_run buffer before few'
  have pending := isPending_of_find? found
  obtain ⟨mem, rfl⟩ : call ∈ ((fresh buffer).run before).calls ∧ call.id = id :=
    ⟨List.mem_of_find?_eq_some found, by simpa using List.find?_some found⟩
  refine ⟨(sound.given_pending pending).mono ?_, ?_, outcome,
    firstResponse?_of_pending few' response pending after, granted⟩
  · rw [List.countP_append]
    exact Nat.le_add_right _ _
  · rw [run_append]
    exact isSome_channel?_run (channelled_run call mem creates) _

namespace Attends

/-- What attends to a key now did so before. -/
theorem init (few : (before ++ e :: (after ++ [x])).countP SessionEvent.isCall < 2 ^ 64)
    (h : (fresh buffer).Attends before e (after ++ [x]) key id) :
    (fresh buffer).Attends before e after key id := by
  rw [cons_concat, SessionEvent.countP_isCall_concat] at few
  have few' : (before ++ e :: after).countP SessionEvent.isCall < 2 ^ 64 := by omega
  obtain ⟨sound, -⟩ := Ledger.sound_faithful_run buffer (before ++ e :: after) few'
  obtain ⟨given, -⟩ := of_registers? few' h.registers
  have isOpen := h.isOpen
  have unreleased := h.unreleased
  have attended := h.attended
  rw [cons_concat, run_concat] at isOpen attended
  rw [cons_concat] at unreleased
  exact
    { registers := h.registers
      isOpen := by
        by_contra closed
        rw [isClosed_step (by simpa using closed)] at isOpen
        cases isOpen
      unreplaced := fun p hp => h.unreplaced p (by
        rw [trace_append]
        exact List.mem_append_left _ hp)
      unreleased := fun y hy => unreleased y (List.mem_append_left _ hy)
      attended := fun forsaken =>
        attended (forsaken.change sound given (change_step _ x) few) }

/-- The receiver of the channel is there. -/
theorem receiver (few : (before ++ e :: after).countP SessionEvent.isCall < 2 ^ 64)
    (h : (fresh buffer).Attends before e after key id) :
    (((fresh buffer).run (before ++ e :: after)).channel? id).any (·.receiverOpen) = true := by
  obtain ⟨-, there, -⟩ := of_registers? few h.registers
  obtain ⟨c, hc⟩ := Option.isSome_iff_exists.mp there
  obtain ⟨-, hreceiver⟩ := holds_run few h.unreleased c hc
  rw [hc, Option.any_some]
  exact hreceiver.resolve_right h.attended

/-- The channel stays registered under the key. -/
theorem sink (few : (before ++ e :: after).countP SessionEvent.isCall < 2 ^ 64)
    (h : (fresh buffer).Attends before e after key id) :
    ((fresh buffer).run (before ++ e :: after)).sink? key = some id := by
  -- induction from the end of the run: the last event must not take the key away
  induction after using List.reverseRecOn with
  | nil =>
    obtain ⟨isOpen, outcome, call, response, found, creates, granted⟩ :=
      registers?_eq_some_iff.mp h.registers
    rw [run_concat, step_of_response? isOpen response, sink?, subscriptions_resolve, found,
      Option.any_some, creates, granted]
    exact sink?_enroll _
  | append_singleton after x ih =>
    have few' := few
    rw [cons_concat, SessionEvent.countP_isCall_concat] at few'
    have earlier := h.init few
    have hsink := ih (by omega) earlier
    have hreceiver := earlier.receiver (by omega)
    have isOpen := h.isOpen
    have taken : ((fresh buffer).run (before ++ [e])).run after =
        (fresh buffer).run (before ++ e :: after) := by
      rw [← run_append, List.append_assoc, List.singleton_append]
    have unreplaced := h.unreplaced (((fresh buffer).run (before ++ [e])).run after, x) (by
      rw [trace_append]
      exact List.mem_append_right _ (List.mem_singleton.mpr rfl))
    rw [taken] at unreplaced
    rw [cons_concat, run_concat] at isOpen ⊢
    generalize (fresh buffer).run (before ++ e :: after) = u at *
    -- what is left to exclude is another grant of the key, a receiver that is gone, and the end
    have change := u.tableChange_step x
    unfold sink? at hsink ⊢
    generalize (u.step x).subscriptions = table at change ⊢
    cases change with
    | rest => exact hsink
    | @enrolled other target registers =>
      have hne : key ≠ other := by
        rintro rfl
        exact unreplaced target registers
      rwa [sink?_enroll_of_ne hne]
    | @removed other target _ found gone =>
      have hne : key ≠ other := by
        rintro rfl
        obtain rfl : target = id := Option.some.inj (found.symm.trans hsink)
        rw [hreceiver] at gone
        cases gone
      rwa [sink?_filter_of_ne hne]
    | emptied _ closed =>
      rw [isOpen] at closed
      cases closed

/-- The channel is fed with the notifications of the key and with no others. -/
theorem feeds_iff (few : (before ++ e :: after).countP SessionEvent.isCall < 2 ^ 64)
    (h : (fresh buffer).Attends before e after key id) (other : String) :
    ((fresh buffer).run (before ++ e :: after)).feeds other id = true ↔ other = key := by
  simp only [feeds, h.isOpen, h.receiver few, Bool.not_false, Bool.true_and, Bool.and_true,
    beq_iff_eq]
  constructor
  · intro hsink
    -- a call stands in the table only under the key that its first response granted
    obtain ⟨-, -, outcome, hfirst, granted⟩ := of_registers? few h.registers
    obtain ⟨outcome', hfirst', granted'⟩ := vouched_run few _ (mem_subscriptions_of_sink? hsink)
    obtain rfl : outcome = outcome' := Option.some.inj (hfirst.symm.trans hfirst')
    exact Option.some.inj (granted'.symm.trans granted)
  · rintro rfl
    exact h.sink few

/-- All notifications of the key are dispatched to the channel, and nothing else is. -/
theorem dispatched_eq (few : (before ++ e :: after).countP SessionEvent.isCall < 2 ^ 64)
    (h : (fresh buffer).Attends before e after key id) :
    (fresh buffer).dispatched (before ++ e :: after) id = notes after key := by
  induction after using List.reverseRecOn with
  | nil =>
    obtain ⟨-, outcome, call, response, found, -, -⟩ := registers?_eq_some_iff.mp h.registers
    exact dispatched_response (countP_isCall_response few) response (isPending_of_find? found)
  | append_singleton after x ih =>
    have few' := few
    rw [cons_concat, SessionEvent.countP_isCall_concat] at few'
    have earlier := h.init few
    rw [cons_concat, dispatched_concat, ih (by omega) earlier, notes, notes, List.filterMap_append,
      List.filterMap_cons, List.filterMap_nil]
    simp only [incoming?, note?, earlier.feeds_iff (by omega)]
    cases x.notification?.bind fun n => if n.1 = key then some n.2 else none <;> rfl

end Attends

end Attended

/-! ## Callers of creating calls -/

theorem newcomers_append (s : Session) (before after : List SessionEvent) :
    s.newcomers (before ++ after) = s.newcomers before ++ (s.run before).newcomers after := by
  simp [newcomers, trace_append]

theorem given_newcomers {buffer : Nat} {events : List SessionEvent}
    (few : events.countP SessionEvent.isCall < 2 ^ 64) :
    ∀ c ∈ (fresh buffer).newcomers events, Given (events.countP SessionEvent.isCall) c.id := by
  induction events using List.reverseRecOn with
  | nil => exact fun c hc => absurd hc List.not_mem_nil
  | append_singleton events x ih =>
    rw [SessionEvent.countP_isCall_concat] at few ⊢
    obtain ⟨sound, -⟩ := Ledger.sound_faithful_run buffer events (by omega)
    intro c hc
    rw [newcomers_concat] at hc
    rcases List.mem_append.mp hc with hc | hc
    · exact (ih (by omega) c hc).mono (Nat.le_add_right _ _)
    · cases x <;> simp only [Ledger.arriving, List.not_mem_nil, List.mem_singleton] at hc
      subst hc
      exact sound.given_nextId few

/-- A call that was made and is not pending is sent no response any more. -/
theorem firstResponse?_of_not_isPending (sound : s.ledger.Sound n) (events : List SessionEvent)
    (few : n + events.countP SessionEvent.isCall < 2 ^ 64) (given : Given n id)
    (idle : ¬ s.ledger.IsPending id) : s.firstResponse? events id = none := by
  induction events generalizing s n with
  | nil => rfl
  | cons x events ih =>
    rw [SessionEvent.countP_isCall_cons] at few
    have few' : n + x.isCall.toNat < 2 ^ 64 := by omega
    have hchange := s.change_step x
    -- ids are not given again, so the call does not become pending either
    have silent : s.ledger.reported? x id = none := by
      cases hreported : s.ledger.reported? x id with
      | none => rfl
      | some outcome => exact absurd (Ledger.reported?_eq_some_iff.mp hreported).2 idle
    rw [firstResponse?, trace, List.findSome?_cons, silent]
    exact ih (sound.change hchange few') (by omega) (given.mono (Nat.le_add_right _ _))
      (sound.not_isPending_change hchange few' given idle)

/-- The caller of a pending call came with the method and the kind that its entry has. -/
theorem kind_of_pending {buffer : Nat} {before after : List SessionEvent} {call : PendingCall}
    (few : (before ++ after).countP SessionEvent.isCall < 2 ^ 64)
    (mem : call ∈ ((fresh buffer).run before).calls) (creates : call.creates = true) :
    ∀ c ∈ (fresh buffer).newcomers (before ++ after), c.id = call.id →
      c.kind = .subscription ∧ c.method = call.method := by
  intro c hc hid
  -- the entry was made for some caller, and callers have ids of their own
  obtain ⟨b, hb, hbid, hmethod, hkind⟩ := enrolled_run call mem
  have nodup := nodup_newcomers (Ledger.sound_fresh buffer) (before ++ after) (by omega)
  have hb' : b ∈ (fresh buffer).newcomers (before ++ after) := by
    rw [newcomers_append]
    exact List.mem_append_left _ hb
  obtain rfl : c = b := List.inj_on_of_nodup_map nodup hc hb' (hid.trans hbid.symm)
  exact ⟨by simpa [creates] using hkind, hmethod⟩

/-- A caller whose frame is on its way takes what its mailbox holds and does not give up in time. -/
theorem step_of_mail (sound : s.ledger.Sound n) {c : Caller} (mem : c ∈ s.callers)
    (sent : c.sending = false) {delivery : Delivery} (mail : c.mail = some delivery) :
    s.step (.expired c.id) = s ∧
      (s.step (.woken c.id)).ended =
        s.ended ++ [(c.id, conclude c.kind c.method delivery)] := by
  have found : s.callers.find? (·.id = c.id) = some c := by
    cases hfind : s.callers.find? (·.id = c.id) with
    | none => exact absurd (List.find?_eq_none.mp hfind c mem) (by simp)
    | some b =>
      obtain ⟨hb, hid⟩ := mem_callers_of_find? hfind
      rw [sound.caller_ext hb mem hid]
  have waits : (s.caller? c.id).any (·.waits) = false := by
    rw [caller?, found, Option.any_some, Caller.waits, sent, mail]
    rfl
  constructor
  · simp only [step, waits, Bool.false_eq_true, if_false]
  · simp only [step, wake, found, sent, mail, ended_finish, ended_abandon]

/-! ## The main theorem -/

/-- How a caller ends whose frame still waits for room: it does not look at its mailbox, and runs
out of time or finds that the writer has stopped. -/
inductive Overlooks (s : Session) (id : UInt64) :
    SessionEvent → Except TransportError Reply → Prop
  | late {c : Caller} (found : s.caller? id = some c) (sending : c.sending = true) :
      Overlooks s id (.expired id) (.error (.timeout c.method c.timeout))
  | refused {c : Caller} (found : s.caller? id = some c) (sending : c.sending = true)
      (stopped : s.writerStopped = true) : Overlooks s id (.refused id) (.error s.cause)

/-- What the response to a creating call does for its caller and for its channel. -/
structure Creates (s : Session) (before : List SessionEvent) (e : SessionEvent)
    (after : List SessionEvent) (call : PendingCall) (outcome : Outcome) : Prop where
  /-- The outcome names a key if it is a string that is not empty, or a number. -/
  named : ∀ key, granted? outcome = some key ↔
    ∃ text value, outcome = .ok text ∧ Json.parse? text = some value ∧
      (value = .string key ∧ key ≠ "" ∨ ∃ n, value = .number n ∧ key = n.render)
  /-- It names a key exactly if it stands for a handle with this key. -/
  handed : ∀ key, granted? outcome = some key ↔
    Answers call.method outcome (.ok (.subscribed key))
  /-- The channel is registered under the key that the outcome names. Without a key nothing
  changes. -/
  registered : ((s.run before).step e).subscriptions =
    match granted? outcome with
    | some key => enroll (s.run before).subscriptions key call.id
    | none => (s.run before).subscriptions
  /-- The call ends with what the outcome says, unless it ends while its frame waits for room. -/
  told : ∀ answer, (call.id, answer) ∈ (s.run (before ++ e :: after)).ended →
    Answers call.method outcome answer ∨
      ∃ between x later, after = between ++ x :: later ∧
        (s.run (before ++ e :: between)).Overlooks call.id x answer
  /-- A caller whose frame is on its way does not give up in time, and ends so when it wakes. -/
  woken : ∀ c ∈ (s.run (before ++ e :: after)).callers, c.id = call.id → c.sending = false →
    (s.run (before ++ e :: after)).step (.expired call.id) = s.run (before ++ e :: after) ∧
      ∃ answer, Answers call.method outcome answer ∧
        ((s.run (before ++ e :: after)).step (.woken call.id)).ended =
          (s.run (before ++ e :: after)).ended ++ [(call.id, answer)]
  /-- No notification up to the response is put into the channel. -/
  unheard : s.dispatched (before ++ [e]) call.id = []
  /-- Every notification of the key after the response is, whether or not the caller has woken,
  until the session ends or another response takes the key. -/
  heard : ∀ key, granted? outcome = some key →
    (s.run (before ++ e :: after)).isClosed = false →
    (∀ p ∈ (s.run (before ++ [e])).trace after, ∀ id, p.1.registers? p.2 ≠ some (key, id)) →
    (∀ x ∈ before ++ e :: after, x ≠ .channelReleased call.id) →
    (∃ c ∈ (s.run (before ++ e :: after)).callers, c.id = call.id) ∨
      (call.id, .ok (.subscribed key)) ∈ (s.run (before ++ e :: after)).ended →
    ∃ c, (s.run (before ++ e :: after)).channel? call.id = some c ∧
      c.capacity = (Channel.make s.buffer).capacity ∧ c.Carries (notes after key)

/-- What a run owes to the calls that create subscriptions. -/
structure LosesNoEvent (s : Session) (events : List SessionEvent) : Prop where
  /-- Every response to a pending call that creates a subscription. -/
  created : ∀ before e after, events = before ++ e :: after → ∀ call outcome,
    e.response? = some (call.id, outcome) →
    (s.run before).calls.find? (·.id = call.id) = some call → call.creates = true →
    s.Creates before e after call outcome
  /-- A call whose caller went away before any response registers nothing. -/
  withdrawn : ∀ before after, events = before ++ after → ∀ id,
    (∃ c ∈ s.newcomers before, c.id = id) → (∀ c ∈ (s.run before).callers, c.id ≠ id) →
    s.firstResponse? before id = none →
    (∀ p ∈ (s.run events).subscriptions, p.2 ≠ id) ∧ s.dispatched events id = []

section

variable {buffer : Nat} {before after : List SessionEvent} {call : PendingCall} {outcome : Outcome}

/-- A session with a pending call is open. -/
theorem isOpen_of_isPending (sound : s.ledger.Sound n) (pending : s.ledger.IsPending id) :
    s.isClosed = false := by
  by_contra hopen
  have closed : s.isClosed = true := by simpa using hopen
  have idle : s.ledger.calls = [] := sound.drained closed
  obtain ⟨call, mem, -⟩ := pending
  rw [idle] at mem
  exact List.not_mem_nil mem

/-- The caller of a creating call has the first response in its mailbox. -/
theorem mail_of_response (few : (before ++ e :: after).countP SessionEvent.isCall < 2 ^ 64)
    (response : e.response? = some (call.id, outcome))
    (found : ((fresh buffer).run before).calls.find? (·.id = call.id) = some call)
    (creates : call.creates = true) {c : Caller}
    (mem : c ∈ ((fresh buffer).run (before ++ e :: after)).callers) (hid : c.id = call.id) :
    c.mail = some (outcome.mapError .remote) ∧
      Answers call.method outcome (conclude c.kind c.method (outcome.mapError .remote)) := by
  obtain ⟨-, faithful⟩ := Ledger.sound_faithful_run buffer (before ++ e :: after) few
  have first : (fresh buffer).firstResponse? (before ++ e :: after) call.id = some outcome :=
    firstResponse?_of_pending (countP_isCall_response few) response (isPending_of_find? found) after
  obtain ⟨b, hb, hbid, hkind, hmethod⟩ := faithful.origin c mem
  obtain ⟨hsubscription, hcall⟩ :=
    kind_of_pending few (List.mem_of_find?_eq_some found) creates b hb (hbid.trans hid)
  refine ⟨faithful.mail_of_first c mem outcome (by rwa [hid]), ?_⟩
  rw [← hkind, ← hmethod, hsubscription, hcall]
  exact answers_conclude _ _

/-- The call has not ended when the response has arrived. -/
theorem not_mem_ended_response (few : before.countP SessionEvent.isCall < 2 ^ 64)
    (response : e.response? = some (call.id, outcome))
    (pending : ((fresh buffer).run before).ledger.IsPending call.id)
    (answer : Except TransportError Reply) :
    (call.id, answer) ∉ ((fresh buffer).run (before ++ [e])).ended := by
  obtain ⟨sound, -⟩ := Ledger.sound_faithful_run buffer before few
  have isOpen := isOpen_of_isPending sound pending
  have same : ((fresh buffer).run (before ++ [e])).ended = ((fresh buffer).run before).ended := by
    rw [run_concat, step_of_response? isOpen response]
    exact congrArg Prod.fst (tolls_resolve call.id outcome)
  intro ended
  rw [same] at ended
  obtain ⟨c, hc, hid, -⟩ := (sound.pending_iff call.id).mp pending
  exact sound.gone _ ended c hc hid

/-- A creating call ends with what its first response says, or while its frame waits for room. -/
theorem told_of_response (few : (before ++ e :: after).countP SessionEvent.isCall < 2 ^ 64)
    (response : e.response? = some (call.id, outcome))
    (found : ((fresh buffer).run before).calls.find? (·.id = call.id) = some call)
    (creates : call.creates = true) {answer : Except TransportError Reply}
    (ended : (call.id, answer) ∈ ((fresh buffer).run (before ++ e :: after)).ended) :
    Answers call.method outcome answer ∨
      ∃ between x later, after = between ++ x :: later ∧
        ((fresh buffer).run (before ++ e :: between)).Overlooks call.id x answer := by
  have pending := isPending_of_find? found
  have few' := countP_isCall_response few
  have taken : ∀ events, ((fresh buffer).run (before ++ [e])).run events =
      (fresh buffer).run (before ++ e :: events) := by
    intro events
    rw [← run_append, List.append_assoc, List.singleton_append]
  -- the answer was given by an event after the response, in one of the ways of `Tells`
  rw [← taken] at ended
  obtain ⟨between, x, later, c, rfl, tells, hid⟩ :=
    exists_tells_of_mem_ended ended (not_mem_ended_response few' response pending answer)
  rw [taken] at tells
  have few'' : (before ++ e :: between).countP SessionEvent.isCall + x.isCall.toNat < 2 ^ 64 := by
    rw [← List.cons_append, ← List.append_assoc, List.countP_append,
      SessionEvent.countP_isCall_cons] at few
    omega
  have few₀ : (before ++ e :: between).countP SessionEvent.isCall < 2 ^ 64 := by omega
  cases tells with
  | turnAway =>
    -- the id of the call was given before, and new calls get new ids
    obtain ⟨sound₀, -⟩ := Ledger.sound_faithful_run buffer before few'
    obtain ⟨sound, -⟩ := Ledger.sound_faithful_run buffer (before ++ e :: between) few₀
    have given : Given ((before ++ e :: between).countP SessionEvent.isCall) call.id :=
      (sound₀.given_pending pending).mono (by
        rw [List.countP_append]
        exact Nat.le_add_right _ _)
    exact absurd hid.symm (sound.ne_nextId few'' given)
  | take hc sent mail =>
    obtain ⟨mem, -⟩ := mem_callers_of_find? hc
    obtain ⟨hmail, answers⟩ := mail_of_response few₀ response found creates mem hid
    cases mail.symm.trans hmail
    exact .inl answers
  | refuse hc sending stopped =>
    obtain rfl := (mem_callers_of_find? hc).2.symm.trans hid
    exact .inr ⟨between, _, later, rfl, .refused hc sending stopped⟩
  | expire hc waits =>
    obtain ⟨mem, hid'⟩ := mem_callers_of_find? hc
    obtain rfl := hid'.symm.trans hid
    obtain ⟨hmail, -⟩ := mail_of_response few₀ response found creates mem hid
    -- the mailbox is full, so it is for room that the caller waits
    have sending : c.sending = true := by simpa [Caller.waits, hmail] using waits
    exact .inr ⟨between, _, later, rfl, .late hc sending⟩

/-- The caller of a creating call takes its first response when it wakes. -/
theorem woken_of_response (few : (before ++ e :: after).countP SessionEvent.isCall < 2 ^ 64)
    (response : e.response? = some (call.id, outcome))
    (found : ((fresh buffer).run before).calls.find? (·.id = call.id) = some call)
    (creates : call.creates = true) {c : Caller}
    (mem : c ∈ ((fresh buffer).run (before ++ e :: after)).callers) (hid : c.id = call.id)
    (sent : c.sending = false) :
    ((fresh buffer).run (before ++ e :: after)).step (.expired call.id) =
        (fresh buffer).run (before ++ e :: after) ∧
      ∃ answer, Answers call.method outcome answer ∧
        (((fresh buffer).run (before ++ e :: after)).step (.woken call.id)).ended =
          ((fresh buffer).run (before ++ e :: after)).ended ++ [(call.id, answer)] := by
  obtain ⟨sound, -⟩ := Ledger.sound_faithful_run buffer (before ++ e :: after) few
  obtain ⟨mail, answers⟩ := mail_of_response few response found creates mem hid
  obtain ⟨patient, taken⟩ := step_of_mail sound mem sent mail
  rw [hid] at patient taken
  exact ⟨patient, _, answers, taken⟩

theorem creates_run (few : (before ++ e :: after).countP SessionEvent.isCall < 2 ^ 64)
    (response : e.response? = some (call.id, outcome))
    (found : ((fresh buffer).run before).calls.find? (·.id = call.id) = some call)
    (creates : call.creates = true) :
    (fresh buffer).Creates before e after call outcome := by
  have few' := countP_isCall_response few
  obtain ⟨sound, -⟩ := Ledger.sound_faithful_run buffer before few'
  have pending := isPending_of_find? found
  have isOpen := isOpen_of_isPending sound pending
  refine ⟨fun key => granted?_eq_some_iff, fun key => granted?_eq_some_iff_answers call.method, ?_,
    fun answer => told_of_response few response found creates,
    fun c => woken_of_response few response found creates,
    dispatched_response few' response pending, ?_⟩
  · rw [step_of_response? isOpen response, subscriptions_resolve, found, Option.any_some, creates]
    cases granted? outcome <;> rfl
  · intro key granted hopen unreplaced unreleased held
    have registers : ((fresh buffer).run before).registers? e = some (key, call.id) :=
      registers?_eq_some_iff.mpr ⟨isOpen, outcome, call, response, found, creates, granted⟩
    have attends : (fresh buffer).Attends before e after key call.id :=
      { registers
        isOpen := hopen
        unreplaced
        unreleased
        attended := fun forsaken => by
          rcases held with ⟨c, hc, hid⟩ | hanswered
          · exact forsaken.gone c hc hid
          · exact forsaken.unanswered _ hanswered }
    obtain ⟨c, hc⟩ := Option.isSome_iff_exists.mp (of_registers? few registers).2.1
    have balances := balances_run buffer (before ++ e :: after) call.id
    rw [hc, attends.dispatched_eq few] at balances
    exact ⟨c, hc, balances.1, balances.2.1⟩

theorem withdrawn_run {events : List SessionEvent}
    (few : events.countP SessionEvent.isCall < 2 ^ 64)
    (split : events = before ++ after) (made : ∃ c ∈ (fresh buffer).newcomers before, c.id = id)
    (gone : ∀ c ∈ ((fresh buffer).run before).callers, c.id ≠ id)
    (unheard : (fresh buffer).firstResponse? before id = none) :
    (∀ p ∈ ((fresh buffer).run events).subscriptions, p.2 ≠ id) ∧
      (fresh buffer).dispatched events id = [] := by
  subst split
  have few' := few
  rw [List.countP_append] at few'
  obtain ⟨sound, -⟩ := Ledger.sound_faithful_run buffer before (by omega)
  have given : Given (before.countP SessionEvent.isCall) id := by
    obtain ⟨c, hc, rfl⟩ := made
    exact given_newcomers (by omega) c hc
  have idle : ¬ ((fresh buffer).run before).ledger.IsPending id := by
    intro pending
    obtain ⟨c, hc, hid, -⟩ := (sound.pending_iff id).mp pending
    exact gone c hc hid
  have silent : (fresh buffer).firstResponse? (before ++ after) id = none := by
    rw [firstResponse?_append, unheard, Option.none_or]
    exact firstResponse?_of_not_isPending sound after few' given idle
  refine ⟨?_, dispatched_eq_nil few silent⟩
  rintro p hp rfl
  obtain ⟨outcome, hfirst, -⟩ := vouched_run few p hp
  cases silent.symm.trans hfirst

end

/-- **Creating a subscription loses no event.** In every run, the response to a creating call
registers the channel under the key that it names, and from then on the channel takes every
notification of the key. The caller is told the key, unless its frame still waits for room when it
runs out of time or when the writer has stopped. The bound on the calls keeps their ids apart. -/
theorem losesNoEvent_run (buffer : Nat) (events : List SessionEvent)
    (few : events.countP SessionEvent.isCall < 2 ^ 64) : (fresh buffer).LosesNoEvent events where
  created before e after split call outcome response found creates := by
    subst split
    exact creates_run few response found creates
  withdrawn before after split id made gone unheard := withdrawn_run few split made gone unheard

/-- Two calls that create subscriptions, of which the second is given up in time. -/
def twoCreations : List SessionEvent :=
  [.called "eth_subscribe" .subscription (.ofSeconds 5), .accepted 1,
   .called "eth_subscribe" .subscription (.ofSeconds 5), .accepted 2, .expired 2]

/-- The response to the first of them. -/
def firstGrant : SessionEvent := .textArrived "\x7b\"id\":1,\"result\":\"0xa\"\x7d"

/-- An event before the caller wakes, the response to the second call, and an event after it. -/
def beforeWaking : List SessionEvent :=
  [.textArrived (announcement 7), .textArrived "\x7b\"id\":2,\"result\":\"0xa\"\x7d", .woken 1,
   .textArrived (announcement 8)]

/-- Both events are put into the channel of the first call, and the second registers nothing. -/
theorem losesNoEvent_beforeWaking :
    let events := twoCreations ++ firstGrant :: beforeWaking
    events.countP SessionEvent.isCall < 2 ^ 64 ∧
      ((fresh 4).run events).subscriptions = [("0xa", 1)] ∧
      (∃ c, ((fresh 4).run events).channel? 1 = some c ∧
        c.Carries [.number (.int 7), .number (.int 8)]) ∧
      (fresh 4).dispatched events 2 = [] := by
  have few : (twoCreations ++ firstGrant :: beforeWaking).countP SessionEvent.isCall < 2 ^ 64 := by
    decide
  have whole := losesNoEvent_run 4 (twoCreations ++ firstGrant :: beforeWaking) few
  have created := whole.created twoCreations firstGrant beforeWaking rfl
    ⟨1, "eth_subscribe", true⟩ (.ok "\"0xa\"") (by cbv) (by cbv) rfl
  have unreplaced : ∀ p ∈ ((fresh 4).run (twoCreations ++ [firstGrant])).trace beforeWaking,
      ∀ other, p.1.registers? p.2 ≠ some ("0xa", other) := by
    have registered : (((fresh 4).run (twoCreations ++ [firstGrant])).trace beforeWaking).map
        (fun p => p.1.registers? p.2) = [none, none, none, none] := by cbv
    intro p hp other hregisters
    have mem := List.mem_map_of_mem (f := fun p => p.1.registers? p.2) hp
    simp [registered, hregisters] at mem
  have unreleased : ∀ x ∈ twoCreations ++ firstGrant :: beforeWaking, x ≠ .channelReleased 1 := by
    simp [twoCreations, firstGrant, beforeWaking]
  have answers : ((fresh 4).run (twoCreations ++ firstGrant :: beforeWaking)).ended =
      [(2, .error (.timeout "eth_subscribe" (.ofSeconds 5))), (1, .ok (.subscribed "0xa"))] := by
    cbv
  obtain ⟨c, hc, -, carries⟩ := created.heard "0xa" (by cbv) (by cbv) unreplaced unreleased
    (.inr (by simp [answers]))
  have heard : notes beforeWaking "0xa" = [.number (.int 7), .number (.int 8)] := by cbv
  rw [heard] at carries
  have made : (fresh 4).newcomers twoCreations =
      [⟨1, "eth_subscribe", .subscription, .ofSeconds 5, true, none⟩,
        ⟨2, "eth_subscribe", .subscription, .ofSeconds 5, true, none⟩] := by cbv
  have waiting : ((fresh 4).run twoCreations).callers.map (·.id) = [1] := by cbv
  have gone : ∀ c ∈ ((fresh 4).run twoCreations).callers, c.id ≠ 2 := by
    intro c hc hid
    have mem := List.mem_map_of_mem (f := (·.id)) hc
    simp [waiting, hid] at mem
  refine ⟨few, by cbv, ⟨c, hc, carries⟩, ?_⟩
  exact (whole.withdrawn twoCreations (firstGrant :: beforeWaking) rfl 2
    ⟨_, by rw [made]; exact .tail _ (.head _), rfl⟩ gone (by cbv)).2

/-- A response arrives while the frame of its call still waits for room, and then the time of the
call is up. -/
def overlookedGrant : List SessionEvent :=
  [.called "eth_subscribe" .subscription (.ofSeconds 5), firstGrant, .expired 1]

/-- The response registers the channel, but its caller, which is there all the time, runs out of
time. So a channel can be registered for a caller that is handed no subscription. -/
theorem losesNoEvent_overlooked :
    ((fresh 4).run overlookedGrant).subscriptions = [("0xa", 1)] ∧
      ((fresh 4).run overlookedGrant).ended =
        [(1, .error (.timeout "eth_subscribe" (.ofSeconds 5)))] ∧
      ¬ ∀ before e after call outcome, e.response? = some (call.id, outcome) →
        ((fresh 4).run before).calls.find? (·.id = call.id) = some call → call.creates = true →
        ∀ answer, (call.id, answer) ∈ ((fresh 4).run (before ++ e :: after)).ended →
          ∀ key, (key, call.id) ∈ ((fresh 4).run (before ++ [e])).subscriptions ↔
            answer = .ok (.subscribed key) := by
  have late : ((fresh 4).run overlookedGrant).ended =
      [(1, .error (.timeout "eth_subscribe" (.ofSeconds 5)))] := by cbv
  refine ⟨by cbv, late, fun told => ?_⟩
  have registered : ((fresh 4).run
      [.called "eth_subscribe" .subscription (.ofSeconds 5), firstGrant]).subscriptions =
      [("0xa", 1)] := by cbv
  have mem : (1, .error (.timeout "eth_subscribe" (.ofSeconds 5))) ∈
      ((fresh 4).run overlookedGrant).ended := by
    rw [late]
    exact List.mem_cons_self
  have handed := told [.called "eth_subscribe" .subscription (.ofSeconds 5)] firstGrant [.expired 1]
    ⟨1, "eth_subscribe", true⟩ (.ok "\"0xa\"") (by cbv) (by cbv) rfl _ mem "0xa"
  cases handed.mp (registered ▸ List.mem_cons_self)

end Session

end IstanbulMonitor
