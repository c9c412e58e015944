import IstanbulMonitor.Proofs.Session.Creation
import IstanbulMonitor.Proofs.Session.Verdicts

/-!
# The end of a stream

A handle finds the end once its channel has no sender and no event is left for it. The sender of a
channel goes away with the session, and it goes away when the key of the channel is granted again:
the table of subscriptions holds one call for each key, so the response to a later call that names
the same key takes the place of the earlier one. `Session.Mutes` lists why an event drops a sender,
`Session.Held.hasSender_iff` says that for a handle only these two remain, and
`Session.sustains_run` says what its consumer sees of it. In `sharedKey` a second subscription ends
the stream of the first in a session that goes on.
-/

set_option autoImplicit false

namespace IstanbulMonitor

namespace Session

variable {s t : Session} {n : Nat} {e : SessionEvent} {id : UInt64} {key : String}

/-- Whether the sender of a call's channel is there. -/
def hasSender (s : Session) (id : UInt64) : Bool := (s.channel? id).any (·.senderOpen)

/-- Why an event drops the sender of a call's channel. -/
inductive Mutes (s : Session) (e : SessionEvent) (id : UInt64) : Prop
  /-- The session ends. -/
  | ended (closed : (s.step e).isClosed = true)
  /-- A response registers another channel under the key. -/
  | replaced {key : String} {other : UInt64} (registers : s.registers? e = some (key, other))
      (sink : s.sink? key = some id)
  /-- The response to the call that was to create the subscription names no key. -/
  | unnamed {outcome : Outcome} (response : e.response? = some (id, outcome))
      (pending : s.ledger.IsPending id) (failed : granted? outcome = none)
  /-- A notification finds the receiver gone. -/
  | orphaned {key : String} (sink : s.sink? key = some id)
      (gone : (s.channel? id).any (·.receiverOpen) = false)

/-! ## What the operations of a session do to the senders -/

theorem hasSender_congr (h : t.channels = s.channels) : t.hasSender id = s.hasSender id := by
  rw [hasSender, hasSender, channel?_congr h]

theorem hasSender_of_map {change : Channel → Channel}
    (keeps : ∀ c, (change c).senderOpen = c.senderOpen)
    (h : t.channel? id = (s.channel? id).map change) : t.hasSender id = s.hasSender id := by
  rw [hasSender, hasSender, h]
  cases s.channel? id with
  | none => rfl
  | some c => exact keeps c

theorem hasSender_dropSender (h : t.channel? id = (s.channel? id).map .dropSender) :
    t.hasSender id = false := by
  rw [hasSender, h]
  cases s.channel? id <;> rfl

theorem hasSender_mapChannel (target : UInt64) {change : Channel → Channel}
    (keeps : ∀ c, (change c).senderOpen = c.senderOpen) :
    (s.mapChannel target change).hasSender id = s.hasSender id := by
  have hchannel : (s.mapChannel target change).channel? id = _ :=
    channel?_mapChannel target change
  split at hchannel
  · exact hasSender_of_map keeps hchannel
  · rw [hasSender, hchannel, hasSender]

theorem hasSender_finish (c : Caller) (answer : Except TransportError Reply) :
    (s.finish c answer).hasSender id = s.hasSender id := by
  cases answer with
  | ok reply => rfl
  | error error => exact hasSender_mapChannel (s := s) c.id fun _ => rfl

theorem hasSender_abandon (target : UInt64) : (s.abandon target).hasSender id = s.hasSender id :=
  hasSender_congr (channels_abandon target)

theorem hasSender_receive (target : UInt64) :
    (s.receive target).2.hasSender id = s.hasSender id := by
  have hchannel : (s.receive target).2.channel? id = _ := channel?_receive target
  split at hchannel
  · exact hasSender_of_map Channel.senderOpen_receive hchannel
  · rw [hasSender, hchannel, hasSender]

/-- A call leaves the senders that are there. -/
theorem hasSender_start (method : String) (kind : CallKind) (timeout : Span)
    (had : s.hasSender id = true) :
    (s.step (.called method kind timeout)).hasSender id = true := by
  cases hterm : s.termination with
  | some cause =>
    simp only [step, start, hterm]
    exact (hasSender_finish _ _).trans had
  | none =>
    simp only [step, start, hterm]
    cases kind with
    | structured => exact had
    | raw => exact had
    | subscription =>
      rw [hasSender, channel?_append (s := s) rfl]
      obtain ⟨c, hc, hopen⟩ := (Option.any_eq_true _ _).mp had
      rw [hc, Option.some_or, Option.any_some, hopen]

/-- A response to a pending creating call drops the sender whose key it takes, or that of the call
itself if it names no key. -/
theorem channel?_resolve_eq (target : UInt64) (outcome : Outcome) :
    (s.resolve target outcome).channel? id =
      if (s.calls.find? (·.id = target)).any (·.creates) then
        match granted? outcome with
        | some key =>
          if s.sink? key = some id then (s.channel? id).map .dropSender else s.channel? id
        | none => if id = target then (s.channel? id).map .dropSender else s.channel? id
      else s.channel? id := by
  unfold resolve granted?
  cases s.calls.find? (·.id = target) with
  | none => rfl
  | some call =>
    dsimp only
    generalize hstruck : { s with calls := s.calls.filter (·.id ≠ target) }.measure
      Metrics.callEnded = struck
    have same : struck.channel? id = s.channel? id := hstruck ▸ rfl
    have table : ∀ key, struck.sink? key = s.sink? key := fun _ => hstruck ▸ rfl
    have delivered : ∀ (t : Session) (delivery : Delivery),
        (t.deliver target delivery).channel? id = t.channel? id := fun _ _ => rfl
    rw [delivered, Option.any_some]
    cases call.creates with
    | false => exact same
    | true =>
      cases outcome.toOption.bind subscriptionKey? with
      | none => simp only [if_true, channel?_mapChannel, same]
      | some key => simp only [if_true, channel?_subscribe, same, table]

/-- A response that grants a key drops the sender that had the key. -/
theorem channel?_registers {other : UInt64} (registers : s.registers? e = some (key, other)) :
    (s.step e).channel? id =
      if s.sink? key = some id then (s.channel? id).map .dropSender else s.channel? id := by
  obtain ⟨isOpen, outcome, call, response, found, creates, granted⟩ :=
    registers?_eq_some_iff.mp registers
  rw [step_of_response? isOpen response, channel?_resolve_eq, found, Option.any_some, creates,
    granted]
  rfl

theorem hasSender_dispatch (text : String) (had : s.hasSender id = true) :
    (s.step (.textArrived text)).hasSender id = true ∨ s.Mutes (.textArrived text) id := by
  cases hclosed : s.isClosed with
  | true =>
    left
    simpa only [step, dispatch, hclosed, if_true] using had
  | false =>
    simp only [step, dispatch, hclosed, Bool.false_eq_true, if_false]
    cases hframe : Frame.decode text with
    | error fault => exact .inl had
    | ok frame =>
      cases frame with
      | request target method params => exact .inl had
      | response target outcome =>
        have response : (SessionEvent.textArrived text).response? = some (target, outcome) := by
          simp [SessionEvent.response?, hframe]
        simp only [hasSender, channel?_resolve_eq]
        split
        · next hcreates =>
          cases hgranted : granted? outcome with
          | some key =>
            dsimp only
            split
            · next hsink =>
              have registers : s.registers? (.textArrived text) = some (key, target) := by
                rw [registers?_of_response? hclosed response, if_pos hcreates, hgranted]
                rfl
              exact .inr (.replaced registers hsink)
            · exact .inl had
          | none =>
            dsimp only
            split
            · next hid =>
              subst hid
              obtain ⟨call, found, -⟩ := (Option.any_eq_true _ _).mp hcreates
              exact .inr (.unnamed response (isPending_of_find? found) hgranted)
            · exact .inl had
        · exact .inl had
      | notification key payload =>
        simp only [hasSender, channel?_forward hclosed]
        split
        · left
          rw [Option.any_map]
          exact had
        · next hfeeds =>
          split
          · next hsink =>
            refine .inr (.orphaned hsink ?_)
            simpa [feeds, hclosed, hsink] using hfeeds
          · exact .inl had

/-- An event drops a sender for one of the listed reasons only. -/
theorem hasSender_step (had : s.hasSender id = true) (e : SessionEvent) :
    (s.step e).hasSender id = true ∨ s.Mutes e id := by
  -- whatever makes a session end drops its senders for that reason
  have lose : ∀ reason, (s.lose reason).hasSender id = true ∨ (s.lose reason).isClosed = true := by
    intro reason
    cases hterm : s.termination with
    | some cause =>
      have hclosed : s.isClosed = true := by simp [isClosed, hterm]
      exact .inr (by rw [Session.lose, if_pos hclosed, hclosed])
    | none =>
      rw [lose_of_isOpen hterm]
      exact .inr (isClosed_terminate (s := s.warn .receiveEnded) hterm _)
  cases e with
  | called method kind timeout => exact .inl (hasSender_start method kind timeout had)
  | textArrived text => exact hasSender_dispatch text had
  | accepted target =>
    left
    simp only [step]
    split <;> exact had
  | refused target =>
    left
    simp only [step, refuse]
    split
    · split
      · exact had
      · rwa [hasSender_finish, hasSender_abandon]
    · exact had
  | woken target =>
    left
    simp only [step, wake]
    split
    · exact had
    · split
      · rwa [hasSender_finish, hasSender_abandon]
      · exact had
  | expired target =>
    left
    simp only [step, expire]
    split
    · split
      · exact had
      · rwa [hasSender_finish, hasSender_abandon]
    · exact had
  | cancelled target =>
    left
    simp only [step, cancel]
    split
    · rw [hasSender_mapChannel]
      · exact (hasSender_abandon target).trans had
      · exact fun _ => rfl
    · exact had
  | bytesArrived =>
    left
    simp only [step]
    split <;> exact had
  | connectionLost reason => exact (lose reason).imp_right fun closed => .ended closed
  | closeRequested => exact .inl ((hasSender_congr (channels_raise _)).trans had)
  | readerObeyed =>
    cases hterm : s.termination with
    | some cause =>
      have hsame : s.step .readerObeyed = s := if_pos (by simp [isClosed, hterm])
      exact .inl (by rw [hsame, had])
    | none =>
      cases hends : s.endCause? .readerObeyed with
      | none =>
        have hsignal : s.signal = .running := by
          cases hsignal : s.signal <;> simp [endCause?, hsignal] at hends
          rfl
        left
        simp only [step, obey, hsignal]
        split <;> exact had
      | some cause =>
        refine .inr (.ended ?_)
        rw [isClosed, termination_of_endCause? hterm hends]
        rfl
  | writeFailed reason =>
    left
    simp only [step, failWriting]
    split
    · exact had
    · exact (hasSender_congr (channels_raise _)).trans had
  | writerObeyed =>
    left
    simp only [step, stopWriting]
    split <;> exact had
  | channelRead target => exact .inl ((hasSender_receive target).trans had)
  | channelReleased target =>
    have same : (s.mapChannel target Channel.dropReceiver).hasSender id = s.hasSender id :=
      hasSender_mapChannel target fun _ => rfl
    exact .inl (same.trans had)

/-- A channel that has no sender gets none. -/
theorem hasSender_step_eq_false (there : (s.channel? id).isSome) (mute : s.hasSender id = false)
    (e : SessionEvent) : (s.step e).hasSender id = false := by
  obtain ⟨c, hc⟩ := Option.isSome_iff_exists.mp there
  have hmute : c.senderOpen = false := by rwa [hasSender, hc, Option.any_some] at mute
  have change := s.channelChange_step e id
  rw [hasSender]
  generalize (s.step e).channel? id = c? at change ⊢
  cases change with
  | rest => exact mute
  | opened _ missing => cases hc.symm.trans missing
  | sent =>
    rw [hc]
    exact hmute
  | read =>
    rw [hc]
    exact (Channel.senderOpen_receive c).trans hmute
  | muted =>
    rw [hc]
    rfl
  | forsaken =>
    rw [hc]
    exact hmute

/-- Without a session that is open there is no sender. -/
theorem hasSender_of_isClosed {buffer : Nat} {events : List SessionEvent}
    (closed : ((fresh buffer).run events).isClosed = true) (id : UInt64) :
    ((fresh buffer).run events).hasSender id = false := by
  rcases open_or_over_run buffer events with ⟨isOpen, -⟩ | ⟨cause, lost, gone⟩
  · simp [isClosed, isOpen] at closed
  · rw [hasSender, channel?]
    cases hfind : ((fresh buffer).run events).channels.find? (·.1 = id) with
    | none => rfl
    | some entry =>
      rw [Option.map_some, Option.any_some, gone.muted entry (List.mem_of_find?_eq_some hfind)]

/-! ## Calls that are pending -/

/-- Channels belong to calls that were made. -/
theorem given_of_channel? {buffer : Nat} {events : List SessionEvent}
    (few : events.countP SessionEvent.isCall < 2 ^ 64)
    (there : (((fresh buffer).run events).channel? id).isSome) :
    Given (events.countP SessionEvent.isCall) id := by
  induction events using List.reverseRecOn with
  | nil => cases there
  | append_singleton events e ih =>
    rw [SessionEvent.countP_isCall_concat] at few ⊢
    obtain ⟨sound, -⟩ := Ledger.sound_faithful_run buffer events (by omega)
    have older : (((fresh buffer).run events).channel? id).isSome →
        Given (events.countP SessionEvent.isCall + e.isCall.toNat) id :=
      fun there => (ih (by omega) there).mono (Nat.le_add_right _ _)
    rw [run_concat] at there
    have change := ((fresh buffer).run events).channelChange_step e id
    generalize (((fresh buffer).run events).step e).channel? id = c? at change there
    cases change with
    | rest => exact older there
    | opened _ _ call =>
      obtain ⟨hcalled, rfl⟩ := call
      rw [hcalled] at few ⊢
      exact sound.given_nextId few
    | sent => exact older (by simpa using there)
    | read => exact older (by simpa using there)
    | muted => exact older (by simpa using there)
    | forsaken => exact older (by simpa using there)

/-- The call behind a registered channel has been answered, and by the response that granted its
key. -/
theorem firstResponse?_of_sink? {buffer : Nat} {events : List SessionEvent}
    (few : events.countP SessionEvent.isCall < 2 ^ 64)
    (sink : ((fresh buffer).run events).sink? key = some id) :
    ∃ outcome, (fresh buffer).firstResponse? events id = some outcome ∧
      granted? outcome = some key :=
  vouched_run few _ (mem_subscriptions_of_sink? sink)

/-- A call that becomes pending is new, and it opens its channel if it creates a subscription. -/
theorem mem_calls_step {call : PendingCall} (h : call ∈ (s.step e).calls) :
    call ∈ s.calls ∨ e.isCall = true ∧ call.id = s.nextId ∧ (call.creates = true →
      (s.step e).channels = s.channels ++ [(call.id, Channel.make s.buffer)]) := by
  have other : e.isCall = false → call ∈ s.calls := fun noCall =>
    (s.change_step e).mem_calls noCall call h
  cases e with
  | called method kind timeout =>
    cases hterm : s.termination with
    | some cause =>
      simp only [step, start, hterm] at h
      exact .inl h
    | none =>
      simp only [step, start, hterm] at h ⊢
      rcases List.mem_append.mp h with h | h
      · exact .inl h
      · obtain rfl := List.mem_singleton.mp h
        exact .inr ⟨rfl, rfl, fun creates => if_pos creates⟩
  | _ => exact .inl (other rfl)

/-- The channel of a pending call that creates a subscription has its sender. -/
def Primed (s : Session) : Prop :=
  ∀ call ∈ s.calls, call.creates = true → s.hasSender call.id = true

theorem primed_run {buffer : Nat} {events : List SessionEvent}
    (few : events.countP SessionEvent.isCall < 2 ^ 64) : ((fresh buffer).run events).Primed := by
  induction events using List.reverseRecOn with
  | nil => exact fun call hcall => absurd hcall List.not_mem_nil
  | append_singleton events e ih =>
    have few' := few
    rw [SessionEvent.countP_isCall_concat] at few'
    obtain ⟨sound, faithful⟩ := Ledger.sound_faithful_run buffer events (by omega)
    obtain ⟨sound', faithful'⟩ := Ledger.sound_faithful_run buffer (events ++ [e]) few
    intro call hcall creates
    have pending : ((fresh buffer).run (events ++ [e])).ledger.IsPending call.id :=
      ⟨call, hcall, rfl⟩
    -- a call that is pending after the event has not been answered, not even by the event
    have unheard := faithful'.first_eq_none sound' pending
    have isOpen := isOpen_of_isPending sound' pending
    rw [firstResponse?_concat, Option.or_eq_none_iff] at unheard
    rw [run_concat] at hcall isOpen ⊢
    rcases mem_calls_step hcall with older | ⟨hcalled, hid, opens⟩
    · rcases hasSender_step (ih (by omega) call older creates) e with has | why
      · exact has
      · cases why with
        | ended closed => cases isOpen.symm.trans closed
        | replaced _ sink =>
          obtain ⟨outcome, first, -⟩ := firstResponse?_of_sink? (by omega) sink
          cases unheard.1.symm.trans first
        | unnamed response before =>
          cases unheard.2.symm.trans (Ledger.reported?_eq_some_iff.mpr ⟨response, before⟩)
        | orphaned sink =>
          obtain ⟨outcome, first, -⟩ := firstResponse?_of_sink? (by omega) sink
          cases unheard.1.symm.trans first
    · -- the id is new, so no channel was there before the one that is opened
      have missing : ((fresh buffer).run events).channel? call.id = none := by
        by_contra there
        have given := given_of_channel? (by omega) (Option.isSome_iff_ne_none.mpr there)
        rw [hcalled] at few'
        exact sound.ne_nextId few' given hid
      rw [hasSender, channel?_append (opens creates), missing, Option.none_or, if_pos rfl]
      rfl

/-! ## Handles -/

/-- A handle that a run has given out and that its consumer has not released. -/
structure Held (s : Session) (events : List SessionEvent) (key : String) (id : UInt64) : Prop where
  handed : (id, .ok (.subscribed key)) ∈ (s.run events).ended
  unreleased : ∀ x ∈ events, x ≠ .channelReleased id

/-- After the response that registered the channel of a call under a key, another response has
granted the key to another call. -/
def Supplanted (s : Session) (events : List SessionEvent) (key : String) (id : UInt64) : Prop :=
  ∃ before e after, events = before ++ e :: after ∧
    (s.run before).registers? e = some (key, id) ∧
    ∃ p ∈ (s.run (before ++ [e])).trace after, ∃ other ≠ id,
      p.1.registers? p.2 = some (key, other)

theorem exists_of_mem_trace {events : List SessionEvent} {p : Session × SessionEvent}
    (h : p ∈ s.trace events) :
    ∃ before after, events = before ++ p.2 :: after ∧ p.1 = s.run before := by
  induction events generalizing s with
  | nil => exact absurd h List.not_mem_nil
  | cons e events ih =>
    rcases List.mem_cons.mp h with rfl | h
    · exact ⟨[], events, rfl, rfl⟩
    · obtain ⟨before, after, rfl, hrun⟩ := ih h
      exact ⟨e :: before, after, rfl, hrun⟩

/-- Only the caller of a creating call is told a key, and its response grants it. -/
theorem granted?_of_conclude {kind : CallKind} {method : String} {outcome : Outcome}
    (h : Except.ok (.subscribed key) = conclude kind method (outcome.mapError .remote)) :
    kind = .subscription ∧ granted? outcome = some key := by
  cases outcome with
  | error error => cases h
  | ok text =>
    cases kind with
    | structured =>
      simp only [conclude, Except.mapError] at h
      split at h <;> cases h
    | raw => cases h
    | subscription =>
      simp only [conclude, Except.mapError] at h
      split at h
      · next granted hgranted =>
        cases h
        exact ⟨rfl, hgranted⟩
      · cases h

section Runs

variable {buffer : Nat} {before after rest events : List SessionEvent} {x : SessionEvent}

theorem countP_isCall_left (few : (events ++ rest).countP SessionEvent.isCall < 2 ^ 64) :
    events.countP SessionEvent.isCall < 2 ^ 64 := by
  rw [List.countP_append] at few
  omega

/-- The channel of a handle was registered by the response to its call. -/
theorem Held.registered (few : events.countP SessionEvent.isCall < 2 ^ 64)
    (held : (fresh buffer).Held events key id) :
    ∃ before e after, events = before ++ e :: after ∧
      ((fresh buffer).run before).registers? e = some (key, id) := by
  obtain ⟨-, faithful⟩ := Ledger.sound_faithful_run buffer events few
  obtain ⟨c, hc, hid, outcome, hfirst, htold⟩ := faithful.own _ held.handed rfl
  obtain ⟨hkind, granted⟩ := granted?_of_conclude htold
  obtain ⟨p, hp, hreported⟩ := List.exists_of_findSome?_eq_some hfirst
  obtain ⟨before, after, rfl, hrun⟩ := exists_of_mem_trace hp
  obtain ⟨response, pending⟩ := Ledger.reported?_eq_some_iff.mp hreported
  rw [hrun] at pending
  have few' := countP_isCall_response few
  obtain ⟨sound, -⟩ := Ledger.sound_faithful_run buffer before few'
  obtain ⟨call, found⟩ : ∃ call,
      ((fresh buffer).run before).calls.find? (·.id = id) = some call := by
    obtain ⟨call, mem, hcall⟩ := pending
    exact Option.isSome_iff_exists.mp (List.find?_isSome.mpr ⟨call, mem, by simpa using hcall⟩)
  obtain ⟨mem, rfl⟩ : call ∈ ((fresh buffer).run before).calls ∧ call.id = id :=
    ⟨List.mem_of_find?_eq_some found, by simpa using List.find?_some found⟩
  -- the entry was made for the caller, since callers have ids of their own
  obtain ⟨b, hb, hbid, -, hcreates⟩ := enrolled_run call mem
  have nodup := nodup_newcomers (Ledger.sound_fresh buffer) (before ++ p.2 :: after) (by omega)
  have hb' : b ∈ (fresh buffer).newcomers (before ++ p.2 :: after) := by
    rw [newcomers_append]
    exact List.mem_append_left _ hb
  obtain rfl : c = b := List.inj_on_of_nodup_map nodup hc hb' (hid.trans hbid.symm)
  refine ⟨before, p.2, after, rfl, registers?_eq_some_iff.mpr
    ⟨isOpen_of_isPending sound pending, outcome, call, response, found, ?_, granted⟩⟩
  rw [hcreates, hkind]
  rfl

/-- The receiver of a channel is there as long as its handle is to be given out or is held. -/
theorem Held.receiverOpen (few : (events ++ rest).countP SessionEvent.isCall < 2 ^ 64)
    (held : (fresh buffer).Held (events ++ rest) key id)
    (there : (((fresh buffer).run events).channel? id).isSome) :
    (((fresh buffer).run events).channel? id).any (·.receiverOpen) = true := by
  obtain ⟨c, hc⟩ := Option.isSome_iff_exists.mp there
  have few' := few
  rw [List.countP_append] at few'
  obtain ⟨given, hreceiver⟩ := holds_run (by omega)
    (fun x hx => held.unreleased x (List.mem_append_left _ hx)) c hc
  rw [hc, Option.any_some]
  refine hreceiver.resolve_right fun forsaken => ?_
  -- a call that is forsaken stays so, and no handle is given out for it
  suffices ∀ later, (events ++ later).countP SessionEvent.isCall < 2 ^ 64 →
      ((fresh buffer).run (events ++ later)).ledger.Forsaken id from
    (this rest few).unanswered _ held.handed
  intro later
  induction later using List.reverseRecOn with
  | nil => exact fun _ => by rwa [List.append_nil]
  | append_singleton later x ih =>
    intro few
    rw [← List.append_assoc, SessionEvent.countP_isCall_concat] at few
    obtain ⟨sound, -⟩ := Ledger.sound_faithful_run buffer (events ++ later) (by omega)
    rw [← List.append_assoc, run_concat]
    refine (ih (by omega)).change sound (given.mono ?_) (change_step _ x) few
    rw [List.countP_append]
    exact Nat.le_add_right _ _

/-! ### From the response on -/

theorem sink?_registers (registers : s.registers? e = some (key, id)) :
    (s.step e).sink? key = some id := by
  obtain ⟨isOpen, outcome, call, response, found, creates, granted⟩ :=
    registers?_eq_some_iff.mp registers
  rw [step_of_response? isOpen response, sink?, subscriptions_resolve, found, Option.any_some,
    creates, granted]
  exact sink?_enroll _

/-- The call whose channel was registered is not pending any more. -/
theorem not_isPending_of_registers?
    (few : (before ++ e :: after).countP SessionEvent.isCall < 2 ^ 64)
    (registers : ((fresh buffer).run before).registers? e = some (key, id)) :
    ¬ ((fresh buffer).run (before ++ e :: after)).ledger.IsPending id := by
  obtain ⟨sound, faithful⟩ := Ledger.sound_faithful_run buffer (before ++ e :: after) few
  obtain ⟨-, -, outcome, first, -⟩ := of_registers? few registers
  intro pending
  cases (faithful.first_eq_none sound pending).symm.trans first

/-- The channel stands in the table under no other key. -/
theorem eq_of_sink? (few : (before ++ e :: after).countP SessionEvent.isCall < 2 ^ 64)
    (registers : ((fresh buffer).run before).registers? e = some (key, id)) {other : String}
    (sink : ((fresh buffer).run (before ++ e :: after)).sink? other = some id) : other = key := by
  obtain ⟨-, -, outcome, first, granted⟩ := of_registers? few registers
  obtain ⟨outcome', first', granted'⟩ := firstResponse?_of_sink? few sink
  obtain rfl : outcome = outcome' := Option.some.inj (first.symm.trans first')
  exact Option.some.inj (granted'.symm.trans granted)

/-- A channel has its sender when it is registered. -/
theorem hasSender_registers (few : (before ++ e :: after).countP SessionEvent.isCall < 2 ^ 64)
    (registers : ((fresh buffer).run before).registers? e = some (key, id)) :
    ((fresh buffer).run (before ++ [e])).hasSender id = true := by
  have few' := countP_isCall_response few
  obtain ⟨sound, faithful⟩ := Ledger.sound_faithful_run buffer before few'
  obtain ⟨-, outcome, call, -, found, creates, -⟩ := registers?_eq_some_iff.mp registers
  obtain ⟨mem, rfl⟩ : call ∈ ((fresh buffer).run before).calls ∧ call.id = id :=
    ⟨List.mem_of_find?_eq_some found, by simpa using List.find?_some found⟩
  -- a call that is pending is not the one that has the key
  have absent : ((fresh buffer).run before).sink? key ≠ some call.id := by
    intro sink
    obtain ⟨outcome, first, -⟩ := firstResponse?_of_sink? few' sink
    cases (faithful.first_eq_none sound ⟨call, mem, rfl⟩).symm.trans first
  rw [run_concat, hasSender, channel?_registers registers, if_neg absent]
  exact primed_run few' call mem creates

/-- A response that registers another channel comes for another call. -/
theorem ne_of_registers? (few : (before ++ e :: after).countP SessionEvent.isCall < 2 ^ 64)
    (registers : ((fresh buffer).run before).registers? e = some (key, id)) {taken : String}
    {other : UInt64}
    (again : ((fresh buffer).run (before ++ e :: after)).registers? x = some (taken, other)) :
    other ≠ id := by
  rintro rfl
  obtain ⟨-, -, call, -, found, -⟩ := registers?_eq_some_iff.mp again
  exact not_isPending_of_registers? few registers (isPending_of_find? found)

/-- A channel whose receiver is there keeps its place in the table while it has its sender. -/
theorem sink?_step (sink : s.sink? key = some id) (isOpen : (s.step e).isClosed = false)
    (receiver : (s.channel? id).any (·.receiverOpen) = true)
    (has : (s.step e).hasSender id = true) : (s.step e).sink? key = some id := by
  have change := s.tableChange_step e
  rw [sink?]
  generalize (s.step e).subscriptions = table at change ⊢
  cases change with
  | rest => exact sink
  | @enrolled other target registers =>
    have hne : key ≠ other := by
      rintro rfl
      have dropped : (s.step e).channel? id = (s.channel? id).map .dropSender := by
        rw [channel?_registers registers, if_pos sink]
      cases (hasSender_dropSender dropped).symm.trans has
    rwa [sink?_enroll_of_ne hne]
  | @removed other target _ found gone =>
    have hne : key ≠ other := by
      rintro rfl
      obtain rfl : target = id := Option.some.inj (found.symm.trans sink)
      cases gone.symm.trans receiver
    rwa [sink?_filter_of_ne hne]
  | emptied _ closed => cases isOpen.symm.trans closed

section Handle

variable (few : (before ++ e :: after ++ rest).countP SessionEvent.isCall < 2 ^ 64)
  (held : (fresh buffer).Held (before ++ e :: after ++ rest) key id)
  (registers : ((fresh buffer).run before).registers? e = some (key, id))

include few held registers

/-- The receiver of a handle's channel is there since the response. -/
theorem receiverOpen_registers :
    (((fresh buffer).run (before ++ e :: after)).channel? id).any (·.receiverOpen) = true := by
  exact held.receiverOpen few (of_registers? (countP_isCall_left few) registers).2.1

/-- The channel of a handle stands in the table as long as it has its sender. -/
theorem sink?_of_hasSender
    (has : ((fresh buffer).run (before ++ e :: after)).hasSender id = true) :
    ((fresh buffer).run (before ++ e :: after)).sink? key = some id := by
  -- induction from the end of the run: what has its sender now had it before
  induction after using List.reverseRecOn generalizing rest with
  | nil =>
    rw [run_concat]
    exact sink?_registers registers
  | append_singleton after x ih =>
    have hsplit : before ++ e :: (after ++ [x]) ++ rest = before ++ e :: after ++ x :: rest := by
      simp
    rw [hsplit] at few held
    have there := (of_registers? (countP_isCall_left few) registers).2.1
    have isOpen : ((fresh buffer).run (before ++ e :: (after ++ [x]))).isClosed = false := by
      by_contra closed
      cases (hasSender_of_isClosed (by simpa using closed) id).symm.trans has
    rw [cons_concat, run_concat] at isOpen has ⊢
    have before : ((fresh buffer).run (before ++ e :: after)).hasSender id = true := by
      by_contra mute
      cases (hasSender_step_eq_false there (by simpa using mute) x).symm.trans has
    exact sink?_step (ih few held before) isOpen (receiverOpen_registers few held registers) has

/-- An event drops the sender of a handle's channel if it ends the session or grants the key again,
and in no other case. -/
theorem hasSender_step_eq_false_iff
    (has : ((fresh buffer).run (before ++ e :: after)).hasSender id = true) (x : SessionEvent) :
    (((fresh buffer).run (before ++ e :: after)).step x).hasSender id = false ↔
      (((fresh buffer).run (before ++ e :: after)).step x).isClosed = true ∨
        ∃ other, ((fresh buffer).run (before ++ e :: after)).registers? x = some (key, other) := by
  have few' := countP_isCall_left few
  constructor
  · intro mute
    rcases hasSender_step has x with still | why
    · cases still.symm.trans mute
    · cases why with
      | ended closed => exact .inl closed
      | @replaced taken other again sink =>
        obtain rfl := eq_of_sink? few' registers sink
        exact .inr ⟨other, again⟩
      | unnamed _ pending =>
        exact absurd pending (not_isPending_of_registers? few' registers)
      | orphaned _ gone =>
        cases gone.symm.trans (receiverOpen_registers few held registers)
  · rintro (closed | ⟨other, again⟩)
    · rw [← run_concat] at closed ⊢
      exact hasSender_of_isClosed closed id
    · refine hasSender_dropSender (s := (fresh buffer).run (before ++ e :: after)) ?_
      rw [channel?_registers again, if_pos (sink?_of_hasSender few held registers has)]

/-- The channel of a handle has its sender unless the session has ended or the key was granted
again. -/
theorem hasSender_eq_false_iff :
    ((fresh buffer).run (before ++ e :: after)).hasSender id = false ↔
      ((fresh buffer).run (before ++ e :: after)).isClosed = true ∨
        ∃ p ∈ ((fresh buffer).run (before ++ [e])).trace after, ∃ other,
          p.1.registers? p.2 = some (key, other) := by
  induction after using List.reverseRecOn generalizing rest with
  | nil =>
    have has := hasSender_registers (countP_isCall_left few) registers
    have isOpen : ((fresh buffer).run (before ++ [e])).isClosed = false := by
      by_contra closed
      cases (hasSender_of_isClosed (by simpa using closed) id).symm.trans has
    simp [has, isOpen, trace]
  | append_singleton after x ih =>
    have hsplit : before ++ e :: (after ++ [x]) ++ rest = before ++ e :: after ++ x :: rest := by
      simp
    rw [hsplit] at few held
    have there := (of_registers? (countP_isCall_left few) registers).2.1
    have hrun : ((fresh buffer).run (before ++ [e])).run after =
        (fresh buffer).run (before ++ e :: after) := by
      rw [← run_append, List.append_assoc, List.singleton_append]
    have earlier := ih few held
    rw [cons_concat, run_concat]
    simp only [trace_append, trace, hrun, List.mem_append, List.mem_singleton, or_and_right,
      exists_or, exists_eq_left]
    cases has : ((fresh buffer).run (before ++ e :: after)).hasSender id with
    | true =>
      -- nothing happened before, so it is the event that counts
      rw [hasSender_step_eq_false_iff few held registers has x]
      have unreplaced : ¬ ∃ p ∈ ((fresh buffer).run (before ++ [e])).trace after, ∃ other,
          p.1.registers? p.2 = some (key, other) := by
        intro again
        cases has.symm.trans (earlier.mpr (.inr again))
      rw [or_iff_right unreplaced]
    | false =>
      have mute := hasSender_step_eq_false there has x
      refine iff_of_true mute ?_
      rcases earlier.mp has with closed | again
      · exact .inl (isClosed_step closed)
      · exact .inr (.inl again)

end Handle

/-- The sender of a handle's channel is gone exactly if the session has ended or another call has
been granted the key. -/
theorem Held.hasSender_iff (few : events.countP SessionEvent.isCall < 2 ^ 64)
    (held : (fresh buffer).Held events key id) :
    ((fresh buffer).run events).hasSender id = false ↔
      ((fresh buffer).run events).isClosed = true ∨ (fresh buffer).Supplanted events key id := by
  have split : ∀ {before e after}, events = before ++ e :: after →
      ((fresh buffer).run before).registers? e = some (key, id) →
      (((fresh buffer).run events).hasSender id = false ↔
        ((fresh buffer).run events).isClosed = true ∨
          ∃ p ∈ ((fresh buffer).run (before ++ [e])).trace after, ∃ other,
            p.1.registers? p.2 = some (key, other)) := by
    rintro before e after rfl registers
    rw [← List.append_nil (before ++ e :: after)] at few held
    exact hasSender_eq_false_iff few held registers
  constructor
  · obtain ⟨before, e, after, rfl, registers⟩ := held.registered few
    rw [split rfl registers]
    refine Or.imp_right ?_
    rintro ⟨p, hp, other, again⟩
    refine ⟨before, e, after, rfl, registers, p, hp, other, ?_, again⟩
    obtain ⟨between, later, hafter, hrun⟩ := exists_of_mem_trace hp
    rw [hrun, ← run_append, List.append_assoc, List.singleton_append] at again
    have whole : before ++ e :: after = before ++ e :: between ++ p.2 :: later := by
      rw [hafter, List.append_assoc, List.cons_append]
    rw [whole] at few
    exact ne_of_registers? (countP_isCall_left few) registers again
  · rintro (closed | ⟨before, e, after, hsplit, registers, p, hp, other, -, again⟩)
    · exact hasSender_of_isClosed closed id
    · exact (split hsplit registers).mpr (.inr ⟨p, hp, other, again⟩)

end Runs

/-! ## What a consumer sees -/

/-- A read without an event finds the end if the sender is gone, and waits otherwise. -/
theorem receive_fst_eq :
    (s.receive id).1 =
      (s.retained id).head?.elim (if s.hasSender id then .waiting else .ended) .event := by
  rw [receive_fst, retained, hasSender]
  cases s.channel? id with
  | none => rfl
  | some c => exact c.receive_retained.1

theorem receive_fst_eq_ended_iff :
    (s.receive id).1 = .ended ↔ s.retained id = [] ∧ s.hasSender id = false := by
  rw [receive_fst_eq]
  cases s.retained id <;> cases s.hasSender id <;> simp

theorem receive_fst_eq_waiting_iff :
    (s.receive id).1 = .waiting ↔ s.retained id = [] ∧ s.hasSender id = true := by
  rw [receive_fst_eq]
  cases s.retained id <;> cases s.hasSender id <;> simp

/-- A stream that has yielded all that was retained waits or ends like a read. -/
theorem takeEvents_last {m : Nat} (enough : (s.retained id).length < m) :
    (takeEvents m s id).2.1 = if s.hasSender id then .waiting else .ended := by
  induction m generalizing s with
  | zero => cases enough
  | succ m ih =>
    have hfound : (s.receive id).1 = _ := receive_fst_eq
    have hrest : (s.receive id).2.retained id = (s.retained id).tail := retained_receive_self
    have hsender : (s.receive id).2.hasSender id = s.hasSender id := hasSender_receive id
    unfold takeEvents
    rcases hreceive : s.receive id with ⟨received, t⟩
    rw [hreceive] at hfound hrest hsender
    cases hretained : s.retained id with
    | nil =>
      rw [hretained, List.head?_nil, Option.elim_none] at hfound
      obtain rfl := hfound
      cases s.hasSender id <;> rfl
    | cons payload retained =>
      rw [hretained, List.head?_cons, Option.elim_some] at hfound
      obtain rfl := hfound
      rw [hretained, List.tail_cons] at hrest
      rw [hretained, List.length_cons] at enough
      rw [← hsender]
      exact ih (by rw [hrest]; omega)

/-- A handle that is drained waits or ends like a read that finds no event. -/
theorem drain_last : (s.drain id).2.1 = if s.hasSender id then .waiting else .ended := by
  refine takeEvents_last (Nat.lt_succ_of_le ?_)
  rw [retained]
  cases s.channel? id with
  | none => exact Nat.le_refl 0
  | some c =>
    rw [Option.elim_some, Option.elim_some, Channel.retained, List.length_drop]
    exact Nat.sub_le _ _

theorem drain_last_eq_ended_iff : (s.drain id).2.1 = .ended ↔ s.hasSender id = false := by
  rw [drain_last]
  cases s.hasSender id <;> simp

theorem drain_last_eq_waiting_iff : (s.drain id).2.1 = .waiting ↔ s.hasSender id = true := by
  rw [drain_last]
  cases s.hasSender id <;> simp

/-! ## The main theorem -/

/-- What a run owes to a handle that it has given out: how long its stream goes on. -/
structure Sustains (s : Session) (events : List SessionEvent) (key : String) (id : UInt64) :
    Prop where
  /-- The handle belongs to a response that registered its channel under the key. -/
  registered : ∃ before e after, events = before ++ e :: after ∧
    (s.run before).registers? e = some (key, id)
  /-- A read finds the end exactly if no event is left and either the session has ended or another
  call has been granted the key. -/
  ends : ((s.run events).receive id).1 = .ended ↔ (s.run events).retained id = [] ∧
    ((s.run events).isClosed = true ∨ s.Supplanted events key id)
  /-- Otherwise a read without an event waits. -/
  waits : ((s.run events).receive id).1 = .waiting ↔ (s.run events).retained id = [] ∧
    (s.run events).isClosed = false ∧ ¬ s.Supplanted events key id
  /-- A handle that is used as a stream ends under the same condition, after the events that are
  left. -/
  streamEnds : ((s.run events).drain id).2.1 = .ended ↔
    (s.run events).isClosed = true ∨ s.Supplanted events key id
  /-- The stream goes on through every event, unless the session ends or a response grants the key
  to another call. -/
  cut : ((s.run events).drain id).2.1 = .waiting → ∀ x,
    ((((s.run events).step x).drain id).2.1 = .ended ↔ ((s.run events).step x).isClosed = true ∨
      ∃ other ≠ id, (s.run events).registers? x = some (key, other))

/-- **Until when a stream goes on.** For every run and every handle that it has given out, the
stream of the handle ends with the session, or when a response grants its key to another call; no
other event ends it. The bound on the calls keeps their ids apart. -/
theorem sustains_run (buffer : Nat) (events : List SessionEvent)
    (few : events.countP SessionEvent.isCall < 2 ^ 64) (key : String) (id : UInt64)
    (handed : (id, .ok (.subscribed key)) ∈ ((fresh buffer).run events).ended)
    (unreleased : ∀ x ∈ events, x ≠ .channelReleased id) :
    (fresh buffer).Sustains events key id := by
  have held : (fresh buffer).Held events key id := ⟨handed, unreleased⟩
  have mute := held.hasSender_iff few
  refine
    { registered := held.registered few
      ends := ?ends
      waits := ?waits
      streamEnds := ?streamEnds
      cut := ?cut }
  case ends => rw [receive_fst_eq_ended_iff, mute]
  case waits =>
    rw [receive_fst_eq_waiting_iff, ← Bool.not_eq_false, mute, not_or, Bool.not_eq_true]
  case streamEnds => rw [drain_last_eq_ended_iff, mute]
  case cut =>
    intro waits x
    rw [drain_last_eq_waiting_iff] at waits
    rw [drain_last_eq_ended_iff]
    obtain ⟨before, e, after, rfl, registers⟩ := held.registered few
    have another : ∀ other,
        ((fresh buffer).run (before ++ e :: after)).registers? x = some (key, other) →
          other ≠ id := fun other again => ne_of_registers? few registers again
    rw [← List.append_nil (before ++ e :: after)] at few held
    rw [hasSender_step_eq_false_iff few held registers waits x]
    exact or_congr_right (exists_congr fun other => (and_iff_right_of_imp (another other)).symm)

/-- Two subscriptions whose responses name one key, as a string and as a number. -/
def sharedKey : List SessionEvent :=
  [.called "eth_subscribe" .subscription (.ofSeconds 5), .accepted 1,
   .textArrived "\x7b\"id\":1,\"result\":\"7\"\x7d", .woken 1,
   .called "eth_subscribe" .subscription (.ofSeconds 5), .accepted 2,
   .textArrived "\x7b\"id\":2,\"result\":7\x7d", .woken 2]

theorem ended_sharedKey : ((fresh 4).run sharedKey).ended =
    [(1, .ok (.subscribed "7")), (2, .ok (.subscribed "7"))] := by cbv

theorem isOpen_sharedKey : ((fresh 4).run sharedKey).isClosed = false := by cbv

/-- The response to the second call ends the stream of the first one. -/
theorem sustains_sharedKey :
    sharedKey.countP SessionEvent.isCall < 2 ^ 64 ∧
      (∀ x ∈ sharedKey, x ≠ .channelReleased 1) ∧
      ((fresh 4).run sharedKey).ended =
        [(1, .ok (.subscribed "7")), (2, .ok (.subscribed "7"))] ∧
      (fresh 4).Sustains sharedKey "7" 1 ∧ (fresh 4).Supplanted sharedKey "7" 1 := by
  have few : sharedKey.countP SessionEvent.isCall < 2 ^ 64 := by decide
  have unreleased : ∀ x ∈ sharedKey, x ≠ .channelReleased 1 := by simp [sharedKey]
  have sustains := sustains_run 4 sharedKey few "7" 1 (by simp [ended_sharedKey]) unreleased
  have ended : (((fresh 4).run sharedKey).drain 1).2.1 = .ended := by cbv
  refine ⟨few, unreleased, ended_sharedKey, sustains, ?_⟩
  exact (sustains.streamEnds.mp ended).resolve_left (by simp [isOpen_sharedKey])

/-- It is not so that a handle finds the end only after its session has ended. -/
theorem sustains_outlived : ¬ ∀ (buffer : Nat) (events : List SessionEvent) (key : String)
    (id : UInt64), events.countP SessionEvent.isCall < 2 ^ 64 →
    (id, .ok (.subscribed key)) ∈ ((fresh buffer).run events).ended →
    (∀ x ∈ events, x ≠ .channelReleased id) →
    (((fresh buffer).run events).receive id).1 = .ended →
    ((fresh buffer).run events).isClosed = true := by
  intro outlives
  have closed := outlives 4 sharedKey "7" 1 (by decide) (by simp [ended_sharedKey])
    (by simp [sharedKey]) (by cbv)
  cases isOpen_sharedKey.symm.trans closed

end Session

end IstanbulMonitor
