import IstanbulMonitor.Proofs.Session.Answers
import IstanbulMonitor.Proofs.Session.Termination

/-!
# What callers are told of the end

A caller that is told that the session has ended is told the recorded cause, with one exception: the
writer may stop before the reader has recorded a cause, and a caller whose frame is refused in
between is told that the session was closed, whatever the cause will be. After the end a caller is
told the cause, takes what a response left in its mailbox, or runs out of time while its frame still
waits for room, since it does not look at its mailbox before (`Session.verdicts_run`).
-/

set_option autoImplicit false

namespace IstanbulMonitor

namespace Ledger

variable {l l' : Ledger} {e : SessionEvent}

/-- A cause that is recorded stays. -/
theorem Change.termination_eq (hchange : l.Change e l') {cause : TransportError}
    (closed : l.termination = some cause) : l'.termination = some cause := by
  cases hchange with
  | terminate _ _ isOpen =>
    rw [isOpen] at closed
    cases closed
  | _ => exact closed

/-- An error in a mailbox comes from the node, or is the cause of the end. -/
def Informed (l : Ledger) : Prop :=
  ∀ c ∈ l.callers, ∀ error, c.mail = some (.error error) →
    (∃ remote, error = .remote remote) ∨ l.termination = some error

namespace Informed

/-- Callers may leave. -/
theorem fewer (h : l.Informed) (callers : ∀ c ∈ l'.callers, c ∈ l.callers)
    (closed : l'.termination = l.termination) : l'.Informed := by
  intro c hc error hmail
  rw [closed]
  exact h c (callers c hc) error hmail

theorem change (h : l.Informed) (hchange : l.Change e l') : l'.Informed := by
  cases hchange with
  | rest => exact h.fewer (fun _ hc => hc) rfl
  | turnAway => exact h.fewer (fun _ hc => (mem_callers_dismiss.mp hc).1) rfl
  | register =>
    intro c hc error hmail
    rcases List.mem_append.mp hc with hc | hc
    · exact h c hc error hmail
    · rw [List.mem_singleton.mp hc] at hmail
      cases hmail
  | accept =>
    intro c hc error hmail
    obtain ⟨b, hb, rfl⟩ := mem_callers_accept.mp hc
    split at hmail <;> exact h b hb error hmail
  | @resolve _ id outcome =>
    intro c hc error hmail
    obtain ⟨b, hb, rfl⟩ := mem_callers_post.mp hc
    split at hmail
    · -- what a response leaves in the mailbox is what the node reports
      cases outcome with
      | ok text => cases hmail
      | error remote =>
        cases hmail
        exact Or.inl ⟨remote, rfl⟩
    · exact h b hb error hmail
  | conclude => exact h.fewer (fun _ hc => (mem_callers_dismiss.mp hc).1) rfl
  | fail => exact h.fewer (fun _ hc => (mem_callers_dismiss.mp hc).1) rfl
  | cancel => exact h.fewer (fun _ hc => (mem_callers_dismiss.mp hc).1) rfl
  | @terminate _ cause _ _ isOpen _ =>
    intro c hc error hmail
    obtain ⟨b, hb, rfl⟩ := mem_callers_post.mp hc
    split at hmail
    · cases hmail
      exact Or.inr rfl
    · rcases h b hb error hmail with remote | recorded
      · exact Or.inl remote
      · rw [isOpen] at recorded
        cases recorded

end Informed

end Ledger

namespace Session

variable {s : Session} {e : SessionEvent} {id : UInt64} {cause error : TransportError}

/-! ## Who asks for a close -/

theorem signal_finish (c : Caller) (answer : Except TransportError Reply) :
    (s.finish c answer).signal = s.signal := by
  unfold finish
  cases answer <;> rfl

theorem signal_abandon : (s.abandon id).signal = s.signal := by
  unfold abandon
  split <;> rfl

theorem signal_start (method : String) (kind : CallKind) (timeout : Span) :
    (s.start method kind timeout).1.signal = s.signal := by
  simp only [start]
  split
  · exact signal_finish _ _
  · rfl

theorem signal_wake : (s.wake id).signal = s.signal := by
  unfold wake
  split
  · rfl
  split
  · exact (signal_finish _ _).trans signal_abandon
  · rfl

theorem signal_refuse : (s.refuse id).signal = s.signal := by
  unfold refuse
  split
  · rfl
  · exact (signal_finish _ _).trans signal_abandon

theorem signal_expire : (s.expire id).signal = s.signal := by
  unfold expire
  split
  · rfl
  · exact (signal_finish _ _).trans (signal_abandon (s := s.warn .callTimedOut))

theorem signal_cancel : (s.cancel id).signal = s.signal := by
  unfold cancel
  split
  · exact signal_abandon
  · rfl

theorem signal_subscribe (key : String) (id : UInt64) : (s.subscribe key id).signal = s.signal := by
  unfold subscribe
  cases s.subscriptions.find? (·.1 = key) <;> rfl

theorem signal_resolve (outcome : Outcome) : (s.resolve id outcome).signal = s.signal := by
  unfold resolve
  cases s.calls.find? (·.id = id) with
  | none => rfl
  | some call =>
    dsimp only
    cases call.creates with
    | false => rfl
    | true =>
      cases outcome.toOption.bind subscriptionKey? with
      | none => rfl
      | some key =>
        exact signal_subscribe
          (s := { s with calls := s.calls.filter (·.id ≠ id) }.measure Metrics.callEnded) key id

theorem signal_forward (key : String) (payload : Json) :
    (s.forward key payload).signal = s.signal := by
  unfold forward
  cases s.subscriptions.find? (·.1 = key) with
  | none => rfl
  | some sub =>
    dsimp only
    split <;> rfl

theorem signal_dispatch (text : String) : (s.dispatch text).signal = s.signal := by
  unfold dispatch
  split
  · rfl
  cases Frame.decode text with
  | error fault => rfl
  | ok frame =>
    cases frame with
    | response id outcome => exact signal_resolve outcome
    | notification key payload => exact signal_forward key payload
    | request id method params => rfl

theorem signal_receive : (s.receive id).2.signal = s.signal := by
  unfold receive
  cases s.channel? id with
  | none => rfl
  | some c =>
    dsimp only
    split <;> rfl

theorem termination_of_endCause? (isOpen : s.termination = none)
    (ends : s.endCause? e = some cause) : (s.step e).termination = some cause := by
  have recorded : ∀ t : Session, t.termination = none →
      (t.terminate cause).termination = some cause :=
    fun t ht => congrArg Ledger.termination (ledger_terminate t cause ht)
  rcases step_of_endCause? isOpen ends with hstep | hstep
  · rw [hstep]
    exact recorded s isOpen
  · rw [hstep]
    exact recorded (s.warn .receiveEnded) isOpen

/-- A signal to close is given by whoever asks for it, or at the end. -/
theorem signal_step_close (h : (s.step e).signal = .close) :
    s.signal = .close ∨ e = .closeRequested ∨ (s.step e).termination.isSome = true := by
  have same : (s.step e).signal = s.signal →
      s.signal = .close ∨ e = .closeRequested ∨ (s.step e).termination.isSome = true :=
    fun hsame => Or.inl (hsame ▸ h)
  cases hends : s.endCause? e with
  | some cause =>
    -- the reader obeys or has lost the connection, so the session has ended now if not before
    refine Or.inr (Or.inr ?_)
    cases hterm : s.termination with
    | none =>
      rw [termination_of_endCause? hterm hends]
      rfl
    | some earlier =>
      have recorded : (s.step e).termination = some earlier :=
        (s.change_step e).termination_eq hterm
      rw [recorded]
      rfl
  | none =>
    cases e with
    | called method kind timeout => exact same (signal_start method kind timeout)
    | accepted id =>
      refine same ?_
      simp only [step]
      split <;> rfl
    | refused id =>
      refine same ?_
      simp only [step]
      split
      · exact signal_refuse
      · rfl
    | woken id => exact same signal_wake
    | expired id =>
      refine same ?_
      simp only [step]
      split
      · exact signal_expire
      · rfl
    | cancelled id => exact same signal_cancel
    | textArrived text => exact same (signal_dispatch text)
    | bytesArrived =>
      refine same ?_
      simp only [step]
      split <;> rfl
    | connectionLost reason => cases hends
    | closeRequested => exact Or.inr (Or.inl rfl)
    | readerObeyed =>
      have running : s.signal = .running := by
        cases hsignal : s.signal <;> simp [endCause?, hsignal] at hends
        rfl
      have hstep : s.step .readerObeyed = s := by simp [step, obey, running]
      exact same (congrArg Session.signal hstep)
    | writeFailed reason =>
      simp only [step, failWriting] at h
      split at h
      · exact Or.inl h
      · -- the first signal counts, and this one is another
        simp only [raise] at h
        split at h
        · cases h
        · exact Or.inl h
    | writerObeyed =>
      refine same ?_
      simp only [step, stopWriting]
      split <;> rfl
    | channelRead id => exact same signal_receive
    | channelReleased id => exact same rfl

/-- A signal to close was asked for or came with the end, and an end without a fault was asked
for. -/
structure Asked (s : Session) (events : List SessionEvent) : Prop where
  signal : s.signal = .close → .closeRequested ∈ events ∨ s.termination.isSome = true
  closed : s.termination = some .closed → .closeRequested ∈ events

theorem Asked.step {events : List SessionEvent} (h : s.Asked events) (e : SessionEvent) :
    (s.step e).Asked (events ++ [e]) where
  signal hsignal := by
    rcases signal_step_close hsignal with before | rfl | ended
    · rcases h.signal before with asked | ended
      · exact Or.inl (List.mem_append_left _ asked)
      · obtain ⟨cause, hcause⟩ := Option.isSome_iff_exists.mp ended
        exact Or.inr (by rw [show (s.step e).termination = some cause from
          (s.change_step e).termination_eq hcause]; rfl)
    · exact Or.inl (List.mem_append_right _ List.mem_cons_self)
    · exact Or.inr ended
  closed hclosed := by
    cases hterm : s.termination with
    | some cause =>
      have recorded : (s.step e).termination = some cause :=
        (s.change_step e).termination_eq hterm
      rw [hclosed] at recorded
      exact List.mem_append_left _ (h.closed (hterm.trans recorded.symm))
    | none =>
      cases hends : s.endCause? e with
      | none =>
        rw [termination_step_of_endCause?_eq_none hterm hends] at hclosed
        cases hclosed
      | some cause =>
        -- only the reader that obeys a signal to close ends the session so
        rw [termination_of_endCause? hterm hends] at hclosed
        cases hclosed
        cases e <;> simp only [endCause?, reduceCtorEq, Option.some.injEq] at hends
        cases hsignal : s.signal <;> simp only [hsignal, reduceCtorEq, Option.some.injEq] at hends
        rcases h.signal hsignal with asked | ended
        · exact List.mem_append_left _ asked
        · simp [hterm] at ended

/-! ## Runs -/

variable {buffer : Nat}

theorem asked_run (events : List SessionEvent) : ((fresh buffer).run events).Asked events := by
  induction events using List.reverseRecOn with
  | nil => constructor <;> intro h <;> cases h
  | append_singleton events e ih =>
    rw [run_concat]
    exact ih.step e

theorem informed_run (events : List SessionEvent) :
    ((fresh buffer).run events).ledger.Informed := by
  induction events using List.reverseRecOn with
  | nil => exact fun c hc => absurd hc List.not_mem_nil
  | append_singleton events e ih =>
    rw [run_concat]
    exact ih.change (change_step _ e)

theorem termination_run_append (h : s.termination = some cause) (events : List SessionEvent) :
    (s.run events).termination = some cause := by
  induction events generalizing s with
  | nil => exact h
  | cons e events ih => exact ih ((s.change_step e).termination_eq h)

/-- A session is open, or it is over. -/
theorem open_or_over_run (buffer : Nat) (events : List SessionEvent) :
    let s := (fresh buffer).run events
    s.termination = none ∧ s.ledger.Manned ∨ ∃ cause lost, s.Over cause lost := by
  induction events using List.reverseRecOn with
  | nil => exact Or.inl ⟨rfl, manned_fresh buffer⟩
  | append_singleton events e ih =>
    rw [run_concat]
    rcases ih with ⟨isOpen, manned⟩ | ⟨cause, lost, gone⟩
    · cases hends : ((fresh buffer).run events).endCause? e with
      | none =>
        exact Or.inl ⟨termination_step_of_endCause?_eq_none isOpen hends,
          manned.change (change_step _ e) isOpen⟩
      | some cause => exact Or.inr ⟨cause, _, over_step manned isOpen hends⟩
    · exact Or.inr ⟨cause, lost, gone.step e⟩

/-! ## Answers -/

variable {c : Caller} {answer : Except TransportError Reply} {delivery : Delivery}

/-- A caller that takes an error from its mailbox is told what the mailbox holds, or cannot read the
result that it holds. -/
theorem conclude_eq_error {kind : CallKind} {method : String}
    (h : conclude kind method delivery = .error error) :
    delivery = .error error ∨ ∃ reason, error = .decode method reason := by
  cases delivery with
  | error e =>
    obtain rfl : e = error := by simpa [conclude] using h
    exact Or.inl rfl
  | ok text =>
    cases kind with
    | raw => cases h
    | structured =>
      simp only [conclude] at h
      split at h
      · cases h
      · cases h
        exact Or.inr ⟨_, rfl⟩
    | subscription =>
      simp only [conclude] at h
      split at h
      · cases h
      · cases h
        exact Or.inr ⟨_, rfl⟩

/-- A terminal error is the recorded cause, unless the frame was refused before a cause was
recorded. -/
theorem Tells.terminal (given : s.Tells e c answer) (informed : s.ledger.Informed)
    (told : answer = .error error) (terminal : error.isTerminal = true) :
    s.termination = some error ∨
      error = .closed ∧ s.termination = none ∧ s.writerStopped = true ∧ e = .refused c.id := by
  cases given with
  | turnAway closed =>
    cases told
    exact Or.inl closed
  | take found sent mail =>
    rcases conclude_eq_error told with delivered | ⟨reason, rfl⟩
    · rw [delivered] at mail
      rcases informed c (mem_callers_of_find? found).1 error mail with ⟨remote, rfl⟩ | recorded
      · cases terminal
      · exact Or.inl recorded
    · cases terminal
  | refuse found sending stopped =>
    cases told
    cases hterm : s.termination with
    | some cause => exact Or.inl (by rw [Session.cause, hterm]; rfl)
    | none =>
      refine Or.inr ⟨by rw [Session.cause, hterm]; rfl, rfl, stopped, ?_⟩
      rw [(mem_callers_of_find? found).2]
  | expire =>
    cases told
    cases terminal

/-- After the end a caller is told the cause, takes what a response left in its mailbox, or runs out
of time while its frame waits for room. -/
theorem Tells.after (given : s.Tells e c answer) (informed : s.ledger.Informed)
    {lost : UInt64 → Prop} (gone : s.Over cause lost) :
    answer = .error cause ∨ isReport answer = true ∨
      e = .expired c.id ∧ s.caller? c.id = some c ∧ c.sending = true ∧
        answer = .error (.timeout c.method c.timeout) := by
  cases given with
  | turnAway closed =>
    rw [gone.closed] at closed
    cases closed
    exact Or.inl rfl
  | @take id _ delivery found sent mail =>
    cases hanswer : conclude c.kind c.method delivery with
    | ok reply => exact Or.inr (Or.inl rfl)
    | error error =>
      rcases conclude_eq_error hanswer with delivered | ⟨reason, rfl⟩
      · rw [delivered] at mail
        rcases informed c (mem_callers_of_find? found).1 error mail with ⟨remote, rfl⟩ | recorded
        · exact Or.inr (Or.inl rfl)
        · cases gone.closed.symm.trans recorded
          exact Or.inl rfl
      · exact Or.inr (Or.inl rfl)
  | refuse =>
    rw [gone.cause_eq]
    exact Or.inl rfl
  | expire found waits =>
    obtain ⟨mem, rfl⟩ := mem_callers_of_find? found
    have hsending : c.sending = true := by
      -- every mailbox holds an answer by now
      rw [Caller.waits, Bool.or_eq_true] at waits
      refine waits.resolve_right fun hempty => ?_
      exact gone.answered c mem (Option.isNone_iff_eq_none.mp hempty)
    exact Or.inr (Or.inr ⟨rfl, found, hsending, rfl⟩)

/-- Who is answered by an event, and how. -/
theorem exists_answers (given : (s.step e).ended = s.ended ++ [(id, answer)]) :
    ∃ c, c.id = id ∧ s.Tells e c answer := by
  rcases s.ended_step e with ended | ⟨c, answer', answers, ended⟩
  · rw [ended] at given
    exact absurd given (by simp)
  · rw [ended, List.append_cancel_left_eq] at given
    cases given
    exact ⟨c, rfl, answers⟩

/-- **Terminal errors and the cause of the end.** In every run, a caller that is told a terminal
error is told the cause that the session has recorded and keeps, unless its frame is refused by a
stopped writer before a cause is recorded: then it is told that the session was closed. After the
end, a caller is told the cause, takes what a response had left in its mailbox, or runs out of time
while its frame waits for room; a call that was pending at the end has no response to take. A later
call is told the cause at once. The recorded cause is a close only if somebody asked for one. -/
theorem verdicts_run (buffer : Nat) (events : List SessionEvent) :
    let s := (fresh buffer).run events
    (∀ before e after id answer, events = before ++ e :: after →
      let t := (fresh buffer).run before
      (t.step e).ended = t.ended ++ [(id, answer)] →
        (∀ error, answer = .error error → error.isTerminal = true →
          t.termination = some error ∧ s.termination = some error ∨
            error = .closed ∧ t.termination = none ∧ t.writerStopped = true ∧
              e = .refused id) ∧
        ∀ cause, t.termination = some cause →
          answer = .error cause ∨ isReport answer = true ∨
            e = .expired id ∧ ∃ c, t.caller? id = some c ∧ c.sending = true ∧
              answer = .error (.timeout c.method c.timeout)) ∧
      (∀ before e cause between e' after id answer,
        events = before ++ e :: (between ++ e' :: after) →
        let t := (fresh buffer).run before
        let u := (t.step e).run between
        t.termination = none → t.endCause? e = some cause → t.ledger.IsPending id →
        (u.step e').ended = u.ended ++ [(id, answer)] →
          answer = .error cause ∨
            e' = .expired id ∧ ∃ c, u.caller? id = some c ∧ c.sending = true ∧
              answer = .error (.timeout c.method c.timeout)) ∧
      (∀ cause, s.termination = some cause → ∀ method kind timeout,
        (s.step (.called method kind timeout)).ended =
          s.ended ++ [(s.nextId, .error cause)]) ∧
      (s.termination = some .closed → .closeRequested ∈ events) := by
  intro s
  refine ⟨?_, ?_, ?_, (asked_run events).closed⟩
  · rintro before e after id answer rfl t given
    obtain ⟨c, rfl, answers⟩ := exists_answers given
    have informed : t.ledger.Informed := informed_run before
    constructor
    · intro error told terminal
      refine (answers.terminal informed told terminal).imp_left fun recorded => ⟨recorded, ?_⟩
      show ((fresh buffer).run (before ++ e :: after)).termination = some error
      rw [run_append]
      exact termination_run_append recorded (e :: after)
    · intro cause recorded
      rcases open_or_over_run buffer before with ⟨isOpen, -⟩ | ⟨cause', lost, gone⟩
      · cases isOpen.symm.trans recorded
      · cases gone.closed.symm.trans recorded
        refine (answers.after informed gone).imp_right (Or.imp_right ?_)
        rintro ⟨rfl, found, sending, told⟩
        exact ⟨rfl, c, found, sending, told⟩
  · rintro before e cause between e' after id answer rfl t u isOpen ends pending given
    rcases open_or_over_run buffer before with ⟨-, manned⟩ | ⟨cause', lost, gone⟩
    · exact ((over_step manned isOpen ends).run between).answer_of_lost e' given pending
    · cases isOpen.symm.trans gone.closed
  · intro cause recorded method kind timeout
    rcases open_or_over_run buffer events with ⟨isOpen, -⟩ | ⟨cause', lost, gone⟩
    · cases isOpen.symm.trans recorded
    · cases gone.closed.symm.trans recorded
      exact (gone.called method kind timeout).1

/-- The frame of a call still waits for room when the connection is lost. -/
def lateTimeout : List SessionEvent :=
  [.called "net_version" .raw (.ofSeconds 5), .connectionLost "reset", .expired 1]

/-- A frame is refused after the writer has failed and before the reader obeys. -/
def earlyRefusal : List SessionEvent :=
  [.called "net_version" .raw (.ofSeconds 5), .writeFailed "broken pipe", .refused 1, .readerObeyed]

/-- A call that is pending when the connection is lost runs out of time instead, and a session that
nobody closed reports that it was closed. -/
theorem verdicts_untrue :
    (((fresh 4).run lateTimeout).termination = some (.connectionLost "reset") ∧
        ((fresh 4).run lateTimeout).ended =
          [(1, .error (.timeout "net_version" (.ofSeconds 5)))]) ∧
      (((fresh 4).run earlyRefusal).termination = some (.connectionLost "broken pipe") ∧
        ((fresh 4).run earlyRefusal).ended = [(1, .error .closed)]) ∧
      (¬ ∀ before e after cause id, ((fresh 4).run before).termination = none →
        ((fresh 4).run before).endCause? e = some cause →
        ((fresh 4).run before).ledger.IsPending id →
        ∀ a ∈ ((fresh 4).run (before ++ e :: after)).ended, a.1 = id → a.2 = .error cause) ∧
      (¬ ∀ events cause, ((fresh 4).run events).termination = some cause →
        ∀ a ∈ ((fresh 4).run events).ended, ∀ error, a.2 = .error error →
          error.isTerminal = true → error = cause) ∧
      ¬ ∀ events, .closeRequested ∉ events →
        ∀ a ∈ ((fresh 4).run events).ended, a.2 ≠ .error .closed := by
  have late : ((fresh 4).run lateTimeout).ended =
      [(1, .error (.timeout "net_version" (.ofSeconds 5)))] := by cbv
  have early : ((fresh 4).run earlyRefusal).ended = [(1, .error .closed)] := by cbv
  have lost : ((fresh 4).run earlyRefusal).termination = some (.connectionLost "broken pipe") := by
    cbv
  have refused : (1, .error .closed) ∈ ((fresh 4).run earlyRefusal).ended := by
    rw [early]
    exact List.mem_cons_self
  refine ⟨⟨by cbv, late⟩, ⟨lost, early⟩, fun told => ?_, fun told => ?_, fun told => ?_⟩
  · have answer := told [.called "net_version" .raw (.ofSeconds 5)] (.connectionLost "reset")
      [.expired 1] (.connectionLost "reset") 1 (by cbv) (by cbv)
      ⟨⟨1, "net_version", false⟩, List.mem_cons_self, rfl⟩
    have mem : (1, .error (.timeout "net_version" (.ofSeconds 5))) ∈
        ((fresh 4).run lateTimeout).ended := by
      rw [late]
      exact List.mem_cons_self
    cases answer _ mem rfl
  · cases told earlyRefusal _ lost _ refused _ rfl rfl
  · exact told earlyRefusal (by simp [earlyRefusal]) _ refused rfl

end Session

end IstanbulMonitor
