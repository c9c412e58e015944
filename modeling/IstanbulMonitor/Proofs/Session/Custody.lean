import IstanbulMonitor.Proofs.Session.Delivery
import IstanbulMonitor.Proofs.Session.Registration

/-!
# Calls, channels and the table of subscriptions

What ties the three together in every run. A pending call that creates a subscription has a channel
(`Session.Channelled`). The receiver of the channel is there as long as somebody waits for the
answer or was answered (`Session.Holds`). A key in the table was granted by the first response to
the call it stands for (`Session.Vouched`), so nothing is dispatched to a call that was sent no
response (`Session.dispatched_eq_nil`).
-/

set_option autoImplicit false

namespace IstanbulMonitor

namespace Ledger

variable {l l' : Ledger} {n : Nat} {e : SessionEvent} {id : UInt64} {made : List Caller}

/-- Nobody waits for the answer of a call, and it was not answered with a reply. -/
structure Forsaken (l : Ledger) (id : UInt64) : Prop where
  gone : ∀ c ∈ l.callers, c.id ≠ id
  unanswered : ∀ reply, (id, .ok reply) ∉ l.ended

/-- A call that was forsaken stays so. -/
theorem Forsaken.change (h : l.Forsaken id) (sound : l.Sound n) (given : Given n id)
    (hchange : l.Change e l') (few : n + e.isCall.toNat < 2 ^ 64) : l'.Forsaken id := by
  -- another answer is no reply to this call
  have appended : ∀ {target : UInt64} {answer : Except TransportError Reply},
      (target = id → ∃ error, answer = .error error) →
      ∀ reply, (id, Except.ok reply) ∉ l.ended ++ [(target, answer)] := by
    intro target answer hanswer reply hmem
    rcases List.mem_append.mp hmem with hmem | hmem
    · exact h.unanswered reply hmem
    · obtain ⟨rfl, rfl⟩ := Prod.mk.inj (List.mem_singleton.mp hmem)
      obtain ⟨error, herror⟩ := hanswer rfl
      cases herror
  cases hchange with
  | rest => exact ⟨h.gone, h.unanswered⟩
  | turnAway =>
    exact ⟨fun c hc => h.gone c (mem_callers_dismiss.mp hc).1, appended fun _ => ⟨_, rfl⟩⟩
  | register =>
    refine ⟨fun c hc => ?_, h.unanswered⟩
    rcases List.mem_append.mp hc with hc | hc
    · exact h.gone c hc
    · rw [List.mem_singleton.mp hc]
      exact (sound.ne_nextId few given).symm
  | accept =>
    refine ⟨fun c hc => ?_, h.unanswered⟩
    obtain ⟨b, hb, rfl⟩ := mem_callers_accept.mp hc
    split <;> exact h.gone b hb
  | resolve =>
    refine ⟨fun c hc => ?_, h.unanswered⟩
    obtain ⟨b, hb, rfl⟩ := mem_callers_post.mp hc
    split <;> exact h.gone b hb
  | conclude _ _ mem _ =>
    exact ⟨fun c hc => h.gone c (mem_callers_dismiss.mp hc).1,
      appended fun hid => absurd hid (h.gone _ mem)⟩
  | fail =>
    exact ⟨fun c hc => h.gone c (mem_callers_dismiss.mp hc).1, appended fun _ => ⟨_, rfl⟩⟩
  | cancel => exact ⟨fun c hc => h.gone c (mem_callers_dismiss.mp hc).1, h.unanswered⟩
  | terminate =>
    refine ⟨fun c hc => ?_, h.unanswered⟩
    obtain ⟨b, hb, rfl⟩ := mem_callers_post.mp hc
    split <;> exact h.gone b hb

/-- The pending calls are calls that were made, and those create a subscription that were made for
one. -/
def Enrolled (l : Ledger) (made : List Caller) : Prop :=
  ∀ call ∈ l.calls, ∃ c ∈ made, c.id = call.id ∧ c.method = call.method ∧
    call.creates = (c.kind == .subscription)

/-- An event that makes no call adds none to those that are pending. -/
theorem Change.mem_calls (hchange : l.Change e l') (noCall : e.isCall = false) :
    ∀ call ∈ l'.calls, call ∈ l.calls := by
  intro call hcall
  cases hchange with
  | rest => exact hcall
  | turnAway => cases noCall
  | register => cases noCall
  | accept => exact hcall
  | resolve => exact (List.mem_filter.mp hcall).1
  | conclude => exact (List.mem_filter.mp hcall).1
  | fail => exact (List.mem_filter.mp hcall).1
  | cancel => exact (List.mem_filter.mp hcall).1
  | terminate => exact absurd hcall List.not_mem_nil

theorem Enrolled.change (h : l.Enrolled made) (hchange : l.Change e l') :
    l'.Enrolled (made ++ l.arriving e) := by
  have older : ∀ call ∈ l.calls, ∃ c ∈ made ++ l.arriving e, c.id = call.id ∧
      c.method = call.method ∧ call.creates = (c.kind == .subscription) := by
    intro call hcall
    obtain ⟨c, hc, hsame⟩ := h call hcall
    exact ⟨c, List.mem_append_left _ hc, hsame⟩
  intro call hcall
  have other : e.isCall = false → call ∈ l.calls := fun noCall =>
    hchange.mem_calls noCall call hcall
  cases hchange with
  | register =>
    rcases List.mem_append.mp hcall with hcall | hcall
    · exact older call hcall
    · rw [List.mem_singleton.mp hcall]
      exact ⟨_, List.mem_append_right _ (List.mem_singleton.mpr rfl), rfl, rfl, rfl⟩
  | turnAway => exact older call hcall
  | rest noCall => exact older call (other noCall)
  | accept => exact older call (other rfl)
  | resolve response => exact older call (other (e.isCall_of_response? response))
  | conclude noCall => exact older call (other noCall)
  | fail noCall => exact older call (other noCall)
  | cancel => exact older call (other rfl)
  | terminate noCall => exact older call (other noCall)

/-- A session that has ended stays so. -/
theorem Change.isSome_termination (hchange : l.Change e l') (closed : l.termination.isSome) :
    l'.termination.isSome := by
  cases hchange with
  | terminate => rfl
  | _ => exact closed

end Ledger

namespace Session

variable {s t : Session} {n : Nat} {e : SessionEvent} {id : UInt64} {key : String}

/-! ## The channel of a creating call -/

theorem isSome_channel?_step (there : (s.channel? id).isSome) :
    ((s.step e).channel? id).isSome := by
  have change := s.channelChange_step e id
  generalize (s.step e).channel? id = c? at change ⊢
  cases change <;> simp [there]

theorem isSome_channel?_run (there : (s.channel? id).isSome) (events : List SessionEvent) :
    ((s.run events).channel? id).isSome := by
  induction events generalizing s with
  | nil => exact there
  | cons e events ih => exact ih (isSome_channel?_step there)

/-- Every pending call that creates a subscription has a channel. -/
def Channelled (s : Session) : Prop :=
  ∀ call ∈ s.calls, call.creates = true → (s.channel? call.id).isSome

theorem Channelled.step (h : s.Channelled) (e : SessionEvent) : (s.step e).Channelled := by
  have older : ∀ call ∈ s.calls, call.creates = true → ((s.step e).channel? call.id).isSome :=
    fun call hcall creates => isSome_channel?_step (h call hcall creates)
  intro call hcall creates
  have other : e.isCall = false → ((s.step e).channel? call.id).isSome := fun noCall =>
    older call ((s.change_step e).mem_calls noCall call hcall) creates
  -- only a call can become pending, and it opens its channel in the same step
  cases e with
  | called method kind timeout =>
    cases hterm : s.termination with
    | some cause =>
      have hcalls : (s.step (.called method kind timeout)).calls = s.calls := by
        simp only [Session.step, start, hterm]
        rfl
      exact older call (hcalls ▸ hcall) creates
    | none =>
      have hcalls : (s.step (.called method kind timeout)).calls =
          s.calls ++ [⟨s.nextId, method, kind == .subscription⟩] := by
        simp only [Session.step, start, hterm]
        rfl
      rw [hcalls] at hcall
      rcases List.mem_append.mp hcall with hcall | hcall
      · exact older call hcall creates
      · obtain rfl := List.mem_singleton.mp hcall
        have hchannels : (s.step (.called method kind timeout)).channels =
            s.channels ++ [(s.nextId, Channel.make s.buffer)] := by
          simp only [Session.step, start, hterm]
          exact if_pos creates
        rw [channel?_append hchannels]
        cases s.channel? s.nextId <;> simp
  | _ => exact other rfl

/-- The receiver of a call's channel is there unless the call was forsaken. -/
def Holds (s : Session) (n : Nat) (id : UInt64) : Prop :=
  ∀ c, s.channel? id = some c → Given n id ∧ (c.receiverOpen = true ∨ s.ledger.Forsaken id)

theorem receiverOpen_receive (c : Channel) :
    c.receive.2.2.receiverOpen = c.receiverOpen := by
  simp only [Channel.receive]
  split <;> rfl

theorem Holds.step (h : s.Holds n id) (sound : s.ledger.Sound n)
    (few : n + e.isCall.toNat < 2 ^ 64) (unreleased : e ≠ .channelReleased id) :
    (s.step e).Holds (n + e.isCall.toNat) id := by
  -- a change that leaves the receiver
  have still : ∀ change : Channel → Channel, (∀ c, (change c).receiverOpen = c.receiverOpen) →
      ∀ c, (s.channel? id).map change = some c →
        Given (n + e.isCall.toNat) id ∧
          (c.receiverOpen = true ∨ (s.step e).ledger.Forsaken id) := by
    intro change same c hc
    obtain ⟨b, hb, rfl⟩ := Option.map_eq_some_iff.mp hc
    obtain ⟨given, hreceiver⟩ := h b hb
    refine ⟨given.mono (Nat.le_add_right _ _), ?_⟩
    rw [same]
    exact hreceiver.imp_right fun forsaken =>
      forsaken.change sound given (s.change_step e) few
  have change := s.channelChange_step e id
  intro c hc
  rw [hc] at change
  generalize hc' : some c = c? at change
  cases change with
  | rest => exact still (fun c => c) (fun _ => rfl) c (by simpa using hc'.symm)
  | opened _ _ call =>
    obtain ⟨hcalled, rfl⟩ := call
    cases hc'
    rw [hcalled] at few ⊢
    exact ⟨sound.given_nextId few, .inl rfl⟩
  | @sent payload => exact still (·.send payload) (fun _ => rfl) c hc'.symm
  | read => exact still (fun c => c.receive.2.2) receiverOpen_receive c hc'.symm
  | muted => exact still (·.dropSender) (fun _ => rfl) c hc'.symm
  | forsaken _ why =>
    obtain ⟨b, hb, rfl⟩ := Option.map_eq_some_iff.mp hc'.symm
    obtain ⟨given, -⟩ := h b hb
    refine ⟨given.mono (Nat.le_add_right _ _), .inr ?_⟩
    cases why with
    | released release => exact absurd release unreleased
    | left there gone unanswered =>
      refine ⟨gone, fun reply hreply => ?_⟩
      have hbefore := unanswered reply hreply
      -- a reply from before would be one to a caller that was still there, or that was yet to come
      rcases there with ⟨caller, hcaller, hid⟩ | ⟨hcalled, rfl⟩
      · exact sound.gone _ hbefore caller hcaller hid
      · rw [hcalled] at few
        exact sound.ne_nextId few given rfl

theorem isClosed_step (closed : s.isClosed = true) : (s.step e).isClosed = true :=
  (s.change_step e).isSome_termination closed

/-! ## What the table of subscriptions tells of the past -/

theorem registers?_eq_some_iff : s.registers? e = some (key, id) ↔
    s.isClosed = false ∧ ∃ outcome call, e.response? = some (id, outcome) ∧
      s.calls.find? (·.id = id) = some call ∧ call.creates = true ∧
      granted? outcome = some key := by
  unfold registers?
  cases s.isClosed with
  | true => simp
  | false =>
    simp only [Bool.false_eq_true, if_false, true_and, Option.bind_eq_some_iff, Prod.exists]
    constructor
    · rintro ⟨target, outcome, response, hregisters⟩
      split at hregisters
      · next hcreates =>
        obtain ⟨call, found, creates⟩ := (Option.any_eq_true _ _).mp hcreates
        obtain ⟨granted, hgranted, hsame⟩ := Option.map_eq_some_iff.mp hregisters
        cases hsame
        exact ⟨outcome, call, response, found, creates, hgranted⟩
      · cases hregisters
    · rintro ⟨outcome, call, response, found, creates, granted⟩
      exact ⟨id, outcome, response, by simp [found, creates, granted]⟩

/-- A key is in the table for a call whose first response granted it. -/
def Vouched (s : Session) (first : UInt64 → Option Outcome) : Prop :=
  ∀ p ∈ s.subscriptions, ∃ outcome, first p.2 = some outcome ∧ granted? outcome = some p.1

theorem Vouched.step {first : UInt64 → Option Outcome} {made : List Caller} (h : s.Vouched first)
    (sound : s.ledger.Sound n) (faithful : s.ledger.Faithful n made first) (e : SessionEvent) :
    (s.step e).Vouched fun id => (first id).or (s.ledger.reported? e id) := by
  have older : ∀ p ∈ s.subscriptions, ∃ outcome,
      (first p.2).or (s.ledger.reported? e p.2) = some outcome ∧ granted? outcome = some p.1 := by
    intro p hp
    obtain ⟨outcome, hfirst, hgranted⟩ := h p hp
    exact ⟨outcome, by rw [hfirst, Option.some_or], hgranted⟩
  have change := s.tableChange_step e
  intro p hp
  generalize (s.step e).subscriptions = table at change hp
  cases change with
  | rest => exact older p hp
  | removed => exact older p (List.mem_filter.mp hp).1
  | emptied => exact absurd hp List.not_mem_nil
  | enrolled registers =>
    rcases List.mem_append.mp hp with hp | hp
    · exact older p (List.mem_filter.mp hp).1
    · obtain rfl := List.mem_singleton.mp hp
      obtain ⟨-, outcome, call, response, found, -, granted⟩ := registers?_eq_some_iff.mp registers
      -- the call was pending, so nothing was reported for it before
      have pending := isPending_of_find? found
      refine ⟨outcome, ?_, granted⟩
      dsimp only
      rw [faithful.first_eq_none sound pending, Option.none_or]
      exact Ledger.reported?_eq_some_iff.mpr ⟨response, pending⟩

/-! ## Runs from the beginning -/

section Runs

variable {buffer : Nat} {events : List SessionEvent}

theorem vouched_run (few : events.countP SessionEvent.isCall < 2 ^ 64) :
    ((fresh buffer).run events).Vouched ((fresh buffer).firstResponse? events) := by
  induction events using List.reverseRecOn with
  | nil => exact fun p hp => absurd hp List.not_mem_nil
  | append_singleton events e ih =>
    rw [SessionEvent.countP_isCall_concat] at few
    obtain ⟨sound, faithful⟩ := Ledger.sound_faithful_run buffer events (by omega)
    rw [run_concat, funext (firstResponse?_concat (fresh buffer) events e)]
    exact (ih (by omega)).step sound faithful e

theorem enrolled_run :
    ((fresh buffer).run events).ledger.Enrolled ((fresh buffer).newcomers events) := by
  induction events using List.reverseRecOn with
  | nil => exact fun call hcall => absurd hcall List.not_mem_nil
  | append_singleton events e ih =>
    rw [run_concat, newcomers_concat]
    exact ih.change (change_step _ e)

theorem channelled_run : ((fresh buffer).run events).Channelled := by
  induction events using List.reverseRecOn with
  | nil => exact fun call hcall => absurd hcall List.not_mem_nil
  | append_singleton events e ih =>
    rw [run_concat]
    exact ih.step e

theorem holds_run (few : events.countP SessionEvent.isCall < 2 ^ 64)
    (unreleased : ∀ e ∈ events, e ≠ .channelReleased id) :
    ((fresh buffer).run events).Holds (events.countP SessionEvent.isCall) id := by
  induction events using List.reverseRecOn with
  | nil => exact fun c hc => absurd hc nofun
  | append_singleton events e ih =>
    rw [SessionEvent.countP_isCall_concat] at few ⊢
    obtain ⟨sound, -⟩ := Ledger.sound_faithful_run buffer events (by omega)
    rw [run_concat]
    exact (ih (by omega) fun x hx => unreleased x (List.mem_append_left _ hx)).step sound few
      (unreleased e (List.mem_append_right _ (List.mem_singleton.mpr rfl)))

/-- Nothing is dispatched to a call that was sent no response while it was pending. -/
theorem dispatched_eq_nil (few : events.countP SessionEvent.isCall < 2 ^ 64)
    (unheard : (fresh buffer).firstResponse? events id = none) :
    (fresh buffer).dispatched events id = [] := by
  induction events using List.reverseRecOn with
  | nil => rfl
  | append_singleton events e ih =>
    rw [SessionEvent.countP_isCall_concat] at few
    rw [firstResponse?_concat, Option.or_eq_none_iff] at unheard
    rw [dispatched_concat, ih (by omega) unheard.1]
    cases hincoming : incoming? id ((fresh buffer).run events, e) with
    | none => rfl
    | some payload =>
      obtain ⟨key, -, hfeeds⟩ := incoming?_eq_some_iff.mp hincoming
      simp only [feeds, Bool.and_eq_true, beq_iff_eq] at hfeeds
      obtain ⟨outcome, hfirst, -⟩ := vouched_run (by omega) _
        (mem_subscriptions_of_sink? hfeeds.1.2)
      cases unheard.1.symm.trans hfirst

end Runs

end Session

end IstanbulMonitor
