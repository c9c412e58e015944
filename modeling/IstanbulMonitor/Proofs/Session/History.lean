import IstanbulMonitor.Proofs.Session.Soundness

/-!
# Histories of a session

`Session.trace` lists the states that a run passes through, each with the event that happens in it.
From it are read the callers as they came (`Session.newcomers`) and the first response that a
pending call was sent (`Session.firstResponse?`). `Ledger.Faithful` is the invariant that ties
mailboxes and answers to these two.
-/

set_option autoImplicit false

namespace IstanbulMonitor

namespace Ledger

/-- The outcome that an event reports to the call with an id, if that call is pending. -/
def reported? (l : Ledger) (e : SessionEvent) (id : UInt64) : Option Outcome :=
  match e.response? with
  | some (target, outcome) =>
    if target = id ∧ l.calls.any (·.id = id) then some outcome else none
  | none => none

/-- The caller that comes with an event. -/
def arriving (l : Ledger) : SessionEvent → List Caller
  | .called method kind timeout => [l.newcomer method kind timeout]
  | _ => []

variable {l l' : Ledger} {n : Nat} {e : SessionEvent} {id : UInt64} {outcome : Outcome}

theorem any_calls_iff : l.calls.any (·.id = id) = true ↔ l.IsPending id := by
  simp [IsPending, List.any_eq_true]

theorem reported?_eq_some_iff :
    l.reported? e id = some outcome ↔ e.response? = some (id, outcome) ∧ l.IsPending id := by
  unfold reported?
  cases hresp : e.response? with
  | none => simp
  | some r =>
    obtain ⟨target, reported⟩ := r
    simp only [Option.some.injEq, Prod.mk.injEq]
    constructor
    · intro h
      split at h
      case isTrue hpending =>
        exact ⟨⟨hpending.1, Option.some.inj h⟩, any_calls_iff.mp hpending.2⟩
      case isFalse => cases h
    · rintro ⟨⟨rfl, rfl⟩, hpending⟩
      rw [if_pos ⟨rfl, any_calls_iff.mpr hpending⟩]

theorem reported?_of_response?_eq_none (h : e.response? = none) : l.reported? e id = none := by
  unfold reported?
  rw [h]

theorem arriving_of_isCall_eq_false (h : e.isCall = false) : l.arriving e = [] := by
  cases e <;> first | rfl | simp [SessionEvent.isCall] at h

end Ledger

namespace Session

/-- The states that a run passes through, each with the event that happens in it. -/
def trace : Session → List SessionEvent → List (Session × SessionEvent)
  | _, [] => []
  | s, e :: events => (s, e) :: trace (s.step e) events

/-- The callers of a run as they came. -/
def newcomers (s : Session) (events : List SessionEvent) : List Caller :=
  (s.trace events).flatMap fun p => p.1.ledger.arriving p.2

/-- The outcome of the first response that the call with an id was sent while it was pending. -/
def firstResponse? (s : Session) (events : List SessionEvent) (id : UInt64) : Option Outcome :=
  (s.trace events).findSome? fun p => p.1.ledger.reported? p.2 id

theorem trace_append (s : Session) (before after : List SessionEvent) :
    s.trace (before ++ after) = s.trace before ++ (s.run before).trace after := by
  induction before generalizing s with
  | nil => rfl
  | cons e before ih => simp only [List.cons_append, trace, run, List.foldl_cons, ih]

theorem newcomers_concat (s : Session) (events : List SessionEvent) (e : SessionEvent) :
    s.newcomers (events ++ [e]) = s.newcomers events ++ (s.run events).ledger.arriving e := by
  simp [newcomers, trace_append, trace]

theorem firstResponse?_concat (s : Session) (events : List SessionEvent) (e : SessionEvent)
    (id : UInt64) :
    s.firstResponse? (events ++ [e]) id =
      (s.firstResponse? events id).or ((s.run events).ledger.reported? e id) := by
  simp [firstResponse?, trace_append, trace]

theorem run_concat (s : Session) (events : List SessionEvent) (e : SessionEvent) :
    s.run (events ++ [e]) = (s.run events).step e := run_append s events [e]

/-- Whether a call ended with what a response reports: a result, also one that its caller cannot
read, or an error of the node. -/
def isReport : Except TransportError Reply → Bool
  | .ok _ => true
  | .error (.remote _) => true
  | .error (.decode _ _) => true
  | .error _ => false

theorem isReport_of_isTerminal {cause : TransportError} (h : cause.isTerminal = true) :
    isReport (.error cause) = false := by
  cases cause <;> first | rfl | simp [TransportError.isTerminal] at h

end Session

namespace Ledger

open Session (isReport conclude)

variable {l l' : Ledger} {n : Nat} {e : SessionEvent} {id : UInt64} {outcome : Outcome}
  {made : List Caller} {first : UInt64 → Option Outcome}

theorem isReport_of_isLocal (h : l.Sound n) {error : TransportError} (isLocal : l.IsLocal error) :
    isReport (.error error) = false := by
  cases isLocal with
  | cause =>
    cases hterm : l.termination with
    | none => rfl
    | some cause => exact Session.isReport_of_isTerminal (h.terminal cause hterm)
  | timeout method after => rfl

/-- What mailboxes and answers tell of the past: of the callers that came, and of the first response
that each pending call was sent. -/
structure Faithful (l : Ledger) (n : Nat) (made : List Caller)
    (first : UInt64 → Option Outcome) : Prop where
  origin : ∀ c ∈ l.callers, ∃ b ∈ made, b.id = c.id ∧ b.kind = c.kind ∧ b.method = c.method
  given : ∀ id outcome, first id = some outcome → Given n id
  mail_of_first : ∀ c ∈ l.callers, ∀ outcome, first c.id = some outcome →
    c.mail = some (outcome.mapError .remote)
  cause_of_mail : ∀ c ∈ l.callers, first c.id = none → ∀ delivery, c.mail = some delivery →
    ∃ cause, delivery = .error cause ∧ isReport (.error cause) = false
  own : ∀ a ∈ l.ended, isReport a.2 = true → ∃ c ∈ made, c.id = a.1 ∧
    ∃ outcome, first a.1 = some outcome ∧
      a.2 = conclude c.kind c.method (outcome.mapError .remote)

namespace Faithful

/-- A pending call was not sent a response yet. -/
theorem first_eq_none (h : l.Faithful n made first) (sound : l.Sound n)
    (pending : l.IsPending id) : first id = none := by
  obtain ⟨c, hc, rfl, hmail⟩ := (sound.pending_iff id).mp pending
  cases hfirst : first c.id with
  | none => rfl
  | some outcome =>
    have := h.mail_of_first c hc outcome hfirst
    simp [hmail] at this

/-- Callers may leave. -/
theorem fewer (h : l.Faithful n made first) (callers : ∀ c ∈ l'.callers, c ∈ l.callers)
    (ended : l'.ended = l.ended) : l'.Faithful n made first where
  origin c hc := h.origin c (callers c hc)
  given := h.given
  mail_of_first c hc := h.mail_of_first c (callers c hc)
  cause_of_mail c hc := h.cause_of_mail c (callers c hc)
  own a ha := h.own a (ended ▸ ha)

theorem leave (h : l.Faithful n made first) (id : UInt64) :
    ((l.strike id).dismiss id).Faithful n made first :=
  h.fewer (fun _ hc => (mem_callers_dismiss.mp hc).1) rfl

theorem answer (h : l.Faithful n made first) {result : Except TransportError Reply}
    (told : isReport result = true → ∃ c ∈ made, c.id = id ∧
      ∃ outcome, first id = some outcome ∧
        result = conclude c.kind c.method (outcome.mapError .remote)) :
    (l.answer id result).Faithful n made first :=
  { h with
    own := fun a ha hreport => by
      rcases List.mem_append.mp ha with ha | ha
      · exact h.own a ha hreport
      · rw [List.mem_singleton.mp ha] at hreport ⊢
        exact told hreport }

/-- A caller that takes what its mailbox holds ends with the first response to its call. -/
theorem told_of_mail (h : l.Faithful n made first) {c : Caller} {delivery : Delivery}
    (hc : c ∈ l.callers) (mail : c.mail = some delivery)
    (hreport : isReport (conclude c.kind c.method delivery) = true) :
    ∃ b ∈ made, b.id = c.id ∧ ∃ outcome, first c.id = some outcome ∧
      conclude c.kind c.method delivery =
        conclude b.kind b.method (outcome.mapError .remote) := by
  obtain ⟨b, hb, hid, hkind, hmethod⟩ := h.origin c hc
  refine ⟨b, hb, hid, ?_⟩
  rw [hkind, hmethod]
  cases hfirst : first c.id with
  | some outcome =>
    have := h.mail_of_first c hc outcome hfirst
    rw [mail, Option.some.injEq] at this
    exact ⟨outcome, rfl, by rw [this]⟩
  | none =>
    obtain ⟨cause, rfl, hcause⟩ := h.cause_of_mail c hc hfirst delivery mail
    rw [conclude, hcause] at hreport
    cases hreport

theorem mono (h : l.Faithful n made first) {m : Nat} (hnm : n ≤ m) (more : List Caller) :
    l.Faithful m (made ++ more) first where
  origin c hc := by
    obtain ⟨b, hb, hsame⟩ := h.origin c hc
    exact ⟨b, List.mem_append_left _ hb, hsame⟩
  given id outcome hfirst := (h.given id outcome hfirst).mono hnm
  mail_of_first := h.mail_of_first
  cause_of_mail := h.cause_of_mail
  own a ha hreport := by
    obtain ⟨c, hc, rest⟩ := h.own a ha hreport
    exact ⟨c, List.mem_append_left _ hc, rest⟩

theorem register (h : l.Faithful n made first) (sound : l.Sound n) (few : n + 1 < 2 ^ 64)
    (method : String) (kind : CallKind) (timeout : Span) :
    (l.register method kind timeout).Faithful (n + 1) (made ++ [l.newcomer method kind timeout])
      first := by
  have grown := h.mono n.le_succ [l.newcomer method kind timeout]
  have mem_cases : ∀ {c : Caller}, c ∈ (l.register method kind timeout).callers →
      c ∈ l.callers ∨ c = l.newcomer method kind timeout := fun hc =>
    (List.mem_append.mp hc).imp id List.mem_singleton.mp
  -- no response carried the next id before it was handed out
  have unheard : first l.nextId = none := by
    cases hfirst : first l.nextId with
    | none => rfl
    | some outcome => exact absurd rfl (sound.ne_nextId few (h.given _ _ hfirst))
  exact
    { given := grown.given
      own := grown.own
      origin := fun c hc => by
        rcases mem_cases hc with hc | rfl
        · exact grown.origin c hc
        · exact ⟨_, List.mem_append_right _ (List.mem_singleton.mpr rfl), rfl, rfl, rfl⟩
      mail_of_first := fun c hc outcome hfirst => by
        rcases mem_cases hc with hc | rfl
        · exact h.mail_of_first c hc outcome hfirst
        · cases unheard.symm.trans hfirst
      cause_of_mail := fun c hc hfirst delivery hmail => by
        rcases mem_cases hc with hc | rfl
        · exact h.cause_of_mail c hc hfirst delivery hmail
        · cases hmail }

theorem accept (h : l.Faithful n made first) (id : UInt64) :
    (l.accept id).Faithful n made first where
  given := h.given
  own := h.own
  origin c hc := by
    obtain ⟨b, hb, rfl⟩ := mem_callers_accept.mp hc
    split <;> exact h.origin b hb
  mail_of_first c hc := by
    obtain ⟨b, hb, rfl⟩ := mem_callers_accept.mp hc
    split <;> exact h.mail_of_first b hb
  cause_of_mail c hc := by
    obtain ⟨b, hb, rfl⟩ := mem_callers_accept.mp hc
    split <;> exact h.cause_of_mail b hb

/-- A response to a pending call becomes the first one, and its caller's mailbox holds it. -/
theorem resolve (h : l.Faithful n made first) (sound : l.Sound n)
    (response : e.response? = some (id, outcome)) (pending : l.IsPending id)
    (subscriptions : List (String × UInt64)) :
    (((l.strike id).keep subscriptions).post [id] (outcome.mapError .remote)).Faithful n made
      (fun id' => (first id').or (l.reported? e id')) := by
  have unheard := h.first_eq_none sound pending
  have reported : l.reported? e id = some outcome := reported?_eq_some_iff.mpr ⟨response, pending⟩
  have silent : ∀ id', id' ≠ id → l.reported? e id' = none := by
    intro id' hne
    cases hrep : l.reported? e id' with
    | none => rfl
    | some outcome' =>
      have hresp := (reported?_eq_some_iff.mp hrep).1
      rw [response, Option.some.injEq, Prod.mk.injEq] at hresp
      exact absurd hresp.1.symm hne
  exact
    { origin := fun c hc => by
        obtain ⟨b, hb, rfl⟩ := mem_callers_post.mp hc
        split <;> exact h.origin b hb
      given := fun id' outcome' hfirst => by
        by_cases hid : id' = id
        · exact hid ▸ sound.given_pending pending
        · rw [silent id' hid, Option.or_none] at hfirst
          exact h.given id' outcome' hfirst
      mail_of_first := fun c hc outcome' hfirst => by
        obtain ⟨b, hb, rfl⟩ := mem_callers_post.mp hc
        by_cases hid : b.id ∈ [id]
        · rw [if_pos hid] at hfirst ⊢
          rw [List.mem_singleton] at hid
          simp only [hid, unheard, reported, Option.none_or, Option.some.injEq] at hfirst
          rw [hfirst]
        · rw [if_neg hid] at hfirst ⊢
          rw [List.mem_singleton] at hid
          rw [silent b.id hid, Option.or_none] at hfirst
          exact h.mail_of_first b hb outcome' hfirst
      cause_of_mail := fun c hc hfirst delivery hmail => by
        obtain ⟨b, hb, rfl⟩ := mem_callers_post.mp hc
        by_cases hid : b.id ∈ [id]
        · rw [if_pos hid] at hfirst
          rw [List.mem_singleton] at hid
          simp [hid, reported] at hfirst
        · rw [if_neg hid] at hfirst hmail
          rw [Option.or_eq_none_iff] at hfirst
          exact h.cause_of_mail b hb hfirst.1 delivery hmail
      own := fun a ha hreport => by
        obtain ⟨c, hc, hid, outcome', hfirst, hresult⟩ := h.own a ha hreport
        exact ⟨c, hc, hid, outcome', by rw [hfirst, Option.some_or], hresult⟩ }

theorem terminate (h : l.Faithful n made first) (sound : l.Sound n) {cause : TransportError}
    (terminal : cause.isTerminal = true) : (l.terminate cause).Faithful n made first where
  given := h.given
  own := h.own
  origin c hc := by
    obtain ⟨b, hb, rfl⟩ := mem_callers_post.mp hc
    split <;> exact h.origin b hb
  mail_of_first c hc outcome hfirst := by
    obtain ⟨b, hb, rfl⟩ := mem_callers_post.mp hc
    by_cases hid : b.id ∈ l.calls.map (·.id)
    · rw [if_pos hid] at hfirst
      obtain ⟨call, hcall, hcallid⟩ := List.mem_map.mp hid
      rw [h.first_eq_none sound ⟨call, hcall, hcallid⟩] at hfirst
      cases hfirst
    · rw [if_neg hid] at hfirst ⊢
      exact h.mail_of_first b hb outcome hfirst
  cause_of_mail c hc hfirst delivery hmail := by
    obtain ⟨b, hb, rfl⟩ := mem_callers_post.mp hc
    by_cases hid : b.id ∈ l.calls.map (·.id)
    · rw [if_pos hid, Option.some.injEq] at hmail
      exact ⟨cause, hmail.symm, Session.isReport_of_isTerminal terminal⟩
    · rw [if_neg hid] at hfirst hmail
      exact h.cause_of_mail b hb hfirst delivery hmail

/-- Every change keeps a ledger faithful to a past that grows by its event. -/
theorem change (h : l.Faithful n made first) (sound : l.Sound n) (hchange : l.Change e l')
    (few : n + e.isCall.toNat < 2 ^ 64) :
    l'.Faithful (n + e.isCall.toNat) (made ++ l.arriving e)
      (fun id => (first id).or (l.reported? e id)) := by
  -- only a response to a pending call adds to the past of a call
  have still : (∀ id, l.reported? e id = none) →
      (fun id => (first id).or (l.reported? e id)) = first := fun hnone =>
    funext fun id => by rw [hnone id, Option.or_none]
  have quiet (hresp : e.response? = none) := still fun id => reported?_of_response?_eq_none hresp
  have unmade (hcall : e.isCall = false) : made ++ l.arriving e = made := by
    rw [arriving_of_isCall_eq_false hcall, List.append_nil]
  cases hchange with
  | rest noCall idle fewer =>
    rw [noCall, unmade noCall, still]
    · exact { h with }
    · intro id
      cases hrep : l.reported? e id with
      | none => rfl
      | some outcome =>
        obtain ⟨hresp, hpending⟩ := reported?_eq_some_iff.mp hrep
        rcases idle id outcome hresp with hclosed | hidle
        · obtain ⟨call, hcall, -⟩ := hpending
          rw [sound.drained hclosed] at hcall
          exact absurd hcall List.not_mem_nil
        · exact absurd hpending hidle
  | turnAway closed =>
    rw [quiet rfl]
    have left : (l.advance.dismiss l.nextId).Faithful n made first :=
      h.fewer (fun _ hc => (mem_callers_dismiss.mp hc).1) rfl
    refine (left.mono n.le_succ _).answer fun hreport => ?_
    rw [Session.isReport_of_isTerminal (sound.terminal _ closed)] at hreport
    cases hreport
  | register isOpen =>
    rw [quiet rfl]
    exact h.register sound few _ _ _
  | accept =>
    rw [quiet rfl, unmade rfl]
    exact h.accept _
  | resolve response pending known =>
    rw [e.isCall_of_response? response, unmade (e.isCall_of_response? response)]
    exact h.resolve sound response pending _
  | conclude noCall noResponse mem mail =>
    rw [noCall, unmade noCall, quiet noResponse]
    exact (h.leave _).answer (h.told_of_mail mem mail)
  | fail noCall noResponse mem isLocal =>
    rw [noCall, unmade noCall, quiet noResponse]
    refine (h.leave _).answer fun hreport => ?_
    rw [isReport_of_isLocal sound isLocal] at hreport
    cases hreport
  | cancel =>
    rw [quiet rfl, unmade rfl]
    exact h.leave _
  | terminate noCall noResponse _ terminal =>
    rw [noCall, unmade noCall, quiet noResponse]
    exact h.terminate sound terminal

end Faithful

end Ledger

end IstanbulMonitor
