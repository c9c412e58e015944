import IstanbulMonitor.Proofs.Session.History
import Mathlib

/-!
# Calls and their answers

In every run of a session with fewer than `2 ^ 64` calls, each call has an id of its own, is
resolved at most once and ends at most once. A call that ends with what a response reports ends
with the first response that carried its id while it was pending, and a frame that is no response
to a pending call leaves that call alone (`Session.correlates_run`).
-/

set_option autoImplicit false

namespace IstanbulMonitor

namespace SessionEvent

/-- Whether an event is a frame of the peer that arrives. -/
def isFrame : SessionEvent → Bool
  | .textArrived _ => true
  | .bytesArrived => true
  | _ => false

theorem countP_isCall_cons (e : SessionEvent) (events : List SessionEvent) :
    (e :: events).countP isCall = events.countP isCall + e.isCall.toNat := by
  cases he : e.isCall <;> simp [he]

theorem countP_isCall_concat (events : List SessionEvent) (e : SessionEvent) :
    (events ++ [e]).countP isCall = events.countP isCall + e.isCall.toNat := by
  cases he : e.isCall <;> simp [List.countP_append, he]

end SessionEvent

namespace Session

/-- What the mailbox of a call's caller holds. -/
def mail? (s : Session) (id : UInt64) : Option Delivery := (s.caller? id).bind (·.mail)

/-- Whether an event that happens in a state resolves a call: something new is in the mailbox of
its caller afterwards. -/
def Resolves (p : Session × SessionEvent) (id : UInt64) : Prop :=
  (p.1.step p.2).mail? id ≠ p.1.mail? id ∧ (p.1.step p.2).mail? id ≠ none

/-- Everything a session has of a call: its pending entry, its caller and its channel. -/
def holding (s : Session) (id : UInt64) : Option PendingCall × Option Caller × Option Channel :=
  (s.calls.find? (·.id = id), s.caller? id, s.channel? id)

/-- What a run owes to its calls. -/
structure Correlates (s : Session) (events : List SessionEvent) : Prop where
  /-- No two calls have the same id. -/
  distinct : ((s.newcomers events).map (·.id)).Nodup
  /-- A call is pending exactly while its caller is there with an empty mailbox. -/
  pending : ∀ p ∈ s.trace events, ∀ id,
    p.1.ledger.IsPending id ↔ ∃ c ∈ p.1.callers, c.id = id ∧ c.mail = none
  /-- Of two events of the run, not both resolve the same call. -/
  once : (s.trace events).Pairwise fun p q => ∀ id, Resolves p id → ¬ Resolves q id
  /-- No call ends twice. -/
  ends : ((s.run events).ended.map (·.1)).Nodup
  /-- A call that ends with what a response reports ends with the first response that carried its
  id while it was pending, read as its caller wants it. -/
  own : ∀ a ∈ (s.run events).ended, isReport a.2 = true → ∃ c ∈ s.newcomers events, c.id = a.1 ∧
    ∃ outcome, s.firstResponse? events a.1 = some outcome ∧
      a.2 = conclude c.kind c.method (outcome.mapError .remote)
  /-- A caller that is still there finds that response in its mailbox. -/
  delivered : ∀ c ∈ (s.run events).callers, ∀ outcome,
    s.firstResponse? events c.id = some outcome → c.mail = some (outcome.mapError .remote)
  /-- A frame that is no response to a pending call leaves the call as it was. -/
  undisturbed : ∀ p ∈ s.trace events, p.2.isFrame = true → ∀ id, p.1.ledger.IsPending id →
    p.1.ledger.reported? p.2 id = none → (p.1.step p.2).holding id = p.1.holding id

end Session

/-! ## Runs stay sound and faithful -/

namespace Ledger

variable {s : Session} {n : Nat}

/-- The states of a run are sound, each for the number of calls made before it. -/
theorem Sound.of_mem_trace (h : s.ledger.Sound n) (events : List SessionEvent)
    (few : n + events.countP SessionEvent.isCall < 2 ^ 64) :
    ∀ p ∈ s.trace events, ∃ m, n ≤ m ∧ m + p.2.isCall.toNat < 2 ^ 64 ∧ p.1.ledger.Sound m := by
  induction events generalizing s n with
  | nil => exact fun p hp => absurd hp List.not_mem_nil
  | cons e events ih =>
    rw [SessionEvent.countP_isCall_cons] at few
    intro p hp
    rcases List.mem_cons.mp hp with rfl | hp
    · exact ⟨n, Nat.le_refl n, by show n + e.isCall.toNat < _; omega, h⟩
    · obtain ⟨m, hm, hfew, hsound⟩ :=
        ih (h.change (s.change_step e) (by omega)) (by omega) p hp
      exact ⟨m, by omega, hfew, hsound⟩

/-- A run from the beginning ends with a sound ledger that is faithful to its past. -/
theorem sound_faithful_run (buffer : Nat) (events : List SessionEvent)
    (few : events.countP SessionEvent.isCall < 2 ^ 64) :
    ((Session.fresh buffer).run events).ledger.Sound (events.countP SessionEvent.isCall) ∧
      ((Session.fresh buffer).run events).ledger.Faithful (events.countP SessionEvent.isCall)
        ((Session.fresh buffer).newcomers events)
        ((Session.fresh buffer).firstResponse? events) := by
  induction events using List.reverseRecOn with
  | nil =>
    refine ⟨sound_fresh buffer, ?_⟩
    exact
      { origin := fun c hc => absurd hc List.not_mem_nil
        given := fun id outcome h => absurd h (by simp [Session.firstResponse?, Session.trace])
        mail_of_first := fun c hc => absurd hc List.not_mem_nil
        cause_of_mail := fun c hc => absurd hc List.not_mem_nil
        own := fun a ha => absurd ha List.not_mem_nil }
  | append_singleton events e ih =>
    rw [SessionEvent.countP_isCall_concat] at few ⊢
    obtain ⟨sound, faithful⟩ := ih (by omega)
    have hchange := ((Session.fresh buffer).run events).change_step e
    rw [Session.run_concat, Session.newcomers_concat,
      funext (Session.firstResponse?_concat (Session.fresh buffer) events e)]
    exact ⟨sound.change hchange few, faithful.change sound hchange few⟩

end Ledger

namespace Session

open Ledger (Sound Change)

variable {s : Session} {n : Nat} {e : SessionEvent}

/-! ## Ids -/

/-- Calls that are made later have later ids. -/
theorem lt_id_of_mem_newcomers (h : s.ledger.Sound n) (events : List SessionEvent)
    (few : n + events.countP SessionEvent.isCall < 2 ^ 64) :
    ∀ c ∈ s.newcomers events, n < c.id.toNat := by
  intro c hc
  obtain ⟨p, hp, hc⟩ := List.mem_flatMap.mp hc
  obtain ⟨m, hm, hfew, sound⟩ := h.of_mem_trace events few p hp
  obtain ⟨t, e⟩ := p
  cases e <;> simp only [Ledger.arriving, List.not_mem_nil, List.mem_singleton] at hc
  case called method kind timeout =>
    subst hc
    show n < t.ledger.nextId.toNat
    rw [sound.toNat_nextId hfew]
    omega

theorem nodup_newcomers (h : s.ledger.Sound n) (events : List SessionEvent)
    (few : n + events.countP SessionEvent.isCall < 2 ^ 64) :
    ((s.newcomers events).map (·.id)).Nodup := by
  induction events generalizing s n with
  | nil => exact List.nodup_nil
  | cons e events ih =>
    have hsplit : s.newcomers (e :: events) =
        s.ledger.arriving e ++ (s.step e).newcomers events := by
      simp [newcomers, trace]
    rw [hsplit, List.map_append]
    rw [SessionEvent.countP_isCall_cons] at few
    have sound := h.change (s.change_step e) (by omega)
    have later := lt_id_of_mem_newcomers sound events (by omega)
    have rest := ih sound (by omega)
    cases e <;> try exact rest
    case called method kind timeout =>
      -- the ids after this one are larger
      refine List.nodup_cons.mpr ⟨fun hmem => ?_, rest⟩
      obtain ⟨c, hc, hid⟩ := List.mem_map.mp hmem
      have hlater := later c hc
      simp only [SessionEvent.isCall, Bool.toNat_true] at few hlater
      have hnext : c.id.toNat = n + 1 := hid ▸ h.toNat_nextId (by omega)
      omega

/-! ## Resolutions -/

theorem mail?_eq_some_iff (h : s.ledger.Sound n) {id : UInt64} {delivery : Delivery} :
    s.mail? id = some delivery ↔ ∃ c ∈ s.ledger.callers, c.id = id ∧ c.mail = some delivery := by
  unfold mail? caller?
  constructor
  · intro hmail
    obtain ⟨c, hc, hmail⟩ := Option.bind_eq_some_iff.mp hmail
    obtain ⟨mem, hid⟩ := mem_callers_of_find? hc
    exact ⟨c, mem, hid, hmail⟩
  · rintro ⟨c, hc, rfl, hmail⟩
    cases hfind : s.callers.find? (·.id = c.id) with
    | none => exact absurd (List.find?_eq_none.mp hfind c hc) (by simp)
    | some b =>
      obtain ⟨hb, hid⟩ := mem_callers_of_find? hfind
      rw [h.caller_ext hb hc hid]
      exact hmail

end Session

namespace Ledger

variable {l l' : Ledger} {n : Nat} {e : SessionEvent}

/-- A caller after a change was there before with the same mailbox, has an empty mailbox, or was
pending. -/
theorem Change.caller_cases (h : l.Change e l') {c : Caller} (hc : c ∈ l'.callers) :
    (∃ b ∈ l.callers, b.id = c.id ∧ b.mail = c.mail) ∨ c.mail = none ∨ l.IsPending c.id := by
  have same : c ∈ l.callers → ∃ b ∈ l.callers, b.id = c.id ∧ b.mail = c.mail :=
    fun hc => ⟨c, hc, rfl, rfl⟩
  have posted : ∀ (ids : List UInt64) (delivery : Delivery), (∀ id ∈ ids, l.IsPending id) →
      c ∈ (l.post ids delivery).callers →
      (∃ b ∈ l.callers, b.id = c.id ∧ b.mail = c.mail) ∨ c.mail = none ∨ l.IsPending c.id := by
    intro ids delivery hids hc
    obtain ⟨b, hb, rfl⟩ := mem_callers_post.mp hc
    by_cases hid : b.id ∈ ids
    · rw [if_pos hid]
      exact Or.inr (Or.inr (hids b.id hid))
    · rw [if_neg hid]
      exact Or.inl ⟨b, hb, rfl, rfl⟩
  cases h with
  | rest => exact Or.inl (same hc)
  | turnAway => exact Or.inl (same (mem_callers_dismiss.mp hc).1)
  | register =>
    rcases List.mem_append.mp hc with hc | hc
    · exact Or.inl (same hc)
    · rw [List.mem_singleton.mp hc]
      exact Or.inr (Or.inl rfl)
  | accept =>
    obtain ⟨b, hb, rfl⟩ := mem_callers_accept.mp hc
    exact Or.inl ⟨b, hb, by split <;> rfl, by split <;> rfl⟩
  | @resolve _ id outcome _ _ pending _ =>
    refine posted [id] (outcome.mapError .remote) (fun id' hid => ?_) hc
    rw [List.mem_singleton.mp hid]
    exact pending
  | conclude => exact Or.inl (same (mem_callers_dismiss.mp hc).1)
  | fail => exact Or.inl (same (mem_callers_dismiss.mp hc).1)
  | cancel => exact Or.inl (same (mem_callers_dismiss.mp hc).1)
  | @terminate _ cause _ _ _ _ =>
    refine posted (l.calls.map PendingCall.id) (.error cause) (fun id hid => ?_) hc
    obtain ⟨call, hcall, rfl⟩ := List.mem_map.mp hid
    exact ⟨call, hcall, rfl⟩

/-- A call that is pending after a change was pending before, or was made now. -/
theorem Change.isPending_cases (h : l.Change e l') {id : UInt64} (pending : l'.IsPending id) :
    l.IsPending id ∨ (e.isCall = true ∧ id = l.nextId) := by
  cases h with
  | rest => exact Or.inl pending
  | turnAway => exact Or.inl pending
  | register =>
    exact ((isPending_register _ _ _ id).mp pending).imp (fun h => h) fun h => ⟨rfl, h⟩
  | accept => exact Or.inl pending
  | resolve => exact Or.inl ((isPending_strike id).mp pending).1
  | conclude => exact Or.inl ((isPending_strike id).mp pending).1
  | fail => exact Or.inl ((isPending_strike id).mp pending).1
  | cancel => exact Or.inl ((isPending_strike id).mp pending).1
  | terminate =>
    obtain ⟨call, hcall, -⟩ := pending
    exact absurd hcall List.not_mem_nil

/-- A call that was made and is not pending will not be pending again. -/
theorem Sound.not_isPending_change (h : l.Sound n) (hchange : l.Change e l')
    (few : n + e.isCall.toNat < 2 ^ 64) {id : UInt64} (given : Given n id)
    (idle : ¬ l.IsPending id) : ¬ l'.IsPending id := by
  intro pending
  rcases hchange.isPending_cases pending with hp | ⟨hcall, hid⟩
  · exact idle hp
  · rw [hcall] at few
    exact h.ne_nextId few given hid

end Ledger

namespace Session

variable {s : Session} {n : Nat} {e : SessionEvent} {id : UInt64}

/-- Only a pending call is resolved, and then it is pending no more. -/
theorem Resolves.isPending (h : s.ledger.Sound n) (few : n + e.isCall.toNat < 2 ^ 64)
    (resolves : Resolves (s, e) id) :
    s.ledger.IsPending id ∧ ¬ (s.step e).ledger.IsPending id := by
  obtain ⟨hnew, hsome⟩ := resolves
  obtain ⟨delivery, hmail⟩ := Option.ne_none_iff_exists'.mp hsome
  have sound := h.change (s.change_step e) few
  obtain ⟨c, hc, rfl, hcmail⟩ := (mail?_eq_some_iff sound).mp hmail
  refine ⟨?_, fun pending => ?_⟩
  · rcases (s.change_step e).caller_cases hc with ⟨b, hb, hid, hbmail⟩ | hempty | pending
    · have hold := (mail?_eq_some_iff h).mpr ⟨b, hb, hid, hbmail.trans hcmail⟩
      exact absurd (hmail.trans hold.symm) hnew
    · cases hcmail.symm.trans hempty
    · exact pending
  · cases hcmail.symm.trans (sound.mail_of_pending hc pending)

/-- A call that was made and is not pending is not resolved any more. -/
theorem not_resolves_of_not_isPending (h : s.ledger.Sound n) (events : List SessionEvent)
    (few : n + events.countP SessionEvent.isCall < 2 ^ 64) (given : Given n id)
    (idle : ¬ s.ledger.IsPending id) : ∀ q ∈ s.trace events, ¬ Resolves q id := by
  induction events generalizing s n with
  | nil => exact fun q hq => absurd hq List.not_mem_nil
  | cons e events ih =>
    rw [SessionEvent.countP_isCall_cons] at few
    have hfew : n + e.isCall.toNat < 2 ^ 64 := by omega
    have hchange := s.change_step e
    intro q hq
    rcases List.mem_cons.mp hq with rfl | hq
    · exact fun resolves => idle (resolves.isPending h hfew).1
    · exact ih (h.change hchange hfew) (by omega) (given.mono (Nat.le_add_right n _))
        (h.not_isPending_change hchange hfew given idle) q hq

theorem pairwise_resolves (h : s.ledger.Sound n) (events : List SessionEvent)
    (few : n + events.countP SessionEvent.isCall < 2 ^ 64) :
    (s.trace events).Pairwise fun p q => ∀ id, Resolves p id → ¬ Resolves q id := by
  induction events generalizing s n with
  | nil => exact List.Pairwise.nil
  | cons e events ih =>
    rw [SessionEvent.countP_isCall_cons] at few
    have hfew : n + e.isCall.toNat < 2 ^ 64 := by omega
    have sound := h.change (s.change_step e) hfew
    refine List.pairwise_cons.mpr ⟨fun q hq id resolves => ?_, ih sound (by omega)⟩
    obtain ⟨pending, idle⟩ := resolves.isPending h hfew
    exact not_resolves_of_not_isPending sound events (by omega)
      ((h.given_pending pending).mono (Nat.le_add_right n _)) idle q hq

/-! ## Frames that concern other calls -/

/-- Changing the entries of one key, but not the key, leaves the entry of another key. -/
theorem find?_map_of_ne {α : Type} (key : α → UInt64) (change : α → α)
    (same : ∀ a, key (change a) = key a) {target : UInt64} (hne : id ≠ target) (entries : List α) :
    (entries.map fun a => if key a = target then change a else a).find? (key · = id) =
      entries.find? (key · = id) := by
  induction entries with
  | nil => rfl
  | cons a entries ih =>
    rw [List.map_cons, List.find?_cons, List.find?_cons, ih]
    by_cases htarget : key a = target
    · simp [htarget, same, hne.symm]
    · simp [htarget]

theorem channel?_mapChannel_ne {target : UInt64} (hne : id ≠ target)
    (change : Channel → Channel) : (s.mapChannel target change).channel? id = s.channel? id :=
  congrArg (Option.map Prod.snd)
    (find?_map_of_ne Prod.fst (fun c => (c.1, change c.2)) (fun _ => rfl) hne s.channels)

theorem holding_measure (change : Metrics → Metrics) :
    (s.measure change).holding id = s.holding id := rfl

theorem holding_mapChannel_ne {target : UInt64} (hne : id ≠ target)
    (change : Channel → Channel) : (s.mapChannel target change).holding id = s.holding id := by
  unfold holding
  rw [channel?_mapChannel_ne hne]
  rfl

theorem holding_deliver_ne {target : UInt64} (hne : id ≠ target) (delivery : Delivery) :
    (s.deliver target delivery).holding id = s.holding id := by
  have hcaller : (s.deliver target delivery).caller? id = s.caller? id :=
    find?_map_of_ne Caller.id (fun c => { c with mail := some delivery }) (fun _ => rfl) hne
      s.callers
  unfold holding
  rw [hcaller]
  rfl

/-- Taking the entry of one call out of the table leaves the others there. -/
theorem holding_strike_ne {target : UInt64} (hne : id ≠ target) :
    ({ s with calls := s.calls.filter (·.id ≠ target) }.measure Metrics.callEnded).holding id =
      s.holding id := by
  have hcalls : (s.calls.filter (·.id ≠ target)).find? (·.id = id) =
      s.calls.find? (·.id = id) := by
    rw [List.find?_filter]
    congr 1
    funext call
    by_cases hid : call.id = id <;> simp [hid, hne]
  exact congrArg (fun call => (call, s.caller? id, s.channel? id)) hcalls

theorem holding_subscribe (h : ∀ p ∈ s.subscriptions, p.2 ≠ id) (key : String)
    (target : UInt64) : (s.subscribe key target).holding id = s.holding id := by
  unfold subscribe
  cases hfind : s.subscriptions.find? (·.1 = key) with
  | none => rfl
  | some old =>
    exact holding_mapChannel_ne (s := s) (h old (List.mem_of_find?_eq_some hfind)).symm
      Channel.dropSender

theorem holding_forward (h : ∀ p ∈ s.subscriptions, p.2 ≠ id) (key : String) (payload : Json) :
    (s.forward key payload).holding id = s.holding id := by
  unfold forward
  cases hfind : s.subscriptions.find? (·.1 = key) with
  | none => rfl
  | some sub =>
    have hne : id ≠ sub.2 := (h sub (List.mem_of_find?_eq_some hfind)).symm
    simp only
    split
    · rw [holding_measure]
      exact holding_mapChannel_ne hne (·.send payload)
    · exact holding_mapChannel_ne (s := s) hne Channel.dropSender

theorem holding_resolve_ne (h : ∀ p ∈ s.subscriptions, p.2 ≠ id) {target : UInt64}
    (hne : id ≠ target) (outcome : Outcome) :
    (s.resolve target outcome).holding id = s.holding id := by
  unfold resolve
  cases s.calls.find? (·.id = target) with
  | none => rfl
  | some call =>
    simp only
    rw [holding_deliver_ne hne]
    rw [← holding_strike_ne (s := s) hne]
    generalize hstruck : { s with calls := s.calls.filter (·.id ≠ target) }.measure
      Metrics.callEnded = struck
    have others : ∀ p ∈ struck.subscriptions, p.2 ≠ id := hstruck ▸ h
    cases call.creates with
    | false => rfl
    | true =>
      cases outcome.toOption.bind subscriptionKey? with
      | none => exact holding_mapChannel_ne hne Channel.dropSender
      | some key => exact holding_subscribe others key target

/-- A frame that is no response to a pending call leaves the call as it was. -/
theorem holding_step_frame (h : s.ledger.Sound n) (frame : e.isFrame = true)
    (pending : s.ledger.IsPending id) (silent : s.ledger.reported? e id = none) :
    (s.step e).holding id = s.holding id := by
  have others : ∀ p ∈ s.subscriptions, p.2 ≠ id := fun p hp heq =>
    (h.subscribed p hp).2 (heq ▸ pending)
  cases e <;> simp only [SessionEvent.isFrame, Bool.false_eq_true] at frame
  case bytesArrived =>
    simp only [step]
    split <;> rfl
  case textArrived text =>
    simp only [step, dispatch]
    split
    · rfl
    · cases hframe : Frame.decode text with
      | error fault => rfl
      | ok frame =>
        cases frame with
        | request target method params => rfl
        | notification key payload => exact holding_forward others key payload
        | response target outcome =>
          refine holding_resolve_ne others (fun heq => ?_) outcome
          have hreported : s.ledger.reported? (.textArrived text) id = some outcome :=
            Ledger.reported?_eq_some_iff.mpr
              ⟨by simp [SessionEvent.response?, hframe, heq], pending⟩
          cases silent.symm.trans hreported

/-! ## The main theorem -/

/-- Every run with fewer than `2 ^ 64` calls gives each call an id of its own and, at most once, the
outcome of the first response to it. -/
theorem correlates_run (buffer : Nat) (events : List SessionEvent)
    (few : events.countP SessionEvent.isCall < 2 ^ 64) :
    (fresh buffer).Correlates events := by
  have start := Ledger.sound_fresh buffer
  have hfew : 0 + events.countP SessionEvent.isCall < 2 ^ 64 := by omega
  obtain ⟨sound, faithful⟩ := Ledger.sound_faithful_run buffer events few
  refine ⟨nodup_newcomers start events hfew, ?_, pairwise_resolves start events hfew,
    sound.nodup_ended, faithful.own, faithful.mail_of_first, ?_⟩
  · intro p hp
    obtain ⟨m, -, -, hsound⟩ := start.of_mem_trace events hfew p hp
    exact hsound.pending_iff
  · intro p hp frame id pending silent
    obtain ⟨m, -, -, hsound⟩ := start.of_mem_trace events hfew p hp
    exact holding_step_frame hsound frame pending silent

/-- Two calls of which the second is answered twice before the connection is lost. -/
def answeredTwice : List SessionEvent :=
  [.called "net_version" .raw (.ofSeconds 5), .called "net_peerCount" .raw (.ofSeconds 5),
   .accepted 1, .accepted 2,
   .textArrived "\x7b\"id\":2,\"result\":3\x7d", .textArrived "\x7b\"id\":2,\"result\":4\x7d",
   .connectionLost "gone", .woken 1, .woken 2]

/-- The first of the two responses counts, and the other call ends with the cause of the end. -/
theorem correlates_answeredTwice :
    answeredTwice.countP SessionEvent.isCall < 2 ^ 64 ∧ (fresh 4).Correlates answeredTwice ∧
      (fresh 4).firstResponse? answeredTwice 1 = none ∧
      (fresh 4).firstResponse? answeredTwice 2 = some (.ok "3") ∧
      ((fresh 4).run answeredTwice).ended.map (·.1) = [1, 2] :=
  ⟨by decide, correlates_run 4 answeredTwice (by decide), by cbv, by cbv, by cbv⟩

end Session

end IstanbulMonitor
