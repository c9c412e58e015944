import IstanbulMonitor.Proofs.Session.Ledger
import Mathlib.Algebra.Group.Nat.Defs
import Mathlib.Data.List.Nodup

/-!
# Sound ledgers

`Ledger.Sound l n` is the invariant of a session that was asked for `n` calls: ids are handed out
in order from one, each belongs to at most one caller or answer, a call is pending exactly while
its caller waits with an empty mailbox, and nothing is pending once the connection has ended. Every
change keeps it as long as fewer than `2 ^ 64` calls are made (`Ledger.Sound.change`).
-/

set_option autoImplicit false

namespace IstanbulMonitor

/-- An id that belongs to one of the first `n` calls. -/
def Given (n : Nat) (id : UInt64) : Prop := 0 < id.toNat ∧ id.toNat ≤ n

theorem Given.mono {n m : Nat} {id : UInt64} (h : Given n id) (hnm : n ≤ m) : Given m id :=
  ⟨h.1, Nat.le_trans h.2 hnm⟩

namespace Ledger

/-- What holds of the ledger of a session that was asked for `n` calls. -/
structure Sound (l : Ledger) (n : Nat) : Prop where
  next : l.nextId = UInt64.ofNat (n + 1)
  nodup_callers : (l.callers.map (·.id)).Nodup
  pending_iff : ∀ id, l.IsPending id ↔ ∃ c ∈ l.callers, c.id = id ∧ c.mail = none
  given_caller : ∀ c ∈ l.callers, Given n c.id
  given_ended : ∀ a ∈ l.ended, Given n a.1
  nodup_ended : (l.ended.map (·.1)).Nodup
  gone : ∀ a ∈ l.ended, ∀ c ∈ l.callers, c.id ≠ a.1
  subscribed : ∀ p ∈ l.subscriptions, Given n p.2 ∧ ¬ l.IsPending p.2
  drained : l.termination.isSome → l.calls = []
  terminal : ∀ cause, l.termination = some cause → cause.isTerminal = true

variable {l l' : Ledger} {n : Nat} {id : UInt64} {e : SessionEvent}

theorem isPending_strike (id' : UInt64) :
    (l.strike id).IsPending id' ↔ l.IsPending id' ∧ id' ≠ id := by
  constructor
  · rintro ⟨call, hcall, rfl⟩
    simp only [strike, List.mem_filter, decide_eq_true_eq] at hcall
    exact ⟨⟨call, hcall.1, rfl⟩, hcall.2⟩
  · rintro ⟨⟨call, hcall, rfl⟩, hne⟩
    exact ⟨call, List.mem_filter.mpr ⟨hcall, by simpa using hne⟩, rfl⟩

theorem isPending_register (method : String) (kind : CallKind) (timeout : Span) (id' : UInt64) :
    (l.register method kind timeout).IsPending id' ↔ l.IsPending id' ∨ id' = l.nextId := by
  simp only [IsPending, register, List.mem_append, List.mem_singleton]
  constructor
  · rintro ⟨call, hcall | rfl, rfl⟩
    · exact Or.inl ⟨call, hcall, rfl⟩
    · exact Or.inr rfl
  · rintro (⟨call, hcall, rfl⟩ | rfl)
    · exact ⟨call, Or.inl hcall, rfl⟩
    · exact ⟨_, Or.inr rfl, rfl⟩

theorem mem_callers_dismiss {c : Caller} :
    c ∈ (l.dismiss id).callers ↔ c ∈ l.callers ∧ c.id ≠ id := by
  simp [dismiss, List.mem_filter]

theorem mem_callers_post {ids : List UInt64} {delivery : Delivery} {c : Caller} :
    c ∈ (l.post ids delivery).callers ↔
      ∃ b ∈ l.callers, c = if b.id ∈ ids then { b with mail := some delivery } else b := by
  simp only [post, List.mem_map, eq_comm]

theorem mem_callers_accept {c : Caller} :
    c ∈ (l.accept id).callers ↔
      ∃ b ∈ l.callers, c = if b.id = id then { b with sending := false } else b := by
  simp only [accept, List.mem_map, eq_comm]

theorem map_id_callers_post (ids : List UInt64) (delivery : Delivery) :
    (l.post ids delivery).callers.map (·.id) = l.callers.map (·.id) := by
  simp only [post, List.map_map]
  refine List.map_congr_left fun c _ => ?_
  simp only [Function.comp]
  split <;> rfl

theorem map_id_callers_accept : (l.accept id).callers.map (·.id) = l.callers.map (·.id) := by
  simp only [accept, List.map_map]
  refine List.map_congr_left fun c _ => ?_
  simp only [Function.comp]
  split <;> rfl

namespace Sound

/-- Callers with one id are one caller. -/
theorem caller_ext (h : l.Sound n) {b c : Caller} (hb : b ∈ l.callers) (hc : c ∈ l.callers)
    (hid : b.id = c.id) : b = c :=
  List.inj_on_of_nodup_map h.nodup_callers hb hc hid

/-- A caller of a pending call has an empty mailbox. -/
theorem mail_of_pending (h : l.Sound n) {c : Caller} (hc : c ∈ l.callers)
    (pending : l.IsPending c.id) : c.mail = none := by
  obtain ⟨b, hb, hid, hmail⟩ := (h.pending_iff c.id).mp pending
  rwa [h.caller_ext hb hc hid] at hmail

theorem given_pending (h : l.Sound n) (pending : l.IsPending id) : Given n id := by
  obtain ⟨c, hc, rfl, -⟩ := (h.pending_iff id).mp pending
  exact h.given_caller c hc

theorem toNat_nextId (h : l.Sound n) (few : n + 1 < 2 ^ 64) : l.nextId.toNat = n + 1 := by
  rw [h.next, UInt64.toNat_ofNat', Nat.mod_eq_of_lt few]

theorem ne_nextId (h : l.Sound n) (few : n + 1 < 2 ^ 64) (given : Given n id) :
    id ≠ l.nextId := by
  rintro rfl
  have hnext := h.toNat_nextId few
  have := given.2
  omega

theorem given_nextId (h : l.Sound n) (few : n + 1 < 2 ^ 64) : Given (n + 1) l.nextId := by
  have hnext := h.toNat_nextId few
  exact ⟨by omega, by omega⟩

/-! ### One lemma for each kind of change -/

theorem keep (h : l.Sound n) {subscriptions : List (String × UInt64)}
    (known : ∀ p ∈ subscriptions, Given n p.2 ∧ ¬ l.IsPending p.2) :
    (l.keep subscriptions).Sound n :=
  { h with subscribed := known }

theorem advance (h : l.Sound n) : l.advance.Sound (n + 1) where
  next := by
    show l.nextId + 1 = UInt64.ofNat (n + 1 + 1)
    rw [h.next, UInt64.ofNat_add (n + 1) 1]
    rfl
  nodup_callers := h.nodup_callers
  pending_iff := h.pending_iff
  given_caller c hc := (h.given_caller c hc).mono n.le_succ
  given_ended a ha := (h.given_ended a ha).mono n.le_succ
  nodup_ended := h.nodup_ended
  gone := h.gone
  subscribed p hp := ⟨(h.subscribed p hp).1.mono n.le_succ, (h.subscribed p hp).2⟩
  drained := h.drained
  terminal := h.terminal

/-- A caller leaves, and its pending entry with it. -/
theorem leave (h : l.Sound n) : ((l.strike id).dismiss id).Sound n where
  next := h.next
  nodup_callers := h.nodup_callers.sublist (List.filter_sublist.map _)
  pending_iff id' := by
    show (l.strike id).IsPending id' ↔ _
    rw [isPending_strike, h.pending_iff]
    constructor
    · rintro ⟨⟨c, hc, rfl, hmail⟩, hne⟩
      exact ⟨c, mem_callers_dismiss.mpr ⟨hc, hne⟩, rfl, hmail⟩
    · rintro ⟨c, hc, rfl, hmail⟩
      obtain ⟨hc, hne⟩ := mem_callers_dismiss.mp hc
      exact ⟨⟨c, hc, rfl, hmail⟩, hne⟩
  given_caller c hc := h.given_caller c (mem_callers_dismiss.mp hc).1
  given_ended := h.given_ended
  nodup_ended := h.nodup_ended
  gone a ha c hc := h.gone a ha c (mem_callers_dismiss.mp hc).1
  subscribed p hp :=
    ⟨(h.subscribed p hp).1, fun hpending =>
      (h.subscribed p hp).2 ((isPending_strike p.2).mp hpending).1⟩
  drained hclosed := by
    show l.calls.filter _ = []
    rw [h.drained hclosed]
    rfl
  terminal := h.terminal

/-- An answer is given to a caller that has left and was not answered before. -/
theorem answer (h : l.Sound n) (given : Given n id) (left : ∀ c ∈ l.callers, c.id ≠ id)
    (unanswered : ∀ a ∈ l.ended, a.1 ≠ id) (result : Except TransportError Reply) :
    (l.answer id result).Sound n where
  next := h.next
  nodup_callers := h.nodup_callers
  pending_iff := h.pending_iff
  given_caller := h.given_caller
  given_ended a ha := by
    rcases List.mem_append.mp ha with ha | ha
    · exact h.given_ended a ha
    · rw [List.mem_singleton.mp ha]
      exact given
  nodup_ended := by
    show ((l.ended ++ [(id, result)]).map (·.1)).Nodup
    rw [List.map_append, List.map_singleton, ← List.concat_eq_append]
    refine h.nodup_ended.concat fun hmem => ?_
    obtain ⟨a, ha, heq⟩ := List.mem_map.mp hmem
    exact unanswered a ha heq
  gone a ha c hc := by
    rcases List.mem_append.mp ha with ha | ha
    · exact h.gone a ha c hc
    · rw [List.mem_singleton.mp ha]
      exact left c hc
  subscribed := h.subscribed
  drained := h.drained
  terminal := h.terminal

/-- A caller that is there leaves with an answer. -/
theorem leave_answer (h : l.Sound n) {c : Caller} (hc : c ∈ l.callers)
    (result : Except TransportError Reply) :
    (((l.strike c.id).dismiss c.id).answer c.id result).Sound n :=
  h.leave.answer (h.given_caller c hc) (fun _ hb => (mem_callers_dismiss.mp hb).2)
    (fun a ha heq => h.gone a ha c hc heq.symm) result

theorem turnAway (h : l.Sound n) (few : n + 1 < 2 ^ 64) (result : Except TransportError Reply) :
    ((l.advance.dismiss l.nextId).answer l.nextId result).Sound (n + 1) := by
  have fresh : ∀ c ∈ l.callers, c.id ≠ l.nextId := fun c hc =>
    h.ne_nextId few (h.given_caller c hc)
  -- the id that is turned away has no caller who could leave
  have hsame : l.advance.dismiss l.nextId = l.advance := by
    simp only [Ledger.advance, dismiss, Ledger.mk.injEq, List.filter_eq_self, true_and, and_true]
    exact fun c hc => decide_eq_true (fresh c hc)
  rw [hsame]
  exact h.advance.answer (h.given_nextId few) fresh
    (fun a ha => h.ne_nextId few (h.given_ended a ha)) result

theorem register (h : l.Sound n) (few : n + 1 < 2 ^ 64) (isOpen : l.termination = none)
    (method : String) (kind : CallKind) (timeout : Span) :
    (l.register method kind timeout).Sound (n + 1) where
  next := h.advance.next
  nodup_callers := by
    show ((l.callers ++ [l.newcomer method kind timeout]).map (·.id)).Nodup
    rw [List.map_append, List.map_singleton, ← List.concat_eq_append]
    refine h.nodup_callers.concat fun hmem => ?_
    obtain ⟨c, hc, heq⟩ := List.mem_map.mp hmem
    exact h.ne_nextId few (h.given_caller c hc) heq
  pending_iff id' := by
    rw [isPending_register, h.pending_iff]
    simp only [Ledger.register, List.mem_append, List.mem_singleton]
    -- the new caller waits with an empty mailbox, and the new entry is its own
    constructor
    · rintro (⟨c, hc, rfl, hmail⟩ | rfl)
      · exact ⟨c, Or.inl hc, rfl, hmail⟩
      · exact ⟨_, Or.inr rfl, rfl, rfl⟩
    · rintro ⟨c, hc | rfl, rfl, hmail⟩
      · exact Or.inl ⟨c, hc, rfl, hmail⟩
      · exact Or.inr rfl
  given_caller c hc := by
    rcases List.mem_append.mp hc with hc | hc
    · exact (h.given_caller c hc).mono n.le_succ
    · rw [List.mem_singleton.mp hc]
      exact h.given_nextId few
  given_ended := h.advance.given_ended
  nodup_ended := h.nodup_ended
  gone a ha c hc := by
    rcases List.mem_append.mp hc with hc | hc
    · exact h.gone a ha c hc
    · rw [List.mem_singleton.mp hc]
      exact (h.ne_nextId few (h.given_ended a ha)).symm
  subscribed p hp := by
    obtain ⟨given, idle⟩ := h.subscribed p hp
    refine ⟨given.mono n.le_succ, fun pending => ?_⟩
    rcases (isPending_register method kind timeout p.2).mp pending with hp | hp
    · exact idle hp
    · exact h.ne_nextId few given hp
  drained hclosed := by
    have : l.termination.isSome = true := hclosed
    simp [isOpen] at this
  terminal := h.terminal

theorem accept (h : l.Sound n) : (l.accept id).Sound n where
  next := h.next
  nodup_callers := by
    rw [map_id_callers_accept]
    exact h.nodup_callers
  pending_iff id' := by
    show l.IsPending id' ↔ _
    rw [h.pending_iff]
    constructor
    · rintro ⟨c, hc, rfl, hmail⟩
      exact ⟨_, mem_callers_accept.mpr ⟨c, hc, rfl⟩, by split <;> rfl, by split <;> exact hmail⟩
    · rintro ⟨c, hc, hid, hmail⟩
      obtain ⟨b, hb, rfl⟩ := mem_callers_accept.mp hc
      exact ⟨b, hb, by split at hid <;> exact hid, by split at hmail <;> exact hmail⟩
  given_caller c hc := by
    obtain ⟨b, hb, rfl⟩ := mem_callers_accept.mp hc
    split <;> exact h.given_caller b hb
  given_ended := h.given_ended
  nodup_ended := h.nodup_ended
  gone a ha c hc := by
    obtain ⟨b, hb, rfl⟩ := mem_callers_accept.mp hc
    split <;> exact h.gone a ha b hb
  subscribed := h.subscribed
  drained := h.drained
  terminal := h.terminal

/-- Entries leave the table and the mailboxes of their callers are filled. -/
theorem deliver (h : l.Sound n) (calls : List PendingCall) (ids : List UInt64)
    (delivery : Delivery)
    (left : ∀ id, (∃ call ∈ calls, call.id = id) ↔ l.IsPending id ∧ id ∉ ids)
    (closed : l.termination.isSome → calls = []) :
    ({ l.post ids delivery with calls } : Ledger).Sound n where
  next := h.next
  nodup_callers := by
    show ((l.post ids delivery).callers.map (·.id)).Nodup
    rw [map_id_callers_post]
    exact h.nodup_callers
  pending_iff id' := by
    show (∃ call ∈ calls, call.id = id') ↔ ∃ c ∈ (l.post ids delivery).callers, _
    rw [left, h.pending_iff]
    constructor
    · rintro ⟨⟨c, hc, rfl, hmail⟩, hne⟩
      exact ⟨c, mem_callers_post.mpr ⟨c, hc, by rw [if_neg hne]⟩, rfl, hmail⟩
    · rintro ⟨c, hc, rfl, hmail⟩
      obtain ⟨b, hb, rfl⟩ := mem_callers_post.mp hc
      -- a mailbox that is filled now is not empty
      by_cases hid : b.id ∈ ids
      · simp [hid] at hmail
      · rw [if_neg hid] at hmail ⊢
        exact ⟨⟨b, hb, rfl, hmail⟩, hid⟩
  given_caller c hc := by
    obtain ⟨b, hb, rfl⟩ := mem_callers_post.mp hc
    split <;> exact h.given_caller b hb
  given_ended := h.given_ended
  nodup_ended := h.nodup_ended
  gone a ha c hc := by
    obtain ⟨b, hb, rfl⟩ := mem_callers_post.mp hc
    split <;> exact h.gone a ha b hb
  subscribed p hp :=
    ⟨(h.subscribed p hp).1, fun pending => (h.subscribed p hp).2 ((left p.2).mp pending).1⟩
  drained := closed
  terminal := h.terminal

theorem resolve (h : l.Sound n) (pending : l.IsPending id) {subscriptions : List (String × UInt64)}
    (known : ∀ p ∈ subscriptions, p ∈ l.subscriptions ∨ p.2 = id) (delivery : Delivery) :
    (((l.strike id).keep subscriptions).post [id] delivery).Sound n := by
  have delivered := h.deliver (l.strike id).calls [id] delivery
    (fun id' => by
      rw [List.mem_singleton]
      exact isPending_strike id')
    (fun hclosed => by
      show l.calls.filter _ = []
      rw [h.drained hclosed]
      rfl)
  -- a new subscription belongs to the call that was answered just now
  refine delivered.keep fun p hp => ?_
  rcases known p hp with hp | hp
  · exact delivered.subscribed p hp
  · rw [hp]
    exact ⟨h.given_pending pending, fun hstill => ((isPending_strike id).mp hstill).2 rfl⟩

theorem terminate (h : l.Sound n) {cause : TransportError} (terminal : cause.isTerminal = true) :
    (l.terminate cause).Sound n := by
  have delivered := h.deliver [] (l.calls.map (·.id)) (.error cause)
    (fun id => by
      simp only [List.not_mem_nil, false_and, exists_false, false_iff, not_and, not_not]
      rintro ⟨call, hcall, rfl⟩
      exact List.mem_map_of_mem hcall)
    (fun _ => rfl)
  exact { delivered with
    subscribed := fun p hp => absurd hp List.not_mem_nil
    drained := fun _ => rfl
    terminal := fun c hc => by
      cases hc
      exact terminal }

/-- Every change keeps a ledger sound while ids last. -/
theorem change (h : l.Sound n) (hchange : l.Change e l') (few : n + e.isCall.toNat < 2 ^ 64) :
    l'.Sound (n + e.isCall.toNat) := by
  cases hchange with
  | rest noCall _ fewer =>
    rw [noCall]
    exact h.keep fun p hp => h.subscribed p (fewer p hp)
  | turnAway closed => exact h.turnAway few _
  | register isOpen => exact h.register few isOpen _ _ _
  | accept => exact h.accept
  | resolve response pending known =>
    rw [e.isCall_of_response? response]
    exact h.resolve pending known _
  | conclude noCall _ mem _ =>
    rw [noCall]
    exact h.leave_answer mem _
  | fail noCall _ mem _ =>
    rw [noCall]
    exact h.leave_answer mem _
  | cancel => exact h.leave
  | terminate noCall _ _ terminal =>
    rw [noCall]
    exact h.terminate terminal

end Sound

end Ledger

/-- The session at its beginning. -/
def Session.fresh (buffer : Nat) : Session := { buffer }

theorem Ledger.sound_fresh (buffer : Nat) : (Session.fresh buffer).ledger.Sound 0 where
  next := rfl
  nodup_callers := List.nodup_nil
  pending_iff id := by simp [IsPending, Session.ledger, Session.fresh]
  given_caller c hc := absurd hc List.not_mem_nil
  given_ended a ha := absurd ha List.not_mem_nil
  nodup_ended := List.nodup_nil
  gone a ha := absurd ha List.not_mem_nil
  subscribed p hp := absurd hp List.not_mem_nil
  drained _ := rfl
  terminal cause h := absurd h (by simp [Session.ledger, Session.fresh])

end IstanbulMonitor
