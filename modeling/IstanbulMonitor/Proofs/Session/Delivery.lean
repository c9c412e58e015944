import IstanbulMonitor.Proofs.Number.Exactness
import IstanbulMonitor.Proofs.Session.Channels
import IstanbulMonitor.Session.Client

/-!
# What reaches the consumer of a subscription

The receiver of a channel and its sender move on their own, and the channel keeps only the newest
events. `Channel.Carries` ties a channel to everything that was ever sent to it, and
`Session.Balances` ties its place to what its handle returned and passed over. Every event keeps
this account (`Session.Balances.step`), so after any run the handle has returned payloads in the
order in which they were dispatched, has skipped only such as were overwritten, and all that it has
not returned was counted as missed or is still retained (`Session.delivers_run`).
-/

set_option autoImplicit false

namespace IstanbulMonitor

/-- The payload of an event that is found. -/
def Received.payload? : Received → Option Json
  | .event payload => some payload
  | _ => none

namespace Channel

/-- A channel to which `all` was sent, oldest first: it keeps the newest of them. -/
structure Carries (c : Channel) (all : List Json) : Prop where
  sent : c.sent = all.length
  kept : c.kept = all.drop (all.length - c.capacity)
  place : c.place ≤ all.length
  room : 0 < c.capacity

/-! ## Room -/

section

open private Nat.nextPowerOfTwo.go from Init.Data.Nat.Power2.Basic

theorem le_nextPowerOfTwo_go (n power : Nat) (pos : power > 0) :
    n ≤ Nat.nextPowerOfTwo.go n power pos := by
  unfold Nat.nextPowerOfTwo.go
  split
  · exact le_nextPowerOfTwo_go n _ _
  · next h => exact Nat.le_of_not_lt h
termination_by n - power
decreasing_by exact Nat.nextPowerOfTwo_dec pos (by assumption)

/-- A channel has room for as many events as were asked for. -/
theorem le_capacity_make (buffer : Nat) : buffer ≤ (make buffer).capacity :=
  (Nat.le_max_left buffer 1).trans (le_nextPowerOfTwo_go _ 1 _)

end

variable {c : Channel} {all : List Json}

theorem carries_make (buffer : Nat) : (make buffer).Carries [] where
  sent := rfl
  kept := List.drop_nil.symm
  place := Nat.le_refl 0
  room := Nat.pos_of_isPowerOfTwo (Nat.isPowerOfTwo_nextPowerOfTwo _)

namespace Carries

theorem dropSender (h : c.Carries all) : c.dropSender.Carries all := { h with }

theorem dropReceiver (h : c.Carries all) : c.dropReceiver.Carries all := { h with }

theorem send (h : c.Carries all) (payload : Json) :
    (c.send payload).Carries (all ++ [payload]) where
  sent := by simp [Channel.send, h.sent]
  kept := by
    have hroom := h.room
    simp only [Channel.send, h.kept, List.length_append, List.length_drop, List.length_singleton]
    -- what is dropped now is at the front of what was kept
    rw [← List.drop_append_of_le_length (by omega), List.drop_drop]
    congr 1
    omega
  place := by
    rw [List.length_append]
    exact Nat.le_add_right_of_le h.place
  room := h.room

theorem oldest (h : c.Carries all) : c.oldest = all.length - c.capacity := by
  rw [Channel.oldest, h.sent, h.kept, List.length_drop]
  omega

/-- The place that a receiver reads next. -/
theorem next (h : c.Carries all) : c.place + c.lag ≤ all.length := by
  have hplace := h.place
  rw [lag, h.oldest]
  omega

theorem retained (h : c.Carries all) : c.retained = all.drop (c.place + c.lag) := by
  rw [Channel.retained, lag, h.kept, List.drop_drop, h.oldest]
  congr 1
  omega

/-- A receiver that missed events goes on with the oldest one that is kept. -/
theorem missed (h : c.Carries all) (late : c.lag ≠ 0) :
    c.place + c.lag + c.capacity = all.length := by
  rw [lag, h.oldest] at late ⊢
  omega

/-- A receiver finds the event at its place or, if it missed some, the oldest one that is kept. -/
theorem receive (h : c.Carries all) :
    c.receive = match all[c.place + c.lag]? with
      | some payload => (.event payload, c.lag, { c with place := c.place + c.lag + 1 })
      | none => (if c.senderOpen then .waiting else .ended, c.lag,
          { c with place := c.place + c.lag }) := by
  have hplace : max c.place c.oldest = c.place + c.lag := by
    rw [lag]
    omega
  have hkept : c.kept[c.place + c.lag - c.oldest]? = all[c.place + c.lag]? := by
    rw [h.kept, List.getElem?_drop, ← h.oldest]
    congr 1
    rw [lag]
    omega
  cases hfound : all[c.place + c.lag]? with
  | none => simp only [Channel.receive, hplace, hkept, hfound]
  | some payload => simp only [Channel.receive, hplace, hkept, hfound]

/-- A receiver that finds no event has missed none. -/
theorem caughtUp (h : c.Carries all) (nothing : all[c.place + c.lag]? = none) :
    c.lag = 0 ∧ c.place = all.length := by
  have hnext := List.getElem?_eq_none_iff.mp nothing
  have hroom := h.room
  have hlag : c.lag = 0 := by
    by_contra late
    have := h.missed late
    omega
  have hplace := h.place
  omega

end Carries

end Channel

namespace Session

variable {s : Session} {events : List SessionEvent} {e : SessionEvent} {id : UInt64}

/-! ## What is dispatched, what is returned and what is passed over -/

/-- The payloads that a run dispatches to the channel of a call, in order. -/
def dispatched (s : Session) (events : List SessionEvent) (id : UInt64) : List Json :=
  (s.trace events).filterMap (incoming? id)

/-- The payloads that the handle of a call returns in a run, in order. -/
def returned (s : Session) (events : List SessionEvent) (id : UInt64) : List Json :=
  (s.readings events id).filterMap Received.payload?

/-- The number of events that were overwritten before the receiver of a channel reads, if the event
is that it does. -/
def overwritten : Session × SessionEvent → Nat
  | (s, .channelRead id) => s.lag id
  | _ => 0

/-- The number of events that the handle of a call passes over, if the event is that it reads. -/
def skipped (id : UInt64) (p : Session × SessionEvent) : Nat :=
  if (reading? id p).isSome then overwritten p else 0

/-- The number of events that the handle of a call passes over in a run. -/
def passedOver (s : Session) (events : List SessionEvent) (id : UInt64) : Nat :=
  ((s.trace events).map (skipped id)).sum

theorem dispatched_concat (s : Session) (events : List SessionEvent) (e : SessionEvent)
    (id : UInt64) :
    s.dispatched (events ++ [e]) id =
      s.dispatched events id ++ (incoming? id (s.run events, e)).toList := by
  simp only [dispatched, trace_append, List.filterMap_append, trace, List.filterMap_cons,
    List.filterMap_nil]
  cases incoming? id (s.run events, e) <;> rfl

theorem returned_concat (s : Session) (events : List SessionEvent) (e : SessionEvent)
    (id : UInt64) :
    s.returned (events ++ [e]) id = s.returned events id ++
      ((reading? id (s.run events, e)).bind Received.payload?).toList := by
  simp only [returned, readings, trace_append, List.filterMap_append, trace, List.filterMap_cons,
    List.filterMap_nil]
  cases reading? id (s.run events, e) with
  | none => rfl
  | some received => cases received <;> rfl

theorem passedOver_concat (s : Session) (events : List SessionEvent) (e : SessionEvent)
    (id : UInt64) :
    s.passedOver (events ++ [e]) id =
      s.passedOver events id + skipped id (s.run events, e) := by
  simp only [passedOver, trace_append, trace, List.map_append, List.map_cons, List.map_nil,
    List.sum_append, List.sum_singleton]

/-- A channel that accounts for every event: those that were returned, those that were passed over,
and those from its place on. -/
def Balances (capacity : Nat) (all returned : List Json) (passed : Nat) : Option Channel → Prop
  | none => all = [] ∧ returned = [] ∧ passed = 0
  | some c => c.capacity = capacity ∧ c.Carries all ∧ c.place = returned.length + passed ∧
      returned.Sublist (all.take c.place)

theorem reading?_eq_none (unread : e ≠ .channelRead id) : reading? id (s, e) = none := by
  cases hread : reading? id (s, e) with
  | none => rfl
  | some received => exact absurd (reading?_eq_some hread).1 unread

theorem reading?_self : reading? id (s, .channelRead id) = some (s.receive id).1 := if_pos rfl

/-- A handle without a channel finds the end. -/
theorem receive_fst : (s.receive id).1 = (s.channel? id).elim .ended fun c => c.receive.1 := by
  cases hc : s.channel? id with
  | none =>
    rw [receive_of_channel?_eq_none hc]
    rfl
  | some c => exact (receive_of_channel? hc).1

theorem skipped_self : skipped id (s, .channelRead id) = s.lag id := by
  rw [skipped, reading?_self]
  rfl

namespace Balances

variable {capacity passed : Nat} {all returned : List Json} {c? : Option Channel}

theorem dropSender (h : Balances capacity all returned passed c?) :
    Balances capacity all returned passed (c?.map .dropSender) := by
  cases c? with
  | none => exact h
  | some c =>
    obtain ⟨hcapacity, carries, hplace, hreturned⟩ := h
    exact ⟨hcapacity, carries.dropSender, hplace, hreturned⟩

theorem dropReceiver (h : Balances capacity all returned passed c?) :
    Balances capacity all returned passed (c?.map .dropReceiver) := by
  cases c? with
  | none => exact h
  | some c =>
    obtain ⟨hcapacity, carries, hplace, hreturned⟩ := h
    exact ⟨hcapacity, carries.dropReceiver, hplace, hreturned⟩

theorem send (h : Balances capacity all returned passed c?) (there : c?.isSome)
    (payload : Json) :
    Balances capacity (all ++ [payload]) returned passed (c?.map (·.send payload)) := by
  obtain ⟨c, rfl⟩ := Option.isSome_iff_exists.mp there
  obtain ⟨hcapacity, carries, hplace, hreturned⟩ := h
  refine ⟨hcapacity, carries.send payload, hplace, ?_⟩
  show returned.Sublist ((all ++ [payload]).take c.place)
  rwa [List.take_append_of_le_length carries.place]

/-- A read returns the event at the next place, after those that it passes over. -/
theorem receive (h : Balances capacity all returned passed c?) :
    Balances capacity all
      (returned ++ ((c?.map fun c => c.receive.1).bind Received.payload?).toList)
      (passed + c?.elim 0 Channel.lag) (c?.map fun c => c.receive.2.2) := by
  cases c? with
  | none =>
    obtain ⟨rfl, rfl, rfl⟩ := h
    exact ⟨rfl, rfl, rfl⟩
  | some c =>
    obtain ⟨hcapacity, carries, hplace, hreturned⟩ := h
    -- the place moves over what is passed over before anything is returned
    have before : returned.Sublist (all.take (c.place + c.lag)) :=
      hreturned.trans (List.take_sublist_take_left (Nat.le_add_right _ _))
    simp only [Option.map_some, Option.bind_some, Option.elim_some, carries.receive]
    cases hfound : all[c.place + c.lag]? with
    | none =>
      have nothing : (if c.senderOpen then Received.waiting else .ended).payload? = none := by
        split <;> rfl
      simp only [nothing, Option.toList_none, List.append_nil]
      exact ⟨hcapacity, { carries with place := carries.next }, by
        show c.place + c.lag = _
        omega, before⟩
    | some payload =>
      obtain ⟨hbound, hpayload⟩ := List.getElem?_eq_some_iff.mp hfound
      refine ⟨hcapacity, { carries with place := hbound }, ?_, ?_⟩
      · simp only [Received.payload?, Option.toList_some, List.length_append, List.length_singleton]
        omega
      · show (returned ++ [payload]).Sublist (all.take (c.place + c.lag + 1))
        rw [List.take_add_one, hfound]
        exact before.append_right [payload]

end Balances

/-- Every event keeps the account of a channel. -/
theorem Balances.step {capacity passed : Nat} {all returned : List Json}
    (h : Balances capacity all returned passed (s.channel? id))
    (hcapacity : (Channel.make s.buffer).capacity = capacity) (e : SessionEvent) :
    Balances capacity (all ++ (incoming? id (s, e)).toList)
      (returned ++ ((reading? id (s, e)).bind Received.payload?).toList)
      (passed + skipped id (s, e)) ((s.step e).channel? id) := by
  have change := s.channelChange_step e id
  -- an event that passes by adds to none of the three
  have still : s.PassesBy e id → ∀ c?, Balances capacity all returned passed c? →
      Balances capacity (all ++ (incoming? id (s, e)).toList)
        (returned ++ ((reading? id (s, e)).bind Received.payload?).toList)
        (passed + skipped id (s, e)) c? := by
    intro passes c? hc
    simpa [passes.unsent, reading?_eq_none passes.unread, skipped] using hc
  generalize (s.step e).channel? id = c? at change ⊢
  cases change with
  | rest passes => exact still passes _ h
  | opened passes missing _ =>
    refine still passes _ ?_
    rw [missing] at h
    obtain ⟨rfl, rfl, rfl⟩ := h
    exact ⟨hcapacity, Channel.carries_make _, rfl, .slnil⟩
  | muted passes => exact still passes _ h.dropSender
  | forsaken passes _ => exact still passes _ h.dropReceiver
  | @sent payload incoming =>
    obtain ⟨key, hnotification, hfeeds⟩ := incoming?_eq_some_iff.mp incoming
    have unread : e ≠ .channelRead id := by
      rintro rfl
      cases hnotification
    have there : (s.channel? id).isSome := by
      simp only [feeds, Bool.and_eq_true] at hfeeds
      obtain ⟨c, hc, -⟩ := (Option.any_eq_true _ _).mp hfeeds.2
      exact Option.isSome_of_mem hc
    simpa [incoming, reading?_eq_none unread, skipped] using h.send there payload
  | read reads =>
    subst reads
    have found : (some (s.receive id).1).bind Received.payload? =
        ((s.channel? id).map fun c => c.receive.1).bind Received.payload? := by
      rw [receive_fst]
      cases s.channel? id <;> rfl
    rw [incoming?_eq_none rfl, reading?_self, skipped_self, found, Option.toList_none,
      List.append_nil]
    exact h.receive

/-- The channel of a call accounts for every event that a run dispatches to it. -/
theorem balances_run (buffer : Nat) (events : List SessionEvent) (id : UInt64) :
    Balances (Channel.make buffer).capacity ((fresh buffer).dispatched events id)
      ((fresh buffer).returned events id) ((fresh buffer).passedOver events id)
      (((fresh buffer).run events).channel? id) := by
  induction events using List.reverseRecOn with
  | nil => exact ⟨rfl, rfl, rfl⟩
  | append_singleton events e ih =>
    rw [dispatched_concat, returned_concat, passedOver_concat, run_concat]
    refine ih.step ?_ e
    rw [buffer_run]
    rfl

/-! ## What the next read finds -/

namespace Balances

variable {capacity passed : Nat} {all returned : List Json}

theorem sublist (h : Balances capacity all returned passed (s.channel? id)) :
    returned.Sublist all := by
  cases hc : s.channel? id with
  | none =>
    rw [hc] at h
    rw [h.2.1]
    exact List.nil_sublist _
  | some c =>
    rw [hc] at h
    exact h.2.2.2.trans (List.take_sublist _ _)

/-- The next read finds the payload at the place after those that it has missed. -/
theorem payload?_receive (h : Balances capacity all returned passed (s.channel? id)) :
    (s.receive id).1.payload? = all[returned.length + passed + s.lag id]? := by
  rw [receive_fst, lag]
  cases hc : s.channel? id with
  | none =>
    rw [hc] at h
    rw [h.1]
    rfl
  | some c =>
    rw [hc] at h
    obtain ⟨-, carries, hplace, -⟩ := h
    rw [Option.elim_some, Option.elim_some, ← hplace, carries.receive]
    cases all[c.place + c.lag]? with
    | some payload => rfl
    | none =>
      dsimp only
      split <;> rfl

theorem retained (h : Balances capacity all returned passed (s.channel? id)) :
    s.retained id = all.drop (returned.length + passed + s.lag id) := by
  rw [Session.retained, lag]
  cases hc : s.channel? id with
  | none =>
    rw [hc] at h
    rw [h.1, List.drop_nil]
    rfl
  | some c =>
    rw [hc] at h
    obtain ⟨-, carries, hplace, -⟩ := h
    rw [Option.elim_some, Option.elim_some, ← hplace, carries.retained]

theorem missed (h : Balances capacity all returned passed (s.channel? id))
    (late : s.lag id ≠ 0) : returned.length + passed + s.lag id + capacity = all.length := by
  rw [lag] at late ⊢
  cases hc : s.channel? id with
  | none =>
    rw [hc] at late
    exact absurd rfl late
  | some c =>
    rw [hc] at h late
    obtain ⟨rfl, carries, hplace, -⟩ := h
    rw [Option.elim_some, ← hplace]
    exact carries.missed late

theorem caughtUp (h : Balances capacity all returned passed (s.channel? id))
    (nothing : (s.receive id).1.payload? = none) :
    s.lag id = 0 ∧ returned.length + passed = all.length := by
  rw [h.payload?_receive, lag] at nothing
  rw [lag]
  cases hc : s.channel? id with
  | none =>
    rw [hc] at h
    obtain ⟨rfl, rfl, rfl⟩ := h
    exact ⟨rfl, rfl⟩
  | some c =>
    rw [hc] at h nothing
    obtain ⟨-, carries, hplace, -⟩ := h
    rw [Option.elim_some, ← hplace] at nothing
    rw [Option.elim_some, ← hplace]
    exact carries.caughtUp nothing

end Balances

/-! ## The count of missed events -/

/-- An event counts what was overwritten before it, if it is a read. -/
theorem lagged_step (s : Session) (e : SessionEvent) :
    (s.step e).journal.metrics.lagged =
      if overwritten (s, e) = 0 then s.journal.metrics.lagged
      else Metrics.increase s.journal.metrics.lagged (overwritten (s, e)) := by
  by_cases reads : ∃ id, e = .channelRead id
  · obtain ⟨id, rfl⟩ := reads
    have hread := congrArg Prod.snd (marks_receive (s := s) id)
    have hlag : overwritten (s, .channelRead id) = s.lag id := rfl
    rw [hlag]
    split at hread
    · next hzero =>
      rw [if_pos hzero]
      exact hread
    · next hmissed =>
      rw [if_neg hmissed]
      exact hread
  · have unread : ∀ id, e ≠ .channelRead id := fun id heq => reads ⟨id, heq⟩
    have hzero : overwritten (s, e) = 0 := by
      cases e <;> first | rfl | exact absurd rfl (unread _)
    rw [if_pos hzero]
    exact congrArg Prod.snd (marks_step e unread)

/-- Below `2 ^ 53` the counter holds the number of events that were passed over by any handle. -/
theorem lagged_run (buffer : Nat) (events : List SessionEvent)
    (small : (((fresh buffer).trace events).map overwritten).sum < 2 ^ 53) :
    ((fresh buffer).run events).journal.metrics.lagged =
      (((fresh buffer).trace events).map overwritten).sum := by
  induction events using List.reverseRecOn with
  | nil => rfl
  | append_singleton events e ih =>
    simp only [trace_append, trace, List.map_append, List.map_cons, List.map_nil,
      List.sum_append, List.sum_singleton] at small ⊢
    rw [run_concat, lagged_step, ih (by omega)]
    split
    · next hzero => rw [hzero, Nat.add_zero]
    · exact Metrics.increase_of_lt small

/-! ## Streams -/

/-- A read finds the first of the events that are retained, if there is one. -/
theorem payload?_receive : (s.receive id).1.payload? = (s.retained id).head? := by
  rw [receive_fst, retained]
  cases s.channel? id with
  | none => rfl
  | some c =>
    rw [Option.elim_some, Option.elim_some, c.receive_retained.1]
    cases c.retained.head? with
    | none =>
      rw [Option.elim_none]
      split <;> rfl
    | some payload => rfl

theorem retained_receive_self : (s.receive id).2.retained id = (s.retained id).tail := by
  rw [retained_receive, if_pos rfl]

/-- A handle that is read as a stream yields what is retained. -/
theorem takeEvents_fst (n : Nat) (s : Session) (id : UInt64) :
    (takeEvents n s id).1 = (s.retained id).take n := by
  induction n generalizing s with
  | zero => rfl
  | succ n ih =>
    have hfound : (s.receive id).1.payload? = (s.retained id).head? := payload?_receive
    have hrest : (s.receive id).2.retained id = (s.retained id).tail := retained_receive_self
    unfold takeEvents
    rcases hreceive : s.receive id with ⟨received, t⟩
    rw [hreceive] at hfound hrest
    cases received with
    | event payload =>
      obtain ⟨rest, hretained⟩ := List.head?_eq_some_iff.mp hfound.symm
      rw [hretained, List.tail_cons] at hrest
      rw [hretained, List.take_succ_cons, ← hrest, ← ih t]
    | waiting =>
      rw [List.head?_eq_none_iff.mp hfound.symm]
      rfl
    | ended =>
      rw [List.head?_eq_none_iff.mp hfound.symm]
      rfl

/-- Reading a handle as a stream is reading it one by one until nothing is found. -/
theorem takeEvents_reads (n : Nat) (s : Session) (id : UInt64) :
    ∃ k rest, (takeEvents n s id).2.2 = s.run (.replicate k (.channelRead id)) ∧
      s.readings (.replicate k (.channelRead id)) id =
        (takeEvents n s id).1.map .event ++ rest ∧
      (rest = [] ∧ (takeEvents n s id).1.length = n ∨
        rest = [(takeEvents n s id).2.1] ∧ (takeEvents n s id).2.1.payload? = none) := by
  induction n generalizing s with
  | zero => exact ⟨0, [], rfl, rfl, .inl ⟨rfl, rfl⟩⟩
  | succ n ih =>
    unfold takeEvents
    rcases hreceive : s.receive id with ⟨received, t⟩
    have hstep : s.step (.channelRead id) = t := congrArg Prod.snd hreceive
    have hreading : reading? id (s, .channelRead id) = some received := by
      rw [reading?_self, hreceive]
    cases received with
    | event payload =>
      obtain ⟨k, rest, hrun, hreadings, hrest⟩ := ih t
      refine ⟨k + 1, rest, ?_, ?_, ?_⟩
      · rw [List.replicate_succ, run, List.foldl_cons, hstep]
        exact hrun
      · rw [List.replicate_succ, readings_cons, hreading, hstep, hreadings]
        rfl
      · exact hrest.imp (fun h => ⟨h.1, congrArg (· + 1) h.2⟩) fun h => h
    | waiting =>
      refine ⟨1, [.waiting], ?_, ?_, .inr ⟨rfl, rfl⟩⟩
      · exact hstep.symm
      · rw [List.replicate_one, readings_cons, hreading]
        rfl
    | ended =>
      refine ⟨1, [.ended], ?_, ?_, .inr ⟨rfl, rfl⟩⟩
      · exact hstep.symm
      · rw [List.replicate_one, readings_cons, hreading]
        rfl

/-- A handle that is drained yields all that is retained, and then its receiver is dropped. -/
theorem drain_eq (s : Session) (id : UInt64) :
    (s.drain id).1 = s.retained id ∧
      ∃ k, (s.drain id).2.2 = (s.run (.replicate k (.channelRead id))).release id := by
  have hlength : (s.retained id).length ≤ (s.channel? id).elim 0 fun c => c.kept.length := by
    unfold retained
    cases s.channel? id with
    | none => exact Nat.le_refl 0
    | some c =>
      simp only [Option.elim_some, Channel.retained, List.length_drop]
      exact Nat.sub_le _ _
  constructor
  · rw [drain, takeEvents_fst]
    exact List.take_of_length_le (Nat.le_succ_of_le hlength)
  · obtain ⟨k, -, hrun, -⟩ := takeEvents_reads
      ((s.channel? id).elim 0 (fun c => c.kept.length) + 1) s id
    exact ⟨k, congrArg (·.release id) hrun⟩

/-! ## Consumers do not matter to others -/

/-- The session as it would be if no consumer had read anything. -/
def unread (s : Session) : Session :=
  { s with
    channels := s.channels.map fun c => (c.1, { c.2 with place := 0 })
    journal :=
      { metrics := { s.journal.metrics with lagged := 0 }
        warnings := s.journal.warnings.filter (· ≠ .subscriberLagging) } }

theorem channel?_unread : s.unread.channel? id = (s.channel? id).map ({ · with place := 0 }) :=
  channel?_of_map (fun _ c => { c with place := 0 }) rfl

theorem unread_mapChannel (target : UInt64) {change : Channel → Channel}
    (commutes : ∀ c, { change c with place := 0 } = change { c with place := 0 }) :
    (s.mapChannel target change).unread = s.unread.mapChannel target change := by
  have hchannels : (s.mapChannel target change).unread.channels =
      (s.unread.mapChannel target change).channels := by
    simp only [unread, mapChannel, List.map_map]
    refine List.map_congr_left fun c _ => ?_
    simp only [Function.comp]
    split <;> simp [commutes]
  simp only [unread, mapChannel] at hchannels ⊢
  rw [hchannels]

theorem unread_measure {change : Metrics → Metrics}
    (commutes : ∀ m, { change m with lagged := 0 } = change { m with lagged := 0 }) :
    (s.measure change).unread = s.unread.measure change := by
  simp only [unread, measure, Journal.measure, commutes]

theorem unread_warn {w : Warning} (other : w ≠ .subscriberLagging) :
    (s.warn w).unread = s.unread.warn w := by
  simp [unread, warn, Journal.warn, List.filter_append, other]

theorem unread_subscribe (key : String) (target : UInt64) :
    (s.subscribe key target).unread = s.unread.subscribe key target := by
  have hsubscriptions : s.unread.subscriptions = s.subscriptions := rfl
  unfold subscribe
  rw [hsubscriptions]
  cases s.subscriptions.find? (·.1 = key) with
  | none => rfl
  | some old =>
    -- the sender that is replaced is dropped, which does not depend on places
    have hdropped : (s.mapChannel old.2 Channel.dropSender).unread =
        s.unread.mapChannel old.2 Channel.dropSender := unread_mapChannel old.2 fun _ => rfl
    exact congrArg (fun t : Session => ({ t with
      subscriptions := t.subscriptions.filter (·.1 ≠ key) ++ [(key, target)] } : Session)) hdropped

theorem unread_resolve (target : UInt64) (outcome : Outcome) :
    (s.resolve target outcome).unread = s.unread.resolve target outcome := by
  have hcalls : s.unread.calls = s.calls := rfl
  unfold resolve
  rw [hcalls]
  cases s.calls.find? (·.id = target) with
  | none => rfl
  | some call =>
    have hstruck : ({ s with calls := s.calls.filter (·.id ≠ target) }.measure
        Metrics.callEnded).unread =
          { s.unread with calls := s.calls.filter (·.id ≠ target) }.measure Metrics.callEnded :=
      unread_measure (s := { s with calls := s.calls.filter (·.id ≠ target) }) fun _ => rfl
    dsimp only
    rw [← hstruck]
    generalize { s with calls := s.calls.filter (·.id ≠ target) }.measure
      Metrics.callEnded = struck
    have delivered : ∀ t t' : Session, t.unread = t' →
        (t.deliver target (outcome.mapError .remote)).unread =
          t'.deliver target (outcome.mapError .remote) := by
      rintro t _ rfl
      rfl
    apply delivered
    cases call.creates with
    | false => rfl
    | true =>
      cases outcome.toOption.bind subscriptionKey? with
      | none => exact unread_mapChannel target fun _ => rfl
      | some key => exact unread_subscribe key target

theorem unread_forward (key : String) (payload : Json) :
    (s.forward key payload).unread = s.unread.forward key payload := by
  have hsubscriptions : s.unread.subscriptions = s.subscriptions := rfl
  unfold forward
  rw [hsubscriptions]
  cases s.subscriptions.find? (·.1 = key) with
  | none => rfl
  | some sub =>
    -- whether the receiver is there decides what happens, and not where it is
    have hreceiver : (s.unread.channel? sub.2).any (·.receiverOpen) =
        (s.channel? sub.2).any (·.receiverOpen) := by
      rw [channel?_unread]
      cases s.channel? sub.2 <;> rfl
    dsimp only
    rw [hreceiver]
    split
    · rw [unread_measure fun _ => rfl, unread_mapChannel sub.2 fun _ => rfl]
    · exact unread_mapChannel
        (s := { s with subscriptions := s.subscriptions.filter (·.1 ≠ key) }) sub.2 fun _ => rfl

/-- A frame does the same whatever was read before. -/
theorem unread_dispatch (text : String) : (s.dispatch text).unread = s.unread.dispatch text := by
  unfold dispatch
  have hclosed : s.unread.isClosed = s.isClosed := rfl
  rw [hclosed]
  split
  · rfl
  · cases Frame.decode text with
    | error fault => exact unread_warn nofun
    | ok frame =>
      cases frame with
      | request target method params => rfl
      | response target outcome => exact unread_resolve target outcome
      | notification key payload => exact unread_forward key payload

/-! ## The main theorem -/

/-- What a run owes to the handle of a call, and how it is accounted for. -/
structure Delivers (s : Session) (events : List SessionEvent) (id : UInt64) : Prop where
  /-- What was returned was dispatched, in this order and each payload at most once. -/
  ordered : (s.returned events id).Sublist (s.dispatched events id)
  /-- The next read returns the payload that follows those which were returned or passed over, and
  those which it passes over now. -/
  found : ∀ payload, ((s.run events).receive id).1 = .event payload →
    (s.dispatched events id)[(s.returned events id).length + s.passedOver events id +
      (s.run events).lag id]? = some payload
  /-- Each payload that it passes over has as many newer ones as the buffer was made for. -/
  overrun : ∀ i < (s.run events).lag id,
    (s.returned events id).length + s.passedOver events id + i + 1 + s.buffer ≤
      (s.dispatched events id).length
  /-- If it passes over any, it goes on with the oldest payload that the channel has room for. -/
  resumes : (s.run events).lag id ≠ 0 →
    (s.returned events id).length + s.passedOver events id + (s.run events).lag id +
      (Channel.make s.buffer).capacity = (s.dispatched events id).length
  /-- Right after a read that returned a payload, all that was dispatched is accounted for. -/
  balanced : ∀ payload, ((s.run events).receive id).1 = .event payload →
    let after := events ++ [.channelRead id]
    (s.returned after id).length + s.passedOver after id + ((s.run after).retained id).length =
      (s.dispatched after id).length
  /-- A read finds nothing only if nothing is left, and then it passes over nothing. -/
  emptied : ((s.run events).receive id).1.payload? = none →
    (s.run events).lag id = 0 ∧
      (s.returned events id).length + s.passedOver events id = (s.dispatched events id).length
  /-- A read adds what it passes over to the counter, and no other event changes the counter. -/
  counted : ∀ e, ((s.run events).step e).journal.metrics.lagged =
    if overwritten (s.run events, e) = 0 then (s.run events).journal.metrics.lagged
    else Metrics.increase (s.run events).journal.metrics.lagged (overwritten (s.run events, e))
  /-- So the counter is exact as long as a double can hold the sum. -/
  exact : ((s.trace events).map overwritten).sum < 2 ^ 53 →
    (s.run events).journal.metrics.lagged = ((s.trace events).map overwritten).sum
  /-- A handle that is used as a stream is read one by one until nothing is found. -/
  streamed : ∀ n, ∃ k rest,
    let reads := List.replicate k (SessionEvent.channelRead id)
    let stream := takeEvents n (s.run events) id
    stream.2.2 = (s.run events).run reads ∧
      (s.run events).readings reads id = stream.1.map .event ++ rest ∧
      (rest = [] ∧ stream.1.length = n ∨ rest = [stream.2.1] ∧ stream.2.1.payload? = none)
  /-- A handle that is drained yields everything that its channel retains. -/
  drained : ((s.run events).drain id).1 = (s.run events).retained id ∧
    ∃ k, ((s.run events).drain id).2.2 =
      ((s.run events).run (List.replicate k (.channelRead id))).release id
  /-- What a frame does is the same in every session that differs only in what was read. -/
  independent : ∀ t : Session, t.unread = (s.run events).unread →
    ∀ text, (t.dispatch text).unread = ((s.run events).dispatch text).unread

/-- **Delivery to a handle is in order, drops the oldest events first and accounts for each.** -/
theorem delivers_run (buffer : Nat) (events : List SessionEvent) (id : UInt64) :
    (fresh buffer).Delivers events id := by
  have balances := balances_run buffer events id
  have hbuffer : buffer ≤ (Channel.make buffer).capacity := Channel.le_capacity_make buffer
  exact
    { ordered := balances.sublist
      found := fun payload hpayload => by
        rw [← balances.payload?_receive, hpayload]
        rfl
      overrun := fun i hi => by
        have hmissed := balances.missed (Nat.ne_zero_of_lt hi)
        have hmade : (fresh buffer).buffer = buffer := rfl
        omega
      resumes := balances.missed
      balanced := fun payload hpayload => by
        have hfound := balances.payload?_receive
        rw [hpayload] at hfound
        have hplace := (List.getElem?_eq_some_iff.mp hfound.symm).1
        have hreading : reading? id ((fresh buffer).run events, .channelRead id) =
            some (.event payload) := by
          rw [reading?_self, hpayload]
        have hretained : (((fresh buffer).run events).receive id).2.retained id = _ :=
          retained_receive_self
        rw [balances.retained, List.tail_drop] at hretained
        simp only [returned_concat, passedOver_concat, dispatched_concat, run_concat, hreading,
          skipped_self, incoming?_eq_none (e := .channelRead id) rfl, Option.bind_some,
          Received.payload?, Option.toList_some, Option.toList_none, List.append_nil,
          List.length_append, List.length_singleton, step, hretained, List.length_drop]
        omega
      emptied := balances.caughtUp
      counted := lagged_step _
      exact := lagged_run buffer events
      streamed := fun n => takeEvents_reads n _ id
      drained := drain_eq _ id
      independent := fun t same text => by
        rw [unread_dispatch, unread_dispatch, same] }

/-- A subscription with a buffer of two, whose consumer reads after three events. -/
def lateReader : List SessionEvent :=
  [.called "eth_subscribe" .subscription (.ofSeconds 5), .accepted 1,
   .textArrived "\x7b\"id\":1,\"result\":\"0xa\"\x7d", .woken 1,
   .textArrived (announcement 7), .textArrived (announcement 8), .textArrived (announcement 9),
   .channelRead 1, .channelRead 1, .channelRead 1]

/-- The first event is overwritten before the first read. -/
example : ((fresh 2).returned lateReader 1, (fresh 2).passedOver lateReader 1) =
    ([.number (.int 8), .number (.int 9)], 1) := by cbv

end Session

end IstanbulMonitor
