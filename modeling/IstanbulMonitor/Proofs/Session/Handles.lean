import IstanbulMonitor.Proofs.Session.Aftermath
import IstanbulMonitor.Proofs.Session.Correlation

/-!
# Subscription handles after the end

The end of a session takes the sender of every channel away and leaves the events that are kept.
Nothing that happens to the session afterwards sends another event, and only the receiver that reads
an event takes it away (`Session.Over.retained_step`). So a handle finds the events that its channel
retained, one by one, and from then on the end (`Session.Over.getElem?_readings`).
-/

set_option autoImplicit false

namespace IstanbulMonitor

namespace Channel

variable (c : Channel)

/-- The events that a channel still has for its receiver, oldest first. -/
def retained : List Json := c.kept.drop (c.place - c.oldest)

theorem retained_dropSender : c.dropSender.retained = c.retained := rfl

theorem retained_dropReceiver : c.dropReceiver.retained = c.retained := rfl

/-- A receiver finds the first of the retained events and leaves the rest. Without one it waits for
the sender, or finds the end if there is none. -/
theorem receive_retained :
    c.receive.1 = c.retained.head?.elim (if c.senderOpen then .waiting else .ended) .event ∧
      c.receive.2.2.retained = c.retained.tail := by
  -- a place behind the oldest event that is kept is moved up to it
  have hplace : max c.place c.oldest - c.oldest = c.place - c.oldest := by omega
  have hhead : c.retained.head? = c.kept[c.place - c.oldest]? := by
    rw [retained, List.head?_drop]
  have htail : c.retained.tail = c.kept.drop (c.place - c.oldest + 1) := by
    rw [retained, List.tail_drop]
  rw [hhead, htail, receive, hplace]
  cases hkept : c.kept[c.place - c.oldest]? with
  | some payload =>
    refine ⟨rfl, ?_⟩
    show c.kept.drop (max c.place c.oldest + 1 - c.oldest) = _
    congr 1
    omega
  | none =>
    refine ⟨rfl, ?_⟩
    have hlength := List.getElem?_eq_none_iff.mp hkept
    show c.kept.drop (max c.place c.oldest - c.oldest) = _
    rw [hplace, List.drop_eq_nil_of_le hlength, List.drop_eq_nil_of_le (Nat.le_succ_of_le hlength)]

end Channel

namespace Session

variable {s : Session} {id : UInt64}

/-- The events that the channel of a call still has for its receiver. -/
def retained (s : Session) (id : UInt64) : List Json := (s.channel? id).elim [] Channel.retained

/-- What the handle of a call finds when the event is that it reads. -/
def reading? (id : UInt64) : Session × SessionEvent → Option Received
  | (s, .channelRead target) => if target = id then some (s.receive id).1 else none
  | _ => none

/-- What the handle of a call finds in a run, in order. -/
def readings (s : Session) (events : List SessionEvent) (id : UInt64) : List Received :=
  (s.trace events).filterMap (reading? id)

theorem reading?_eq_some {e : SessionEvent} {received : Received}
    (h : reading? id (s, e) = some received) :
    e = .channelRead id ∧ received = (s.receive id).1 := by
  cases e <;> simp only [reading?, reduceCtorEq] at h
  case channelRead target =>
    split at h
    · next heq =>
      subst heq
      exact ⟨rfl, (Option.some.inj h).symm⟩
    · cases h

theorem readings_cons (s : Session) (e : SessionEvent) (events : List SessionEvent) (id : UInt64) :
    s.readings (e :: events) id =
      (reading? id (s, e)).toList ++ (s.step e).readings events id := by
  rw [readings, trace, List.filterMap_cons]
  cases reading? id (s, e) <;> rfl

/-! ## Changes of a channel -/

/-- Channels that are changed where they are stay the channels of their calls. -/
theorem channel?_of_map {t : Session} (change : UInt64 → Channel → Channel)
    (changed : t.channels = s.channels.map fun c => (c.1, change c.1 c.2)) :
    t.channel? id = (s.channel? id).map (change id) := by
  unfold channel?
  rw [changed]
  induction s.channels with
  | nil => rfl
  | cons entry entries ih =>
    by_cases hid : entry.1 = id
    · simp [hid]
    · simpa [hid] using ih

theorem channels_mapChannel (target : UInt64) (change : Channel → Channel) :
    (s.mapChannel target change).channels =
      s.channels.map fun c => (c.1, if c.1 = target then change c.2 else c.2) := by
  apply List.map_congr_left
  intro c _
  split <;> rfl

theorem channel?_mapChannel_self (change : Channel → Channel) :
    (s.mapChannel id change).channel? id = (s.channel? id).map change := by
  rw [channel?_of_map (fun target c => if target = id then change c else c)
    (channels_mapChannel id change)]
  simp only [if_true]

/-- A change of channels that leaves the events in them. -/
theorem retained_of_map {t : Session} (change : UInt64 → Channel → Channel)
    (same : ∀ target c, (change target c).retained = c.retained)
    (changed : t.channels = s.channels.map fun c => (c.1, change c.1 c.2)) :
    t.retained id = s.retained id := by
  rw [retained, channel?_of_map change changed, retained]
  cases s.channel? id with
  | none => rfl
  | some c => exact same id c

theorem retained_mapChannel {change : Channel → Channel}
    (same : ∀ c : Channel, (change c).retained = c.retained) (target : UInt64) :
    (s.mapChannel target change).retained id = s.retained id := by
  apply retained_of_map (fun other c => if other = target then change c else c) _
    (channels_mapChannel target change)
  intro other c
  split
  · exact same c
  · rfl

/-- Sessions with the same channels have the same events left in them. -/
theorem retained_congr {t : Session} (h : t.channels = s.channels) : t.retained id = s.retained id := by
  simp only [retained, channel?, h]

theorem retained_finish (c : Caller) (answer : Except TransportError Reply) :
    (s.finish c answer).retained id = s.retained id := by
  cases answer with
  | ok reply => rfl
  | error e => exact retained_mapChannel (s := s) Channel.retained_dropReceiver c.id

/-- Only a read takes events away after the end. -/
theorem Aftermath.retained_eq {t : Session} {e : SessionEvent} (happened : s.Aftermath e t)
    (unread : ∀ target, e ≠ .channelRead target) : t.retained id = s.retained id := by
  cases happened with
  | rest _ channels _ => exact retained_congr channels
  | turnAway => exact retained_finish (s := { s with nextId := s.nextId + 1 }) _ _
  | accept => rfl
  | take => exact retained_finish _ _
  | refuse => exact retained_finish _ _
  | expire => exact retained_finish (s := s.warn .callTimedOut) _ _
  | @cancel target =>
    exact retained_mapChannel (s := { s with callers := s.callers.filter (·.id ≠ target) })
      Channel.retained_dropReceiver target
  | read => exact absurd rfl (unread _)
  | release => exact retained_mapChannel Channel.retained_dropReceiver _

/-! ## Reading -/

theorem receive_of_channel? {c : Channel} (hc : s.channel? id = some c) :
    (s.receive id).1 = c.receive.1 ∧
      (s.receive id).2.channels = (s.mapChannel id fun _ => c.receive.2.2).channels := by
  unfold receive
  rw [hc]
  dsimp only
  split
  · exact ⟨rfl, rfl⟩
  · exact ⟨rfl, rfl⟩

theorem receive_of_channel?_eq_none (hc : s.channel? id = none) : s.receive id = (.ended, s) := by
  unfold receive
  rw [hc]

/-- A read takes the first retained event of its channel and leaves the other channels alone. -/
theorem retained_receive (target : UInt64) :
    (s.receive target).2.retained id =
      if target = id then (s.retained id).tail else s.retained id := by
  cases hc : s.channel? target with
  | none =>
    rw [receive_of_channel?_eq_none hc]
    split
    · next heq =>
      subst heq
      rw [retained, hc]
      rfl
    · rfl
  | some c =>
    rw [retained_congr (receive_of_channel? hc).2]
    split
    · next heq =>
      subst heq
      rw [retained, channel?_mapChannel_self, retained, hc]
      exact c.receive_retained.2
    · next hne => rw [retained, channel?_mapChannel_ne (Ne.symm hne), retained]

namespace Over

variable {cause : TransportError} {lost : UInt64 → Prop}

/-- A read finds the first event that is retained, or the end. -/
theorem receive_fst (h : s.Over cause lost) (id : UInt64) :
    (s.receive id).1 = (s.retained id).head?.elim .ended .event := by
  cases hc : s.channel? id with
  | none =>
    rw [receive_of_channel?_eq_none hc, retained, hc]
    rfl
  | some c =>
    obtain ⟨entry, hentry, rfl⟩ := Option.map_eq_some_iff.mp hc
    have hopen := h.muted entry (List.mem_of_find?_eq_some hentry)
    rw [(receive_of_channel? hc).1, entry.2.receive_retained.1, hopen, retained, hc]
    rfl

/-- A handle takes the event that it reads, and nothing else takes one away. -/
theorem retained_step (h : s.Over cause lost) (e : SessionEvent) (id : UInt64) :
    (s.step e).retained id =
      if (reading? id (s, e)).isSome then (s.retained id).tail else s.retained id := by
  cases e
  case channelRead target =>
    rw [Session.step, retained_receive, reading?]
    split <;> rfl
  all_goals
    apply (h.aftermath _).retained_eq
    intro target heq
    cases heq

/-- The handle of a call finds the events that are retained for it, one by one, and then the end. -/
theorem getElem?_readings (h : s.Over cause lost) (events : List SessionEvent) (id : UInt64)
    (k : Nat) : ∀ received, (s.readings events id)[k]? = some received →
      received = (s.retained id)[k]?.elim .ended .event := by
  induction events generalizing s k with
  | nil => exact fun received hreceived => absurd hreceived (by simp [readings, trace])
  | cons e events ih =>
    intro received hreceived
    have later := ih (h.step e)
    rw [h.retained_step] at later
    rw [readings_cons] at hreceived
    cases hread : reading? id (s, e) with
    | none =>
      rw [hread] at later hreceived
      exact later k received hreceived
    | some found =>
      rw [hread] at later hreceived
      cases k with
      | zero =>
        obtain ⟨-, hfound⟩ := reading?_eq_some hread
        have hfirst : found = received := Option.some.inj hreceived
        rw [← hfirst, hfound, h.receive_fst, List.head?_eq_getElem?]
      | succ k =>
        have hlater := later k received hreceived
        rwa [Option.isSome_some, if_pos rfl, List.getElem?_tail] at hlater

end Over

end Session

end IstanbulMonitor
