import IstanbulMonitor.Proofs.Session.Correlation
import IstanbulMonitor.Proofs.Session.Delivery

/-!
# The gauge of pending calls

A call is taken out of the table by its response, by its caller's leaving, or at the end of the
connection, and a caller that leaves later may find its entry gone already. `Session.Booking` lists
what an event does to the table together with what it does to the gauge. Hence every registered
call is taken off the gauge exactly once, when its entry leaves the table, and the gauge stands
above its value at the session's creation by the number of pending calls (`Session.gauge_run`).

An event changes the table and the gauge together. The program changes the gauge right after it has
let go of the table, so another thread may see the gauge lag behind by an entry that is just being
put in or taken out. The equations below are those of the states between whole events.
-/

set_option autoImplicit false

namespace IstanbulMonitor.Session

open Ledger (Sound)

/-- The value of the gauge of pending calls. -/
def gauge (s : Session) : Nat := s.journal.metrics.pending

/-- The ids in the table of pending calls. -/
def pendingIds (s : Session) : List UInt64 := s.calls.map (·.id)

/-- The ids that an event puts into the table of pending calls. -/
def admits (s : Session) (e : SessionEvent) : List UInt64 :=
  (s.step e).pendingIds.filter (· ∉ s.pendingIds)

/-- The ids that an event takes out of the table of pending calls. -/
def strikes (s : Session) (e : SessionEvent) : List UInt64 :=
  s.pendingIds.filter (· ∉ (s.step e).pendingIds)

/-- The ids that a run put into the table, as they came. -/
def admitted (s : Session) (events : List SessionEvent) : List UInt64 :=
  (s.trace events).flatMap fun p => p.1.admits p.2

/-- The ids that a run took out of the table, as they went. -/
def struck (s : Session) (events : List SessionEvent) : List UInt64 :=
  (s.trace events).flatMap fun p => p.1.strikes p.2

theorem admitted_concat (s : Session) (events : List SessionEvent) (e : SessionEvent) :
    s.admitted (events ++ [e]) = s.admitted events ++ (s.run events).admits e := by
  simp [admitted, trace_append, trace]

theorem struck_concat (s : Session) (events : List SessionEvent) (e : SessionEvent) :
    s.struck (events ++ [e]) = s.struck events ++ (s.run events).strikes e := by
  simp [struck, trace_append, trace]

/-! ## The table and the gauge -/

/-- The table of pending calls and the value of its gauge. -/
def books (s : Session) : List PendingCall × Nat := (s.calls, s.gauge)

/-- Everything that an event can do to the table of pending calls and to its gauge. -/
inductive Booking (s : Session) (e : SessionEvent) : List PendingCall × Nat → Prop
  | rest (idle : e.isCall = true → s.termination.isSome = true) : Booking s e s.books
  | register (call : PendingCall) (asked : e.isCall = true) (isOpen : s.termination = none)
      (next : call.id = s.nextId) :
      Booking s e (s.calls ++ [call], Metrics.increase s.gauge 1)
  | strike {id : UInt64} (noCall : e.isCall = false) (pending : id ∈ s.pendingIds) :
      Booking s e (s.calls.filter (·.id ≠ id), s.gauge - 1)
  | drain (noCall : e.isCall = false) : Booking s e ([], s.gauge - s.calls.length)

variable {s : Session} {e : SessionEvent}

theorem Booking.refl (noCall : e.isCall = false) : s.Booking e s.books :=
  .rest fun h => absurd h (by simp [noCall])

theorem books_warn (w : Warning) : (s.warn w).books = s.books := rfl

theorem books_deliver (id : UInt64) (delivery : Delivery) :
    (s.deliver id delivery).books = s.books := rfl

theorem books_raise (signal : Signal) : (s.raise signal).books = s.books := by
  unfold raise
  split <;> rfl

theorem gauge_measure (change : Metrics → Metrics) :
    (s.measure change).gauge = (change s.journal.metrics).pending := rfl

theorem calls_measure (change : Metrics → Metrics) : (s.measure change).calls = s.calls := rfl

theorem books_measure {change : Metrics → Metrics} (same : ∀ m, (change m).pending = m.pending) :
    (s.measure change).books = s.books := by
  rw [books, gauge_measure, calls_measure, same]
  rfl

-- with a variable for the new value, since a rounded sum is not to be computed here
theorem pending_events (m : Metrics) (n : Nat) : { m with events := n }.pending = m.pending := rfl

theorem pending_lagged (m : Metrics) (n : Nat) : { m with lagged := n }.pending = m.pending := rfl

theorem pending_callRegistered (m : Metrics) :
    m.callRegistered.pending = Metrics.increase m.pending 1 := by
  simp only [Metrics.callRegistered]

theorem books_callRegistered :
    (s.measure Metrics.callRegistered).books = (s.calls, Metrics.increase s.gauge 1) := by
  rw [books, gauge_measure, calls_measure, pending_callRegistered, gauge]

theorem books_finish (c : Caller) (answer : Except TransportError Reply) :
    (s.finish c answer).books = s.books := by
  unfold finish
  cases answer <;> rfl

theorem books_subscribe (key : String) (id : UInt64) : (s.subscribe key id).books = s.books := by
  unfold subscribe
  cases s.subscriptions.find? (·.1 = key) <;> rfl

theorem books_forward (key : String) (payload : Json) :
    (s.forward key payload).books = s.books := by
  unfold forward
  cases s.subscriptions.find? (·.1 = key) with
  | none => rfl
  | some sub =>
    dsimp only
    split
    · exact books_measure fun m => pending_events m _
    · rfl

theorem books_stopWriting : s.stopWriting.books = s.books := by
  unfold stopWriting
  split <;> rfl

theorem books_failWriting (reason : String) : (s.failWriting reason).books = s.books := by
  unfold failWriting
  split
  · rfl
  · exact (books_raise _).trans (books_warn _)

theorem books_receive (id : UInt64) : (s.receive id).2.books = s.books := by
  unfold receive
  cases s.channel? id with
  | none => rfl
  | some c =>
    dsimp only
    split
    · rfl
    · exact books_measure (s := s.mapChannel id fun _ => c.receive.2.2) fun m => pending_lagged m _

/-- The end of the connection takes one off the gauge for each call that it drains. -/
theorem books_foldl_deliver (drained : List PendingCall) (delivery : Delivery) :
    (drained.foldl (fun s call => (s.measure Metrics.callEnded).deliver call.id delivery) s).books =
      (s.calls, s.gauge - drained.length) := by
  induction drained generalizing s with
  | nil => rfl
  | cons call drained ih =>
    rw [List.foldl_cons, ih, List.length_cons]
    show (s.calls, s.gauge - 1 - drained.length) = _
    rw [Nat.sub_sub, Nat.add_comm 1]

theorem books_terminate (cause : TransportError) :
    (s.terminate cause).books = ([], s.gauge - s.calls.length) := by
  unfold terminate
  rw [books_raise]
  exact books_foldl_deliver (s := { s with
    calls := [], termination := some (s.termination.getD cause) }) s.calls (.error cause)

/-! ## What each event books -/

theorem mem_pendingIds {id : UInt64} : id ∈ s.pendingIds ↔ s.ledger.IsPending id := List.mem_map

/-- A caller's leaving takes its entry out unless it is gone already. -/
theorem booking_abandon (noCall : e.isCall = false) (id : UInt64) :
    s.Booking e (s.abandon id).books := by
  unfold abandon
  split
  case isTrue h =>
    exact .strike noCall (mem_pendingIds.mpr (Ledger.any_calls_iff (l := s.ledger).mp h))
  case isFalse => exact .refl noCall

theorem books_abandon_warn (w : Warning) (id : UInt64) :
    ((s.warn w).abandon id).books = (s.abandon id).books := by
  have calls : (s.warn w).calls = s.calls := rfl
  simp only [abandon, calls]
  split <;> rfl

theorem booking_start (method : String) (kind : CallKind) (timeout : Span) :
    s.Booking (.called method kind timeout) (s.start method kind timeout).1.books := by
  simp only [start]
  split
  case h_1 cause closed =>
    simp only [books_finish]
    exact .rest fun _ => by simp [closed]
  case h_2 isOpen =>
    rw [books_callRegistered]
    exact .register ⟨s.nextId, method, kind == .subscription⟩ rfl isOpen rfl

theorem booking_wake (id : UInt64) : s.Booking (.woken id) (s.wake id).books := by
  unfold wake
  split
  · exact .refl rfl
  split
  · rw [books_finish]
    exact booking_abandon rfl id
  · exact .refl rfl

theorem booking_refuse (id : UInt64) : s.Booking (.refused id) (s.refuse id).books := by
  unfold refuse
  split
  · exact .refl rfl
  · rw [books_finish]
    exact booking_abandon rfl id

theorem booking_expire (id : UInt64) : s.Booking (.expired id) (s.expire id).books := by
  unfold expire
  split
  · exact .refl rfl
  · rw [books_finish, books_abandon_warn]
    exact booking_abandon rfl id

theorem booking_cancel (id : UInt64) : s.Booking (.cancelled id) (s.cancel id).books := by
  unfold cancel
  split
  · have abandoned : s.Booking (.cancelled id) (s.abandon id).books := booking_abandon rfl id
    exact abandoned
  · exact .refl rfl

theorem booking_resolve (noCall : e.isCall = false) (id : UInt64) (outcome : Outcome) :
    s.Booking e (s.resolve id outcome).books := by
  unfold resolve
  cases hcall : s.calls.find? (·.id = id) with
  | none => exact .refl noCall
  | some call =>
    have struck : s.Booking e
        ({ s with calls := s.calls.filter (·.id ≠ id) }.measure Metrics.callEnded).books :=
      .strike noCall (mem_pendingIds.mpr (isPending_of_find? hcall))
    -- what becomes of the channel of the call is not booked
    simp only [books_deliver]
    cases call.creates with
    | false => exact struck
    | true =>
      cases outcome.toOption.bind subscriptionKey? with
      | none => exact struck
      | some key =>
        simp only [if_true, books_subscribe]
        exact struck

theorem booking_dispatch (text : String) :
    s.Booking (.textArrived text) (s.dispatch text).books := by
  unfold dispatch
  split
  · exact .refl rfl
  cases Frame.decode text with
  | error fault => exact .refl rfl
  | ok frame =>
    cases frame with
    | response id outcome => exact booking_resolve rfl id outcome
    | notification key payload =>
      simp only [books_forward]
      exact .refl rfl
    | request id method params => exact .refl rfl

theorem booking_lose (noCall : e.isCall = false) (reason : String) :
    s.Booking e (s.lose reason).books := by
  unfold lose
  split
  · exact .refl noCall
  · rw [books_terminate]
    exact .drain noCall

theorem booking_obey : s.Booking .readerObeyed s.obey.books := by
  unfold obey
  split
  · exact .refl rfl
  cases s.signal with
  | running => exact .refl rfl
  | close =>
    simp only [books_terminate]
    exact .drain rfl
  | writeFailed reason => exact booking_lose rfl reason

/-- Every event books in one of the listed ways. -/
theorem booking_step (s : Session) (e : SessionEvent) : s.Booking e (s.step e).books := by
  cases e with
  | called method kind timeout => exact booking_start method kind timeout
  | accepted id =>
    simp only [step]
    split <;> exact .refl rfl
  | refused id =>
    simp only [step]
    split
    · exact booking_refuse id
    · exact .refl rfl
  | woken id => exact booking_wake id
  | expired id =>
    simp only [step]
    split
    · exact booking_expire id
    · exact .refl rfl
  | cancelled id => exact booking_cancel id
  | textArrived text => exact booking_dispatch text
  | bytesArrived =>
    simp only [step]
    split <;> exact .refl rfl
  | connectionLost reason => exact booking_lose rfl reason
  | closeRequested =>
    simp only [step, books_raise]
    exact .refl rfl
  | readerObeyed => exact booking_obey
  | writeFailed reason =>
    simp only [step, books_failWriting]
    exact .refl rfl
  | writerObeyed =>
    simp only [step, books_stopWriting]
    exact .refl rfl
  | channelRead id =>
    simp only [step, books_receive]
    exact .refl rfl
  | channelReleased id => exact .refl rfl

/-! ## Entries come and go -/

variable {n start : Nat} {id : UInt64}

theorem pendingCount_eq_length (s : Session) : s.pendingCount = s.pendingIds.length :=
  (List.length_map ..).symm

theorem pendingIds_of_books {calls : List PendingCall} {value : Nat}
    (h : s.books = (calls, value)) : s.pendingIds = calls.map (·.id) :=
  congrArg (fun b => b.1.map (·.id)) h

theorem gauge_of_books {calls : List PendingCall} {value : Nat} (h : s.books = (calls, value)) :
    s.gauge = value :=
  congrArg Prod.snd h

theorem map_id_filter (calls : List PendingCall) :
    (calls.filter (·.id ≠ id)).map (·.id) = (calls.map (·.id)).filter (· ≠ id) := by
  rw [List.filter_map]
  rfl

/-- The entries an event finds and those it puts in are those it takes out and those it leaves. A
call is put in exactly when it is made before the end of the connection. -/
structure Moves (s : Session) (e : SessionEvent) : Prop where
  admits : s.admits e = if e.isCall = true ∧ s.termination = none then [s.nextId] else []
  balance : (s.pendingIds ++ s.admits e).Perm (s.strikes e ++ (s.step e).pendingIds)

theorem moves_of_admits_eq_nil (idle : ¬ (e.isCall = true ∧ s.termination = none))
    (admits : s.admits e = []) (split : s.pendingIds.Perm (s.strikes e ++ (s.step e).pendingIds)) :
    s.Moves e where
  admits := by rw [admits, if_neg idle]
  balance := by rwa [admits, List.append_nil]

theorem moves_step (fresh : e.isCall = true → s.nextId ∉ s.pendingIds) : s.Moves e := by
  have booking := s.booking_step e
  generalize hbooks : (s.step e).books = books at booking
  cases booking with
  | rest idle =>
    have after : (s.step e).pendingIds = s.pendingIds := pendingIds_of_books hbooks
    have strikes : s.strikes e = [] := by simp [Session.strikes, after]
    refine moves_of_admits_eq_nil (fun h => ?_) (by simp [Session.admits, after]) ?_
    · simpa [h.2] using idle h.1
    · rw [strikes, after, List.nil_append]
  | register call asked isOpen next =>
    have after : (s.step e).pendingIds = s.pendingIds ++ [s.nextId] := by
      rw [pendingIds_of_books hbooks, List.map_append, List.map_singleton, next]
      rfl
    have admits : s.admits e = [s.nextId] := by
      simp [Session.admits, after, List.filter_append, fresh asked]
    have strikes : s.strikes e = [] := by
      simp only [Session.strikes, after, List.filter_eq_nil_iff, decide_eq_true_eq, not_not]
      exact fun id mem => List.mem_append_left _ mem
    exact ⟨by rw [admits, if_pos ⟨asked, isOpen⟩], by rw [admits, strikes, after, List.nil_append]⟩
  | @strike id noCall pending =>
    have after : (s.step e).pendingIds = s.pendingIds.filter (· ≠ id) := by
      rw [pendingIds_of_books hbooks, map_id_filter]
      rfl
    have strikes : s.strikes e = s.pendingIds.filter (· = id) := by
      refine List.filter_congr fun other mem => ?_
      simp [after, mem]
    refine moves_of_admits_eq_nil (fun h => ?_) ?_ ?_
    · simp [noCall] at h
    · simp only [Session.admits, after, List.filter_eq_nil_iff, decide_eq_true_eq, not_not]
      exact fun other mem => (List.mem_filter.mp mem).1
    · rw [strikes, after]
      simpa using (List.filter_append_perm (· = id) s.pendingIds).symm
  | drain noCall =>
    have after : (s.step e).pendingIds = [] := pendingIds_of_books hbooks
    have strikes : s.strikes e = s.pendingIds := by simp [Session.strikes, after]
    refine moves_of_admits_eq_nil (fun h => ?_) (by simp [Session.admits, after]) ?_
    · simp [noCall] at h
    · rw [strikes, after, List.append_nil]

theorem pendingCount_step_le (s : Session) (e : SessionEvent) :
    (s.step e).pendingCount ≤ s.pendingCount + e.isCall.toNat := by
  have booking := s.booking_step e
  show (s.step e).books.1.length ≤ s.calls.length + _
  generalize (s.step e).books = books at booking ⊢
  cases booking with
  | rest => exact Nat.le_add_right ..
  | register call asked =>
    rw [asked, List.length_append]
    exact Nat.le_refl _
  | strike =>
    exact Nat.le_add_right_of_le (List.length_filter_le ..)
  | drain => exact Nat.zero_le _

/-- There are no more pending calls than calls that were made. -/
theorem pendingCount_run_le (s : Session) (events : List SessionEvent) :
    (s.run events).pendingCount ≤ s.pendingCount + events.countP SessionEvent.isCall := by
  induction events using List.reverseRecOn with
  | nil => exact Nat.le_refl _
  | append_singleton events e ih =>
    have step := (s.run events).pendingCount_step_le e
    rw [run_concat, SessionEvent.countP_isCall_concat]
    omega

/-- While ids in the table are distinct, the gauge follows the number of entries. -/
theorem gauge_step (distinct : s.pendingIds.Nodup) (above : s.gauge = start + s.pendingCount)
    (small : start + (s.step e).pendingCount < 2 ^ 53) :
    (s.step e).gauge = start + (s.step e).pendingCount := by
  have booking := s.booking_step e
  rw [pendingCount_eq_length] at above small ⊢
  generalize hbooks : (s.step e).books = books at booking
  cases booking with
  | rest =>
    have after : (s.step e).pendingIds = s.pendingIds := pendingIds_of_books hbooks
    rw [after, gauge_of_books hbooks]
    exact above
  | register =>
    have after := pendingIds_of_books hbooks
    rw [List.map_append] at after
    have length : (s.step e).pendingIds.length = s.pendingIds.length + 1 := by
      rw [after, List.length_append]
      rfl
    rw [length] at small ⊢
    rw [gauge_of_books hbooks, above, Metrics.increase_of_lt (by omega), Nat.add_assoc]
  | @strike id _ pending =>
    have after : (s.step e).pendingIds = s.pendingIds.erase id := by
      rw [pendingIds_of_books hbooks, map_id_filter, distinct.erase_eq_filter]
      simp [pendingIds, bne, beq_eq_decide]
    have length := List.length_erase_of_mem pending
    have pos := List.length_pos_of_mem pending
    rw [after, gauge_of_books hbooks, above]
    omega
  | drain =>
    have after : (s.step e).pendingIds = [] := pendingIds_of_books hbooks
    have length : s.calls.length = s.pendingIds.length := pendingCount_eq_length s
    rw [after, gauge_of_books hbooks, above, length, List.length_nil]
    omega

/-- The gauge moves by one for each entry that comes or goes. -/
theorem Moves.gauge (moves : s.Moves e) (above : s.gauge = start + s.pendingCount)
    (above' : (s.step e).gauge = start + (s.step e).pendingCount) :
    (s.step e).gauge + (s.strikes e).length = s.gauge + (s.admits e).length := by
  have length := moves.balance.length_eq
  rw [List.length_append, List.length_append] at length
  rw [pendingCount_eq_length] at above above'
  omega

/-! ## Runs -/

/-- The account of the ids of a session that was asked for `n` calls: each was put into the table at
most once, and it was taken out at most once, namely if it is not there any more. -/
structure Balanced (s : Session) (n : Nat) (admitted struck : List UInt64) : Prop where
  given : ∀ id ∈ admitted, Given n id
  distinct : admitted.Nodup
  split : admitted.Perm (struck ++ s.pendingIds)

namespace Balanced

variable {admitted struck : List UInt64}

theorem distinct_pendingIds (h : s.Balanced n admitted struck) : s.pendingIds.Nodup :=
  (h.split.nodup_iff.mp h.distinct).of_append_right

theorem next_not_mem (h : s.Balanced n admitted struck) (sound : s.ledger.Sound n)
    (few : n + 1 < 2 ^ 64) : s.nextId ∉ admitted := fun mem =>
  sound.ne_nextId few (h.given _ mem) rfl

theorem moves (h : s.Balanced n admitted struck) (sound : s.ledger.Sound n)
    (few : n + e.isCall.toNat < 2 ^ 64) : s.Moves e := by
  refine moves_step fun asked mem => ?_
  rw [asked] at few
  exact h.next_not_mem sound few (h.split.mem_iff.mpr (List.mem_append_right _ mem))

theorem step (h : s.Balanced n admitted struck) (sound : s.ledger.Sound n)
    (few : n + e.isCall.toNat < 2 ^ 64) :
    (s.step e).Balanced (n + e.isCall.toNat) (admitted ++ s.admits e) (struck ++ s.strikes e) := by
  have moves : s.Moves e := h.moves sound few
  have admits := moves.admits
  constructor
  case split =>
    have grown : (admitted ++ s.admits e).Perm (struck ++ (s.pendingIds ++ s.admits e)) := by
      rw [← List.append_assoc]
      exact h.split.append_right _
    rw [List.append_assoc]
    exact grown.trans (moves.balance.append_left _)
  case given =>
    intro id mem
    rcases List.mem_append.mp mem with mem | mem
    · exact (h.given id mem).mono (Nat.le_add_right ..)
    · rw [admits] at mem
      split at mem
      case isTrue asked =>
        rw [asked.1] at few ⊢
        rw [List.mem_singleton.mp mem]
        exact sound.given_nextId few
      case isFalse => cases mem
  case distinct =>
    rw [admits]
    split
    case isTrue asked =>
      rw [asked.1] at few
      rw [← List.concat_eq_append]
      exact h.distinct.concat (h.next_not_mem sound few)
    case isFalse =>
      rw [List.append_nil]
      exact h.distinct

end Balanced

/-- A session at its beginning, when its metrics stand as in the journal. -/
def created (buffer : Nat) (journal : Journal) : Session := { fresh buffer with journal }

variable {buffer : Nat} {journal : Journal}

theorem sound_created_run (events : List SessionEvent)
    (few : events.countP SessionEvent.isCall < 2 ^ 64) :
    ((created buffer journal).run events).ledger.Sound (events.countP SessionEvent.isCall) := by
  induction events using List.reverseRecOn with
  | nil => exact Ledger.sound_fresh buffer
  | append_singleton events e ih =>
    rw [SessionEvent.countP_isCall_concat] at few ⊢
    rw [run_concat]
    exact (ih (by omega)).change (change_step _ e) few

theorem balanced_run (events : List SessionEvent)
    (few : events.countP SessionEvent.isCall < 2 ^ 64) :
    ((created buffer journal).run events).Balanced (events.countP SessionEvent.isCall)
      ((created buffer journal).admitted events) ((created buffer journal).struck events) := by
  induction events using List.reverseRecOn with
  | nil => exact ⟨fun id mem => (List.not_mem_nil mem).elim, List.nodup_nil, .nil⟩
  | append_singleton events e ih =>
    rw [SessionEvent.countP_isCall_concat] at few ⊢
    rw [run_concat, admitted_concat, struck_concat]
    exact (ih (by omega)).step (sound_created_run events (by omega)) few

theorem gauge_eq_run (events : List SessionEvent) (few : events.countP SessionEvent.isCall < 2 ^ 64)
    (small : ∀ before, before <+: events →
      journal.metrics.pending + ((created buffer journal).run before).pendingCount < 2 ^ 53) :
    ((created buffer journal).run events).gauge =
      journal.metrics.pending + ((created buffer journal).run events).pendingCount := by
  induction events using List.reverseRecOn with
  | nil => rfl
  | append_singleton events e ih =>
    rw [SessionEvent.countP_isCall_concat] at few
    have whole := small _ (List.prefix_refl _)
    have above := ih (by omega) fun before h => small before (h.trans (List.prefix_append ..))
    rw [run_concat] at whole ⊢
    exact gauge_step (balanced_run events (by omega)).distinct_pendingIds above whole

theorem Balanced.count_struck {admitted struck : List UInt64} (h : s.Balanced n admitted struck)
    (mem : id ∈ admitted) : struck.count id = if id ∈ s.pendingIds then 0 else 1 := by
  have total := h.split.count_eq id
  rw [List.count_append, List.count_eq_one_of_mem h.distinct mem] at total
  split
  case isTrue pending =>
    have := List.count_pos_iff.mpr pending
    omega
  case isFalse gone =>
    have := List.count_eq_zero_of_not_mem gone
    omega

theorem pendingIds_eq_nil (sound : s.ledger.Sound n) (h : s.callers = [] ∨ s.isClosed = true) :
    s.pendingIds = [] := by
  rcases h with none | closed
  · rw [List.eq_nil_iff_forall_not_mem]
    intro id mem
    obtain ⟨c, there, -⟩ := (sound.pending_iff id).mp (mem_pendingIds.mp mem)
    have callers : s.ledger.callers = [] := none
    rw [callers] at there
    cases there
  · exact congrArg (List.map (·.id)) (sound.drained closed)

/-- The gauge stands above its value at the session's creation by the number of pending calls,
after any run in which ids do not come round again and the gauge is small enough to be exact. Each
event moves it by one for each entry that it puts into the table of pending calls or takes out of
it, so nothing is ever taken off a gauge of zero, and an entry is put in when a call is made before
the end of the connection. So each registered call is taken off exactly once, when it is no longer
pending, and the gauge is back where it was when no caller waits any more and when the connection
has ended. All this is said of the states between whole events. -/
theorem gauge_run (buffer : Nat) (journal : Journal) (events : List SessionEvent)
    (few : events.countP SessionEvent.isCall < 2 ^ 64)
    (small : ∀ before, before <+: events →
      journal.metrics.pending + ((created buffer journal).run before).pendingCount < 2 ^ 53) :
    let s := (created buffer journal).run events
    let admitted := (created buffer journal).admitted events
    let struck := (created buffer journal).struck events
    s.gauge = journal.metrics.pending + s.pendingCount ∧
      s.gauge + struck.length = journal.metrics.pending + admitted.length ∧
      (∀ before e, before ++ [e] <+: events →
        let t := (created buffer journal).run before
        t.admits e = (if e.isCall = true ∧ t.termination = none then [t.nextId] else []) ∧
          (t.step e).gauge + (t.strikes e).length = t.gauge + (t.admits e).length) ∧
      admitted.Nodup ∧
      (∀ id ∈ admitted, struck.count id = if id ∈ s.pendingIds then 0 else 1) ∧
      (∀ id ∈ struck, id ∈ admitted) ∧
      (s.callers = [] ∨ s.isClosed = true → s.gauge = journal.metrics.pending) := by
  intro s admitted struck
  have sound : s.ledger.Sound _ := sound_created_run events few
  have balanced : s.Balanced _ admitted struck := balanced_run events few
  have above : s.gauge = journal.metrics.pending + s.pendingCount :=
    gauge_eq_run events few small
  refine ⟨above, ?_, ?_, balanced.distinct, fun id mem => balanced.count_struck mem,
    fun id mem => balanced.split.mem_iff.mpr (List.mem_append_left _ mem), ?_⟩
  · have length := balanced.split.length_eq
    rw [List.length_append, ← pendingCount_eq_length] at length
    omega
  · intro before e h t
    have fewer := h.sublist.countP_le (p := SessionEvent.isCall)
    rw [SessionEvent.countP_isCall_concat] at fewer
    have earlier : before <+: events := (List.prefix_append before [e]).trans h
    have moves : t.Moves e :=
      (balanced_run before (by omega)).moves (sound_created_run before (by omega)) (by omega)
    have hbefore : t.gauge = journal.metrics.pending + t.pendingCount :=
      gauge_eq_run before (by omega) fun _ h' => small _ (h'.trans earlier)
    have hafter := gauge_eq_run (before ++ [e])
      (by rw [SessionEvent.countP_isCall_concat]; omega) fun _ h' => small _ (h'.trans h)
    rw [run_concat] at hafter
    exact ⟨moves.admits, moves.gauge hbefore hafter⟩
  · intro ends
    rw [above, pendingCount_eq_length, pendingIds_eq_nil sound ends]
    rfl

/-- Four calls, of which one is answered, one runs out of time before its response arrives, one is
given up, and one is drained when the connection is lost. The fifth call comes too late. -/
def fourEndings : List SessionEvent :=
  [.called "net_version" .raw (.ofSeconds 5), .called "net_peerCount" .raw (.ofSeconds 5),
   .called "net_version" .raw (.ofSeconds 5), .called "net_version" .raw (.ofSeconds 5),
   .accepted 1, .accepted 4, .textArrived "\x7b\"id\":1,\"result\":3\x7d", .expired 2,
   .textArrived "\x7b\"id\":2,\"result\":4\x7d", .woken 1, .cancelled 3,
   .connectionLost "gone", .woken 4, .called "net_version" .raw (.ofSeconds 5)]

/-- A journal whose gauge counts three calls already. -/
def threeBefore : Journal := { metrics := { pending := 3 } }

/-- Each of the four is taken off the gauge once, although all of them leave after that, too. -/
theorem gauge_fourEndings :
    fourEndings.countP SessionEvent.isCall < 2 ^ 64 ∧
      (∀ before, before <+: fourEndings →
        3 + ((created 4 threeBefore).run before).pendingCount < 2 ^ 53) ∧
      ((created 4 threeBefore).run fourEndings).callers = [] ∧
      (created 4 threeBefore).admitted fourEndings = [1, 2, 3, 4] ∧
      (created 4 threeBefore).struck fourEndings = [1, 2, 3, 4] ∧
      ((created 4 threeBefore).run fourEndings).gauge = 3 := by
  have few : fourEndings.countP SessionEvent.isCall = 5 := by decide
  have small : ∀ before, before <+: fourEndings →
      3 + ((created 4 threeBefore).run before).pendingCount < 2 ^ 53 := by
    intro before h
    have fewer := h.sublist.countP_le (p := SessionEvent.isCall)
    have bound := (created 4 threeBefore).pendingCount_run_le before
    have none : (created 4 threeBefore).pendingCount = 0 := rfl
    omega
  obtain ⟨ended, admitted, struck⟩ :
      ((created 4 threeBefore).run fourEndings).callers.isEmpty = true ∧
        (created 4 threeBefore).admitted fourEndings = [1, 2, 3, 4] ∧
        (created 4 threeBefore).struck fourEndings = [1, 2, 3, 4] := by cbv
  have ended := List.isEmpty_iff.mp ended
  obtain ⟨-, -, -, -, -, -, back⟩ := gauge_run 4 threeBefore fourEndings (by omega) small
  exact ⟨by omega, small, ended, admitted, struck, back (Or.inl ended)⟩

end IstanbulMonitor.Session
