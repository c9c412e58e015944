import IstanbulMonitor.Proofs.Session.Channels

/-!
# The table of subscriptions

A channel is registered under a key by the response to the call that creates its subscription, and
by nothing else. It stays registered until the session ends, another response takes the key, or a
notification finds its receiver gone. `Session.TableChange` lists these changes, and
`Session.tableChange_step` says that this is all.
-/

set_option autoImplicit false

namespace IstanbulMonitor

namespace Session

/-- The key that the outcome of a creating call names. -/
def granted? (outcome : Outcome) : Option String := outcome.toOption.bind subscriptionKey?

/-- The key under which an event registers the channel of a call, and the call. -/
def registers? (s : Session) (e : SessionEvent) : Option (String × UInt64) :=
  if s.isClosed then none
  else e.response?.bind fun r =>
    if (s.calls.find? (·.id = r.1)).any (·.creates) then (granted? r.2).map (·, r.1) else none

/-- The table with the channel of a call registered. -/
def enroll (table : List (String × UInt64)) (key : String) (id : UInt64) :
    List (String × UInt64) :=
  table.filter (·.1 ≠ key) ++ [(key, id)]

/-- Everything that an event can do to the table of subscriptions. -/
inductive TableChange (s : Session) (e : SessionEvent) : List (String × UInt64) → Prop
  | rest (unregistered : s.registers? e = none) : TableChange s e s.subscriptions
  | enrolled {key : String} {id : UInt64} (registers : s.registers? e = some (key, id)) :
      TableChange s e (enroll s.subscriptions key id)
  | removed {key : String} {id : UInt64} (unregistered : s.registers? e = none)
      (found : s.sink? key = some id) (gone : (s.channel? id).any (·.receiverOpen) = false) :
      TableChange s e (s.subscriptions.filter (·.1 ≠ key))
  | emptied (unregistered : s.registers? e = none) (closed : (s.step e).isClosed = true) :
      TableChange s e []

variable {s t : Session} {e : SessionEvent} {key : String} {id : UInt64}

theorem registers?_of_response?_eq_none (h : e.response? = none) : s.registers? e = none := by
  unfold registers?
  rw [h]
  split <;> rfl

theorem registers?_of_response? {outcome : Outcome} (isOpen : s.isClosed = false)
    (response : e.response? = some (id, outcome)) :
    s.registers? e =
      if (s.calls.find? (·.id = id)).any (·.creates) then (granted? outcome).map (·, id)
      else none := by
  unfold registers?
  rw [isOpen, response]
  rfl

/-! ## Keys in the table -/

theorem sink?_enroll (table : List (String × UInt64)) :
    ((enroll table key id).find? (·.1 = key)).map (·.2) = some id := by
  have hnone : (table.filter (·.1 ≠ key)).find? (·.1 = key) = none := by
    rw [List.find?_eq_none]
    intro entry hentry
    simpa using (List.mem_filter.mp hentry).2
  rw [enroll, List.find?_append, hnone]
  simp

theorem sink?_filter_of_ne {other : String} (hne : key ≠ other) (table : List (String × UInt64)) :
    ((table.filter (·.1 ≠ other)).find? (·.1 = key)) = table.find? (·.1 = key) := by
  rw [List.find?_filter]
  congr 1
  funext entry
  by_cases hkey : entry.1 = key <;> simp [hkey, hne]

theorem sink?_enroll_of_ne {other : String} (hne : key ≠ other) (table : List (String × UInt64)) :
    (enroll table other id).find? (·.1 = key) = table.find? (·.1 = key) := by
  rw [enroll, List.find?_append, sink?_filter_of_ne hne]
  simp [Ne.symm hne]

theorem mem_subscriptions_of_sink? (h : s.sink? key = some id) : (key, id) ∈ s.subscriptions := by
  obtain ⟨entry, hentry, rfl⟩ := Option.map_eq_some_iff.mp h
  have hkey : entry.1 = key := by simpa using List.find?_some hentry
  rw [← hkey]
  exact List.mem_of_find?_eq_some hentry

/-! ## The change that each event makes -/

theorem subscriptions_finish (c : Caller) (answer : Except TransportError Reply) :
    (s.finish c answer).subscriptions = s.subscriptions :=
  congrArg Ledger.subscriptions (ledger_finish s c answer)

theorem subscriptions_abandon (target : UInt64) :
    (s.abandon target).subscriptions = s.subscriptions :=
  congrArg Ledger.subscriptions (ledger_abandon s target)

theorem subscriptions_raise (signal : Signal) : (s.raise signal).subscriptions = s.subscriptions :=
  congrArg Ledger.subscriptions (ledger_raise s signal)

theorem subscriptions_subscribe (target : UInt64) :
    (s.subscribe key target).subscriptions = enroll s.subscriptions key target := by
  unfold subscribe
  cases s.subscriptions.find? (·.1 = key) <;> rfl

theorem subscriptions_resolve (target : UInt64) (outcome : Outcome) :
    (s.resolve target outcome).subscriptions =
      match (s.calls.find? (·.id = target)).any (·.creates), granted? outcome with
      | true, some key => enroll s.subscriptions key target
      | _, _ => s.subscriptions := by
  unfold resolve granted?
  cases s.calls.find? (·.id = target) with
  | none => rfl
  | some call =>
    have delivered : ∀ (t : Session) (delivery : Delivery),
        (t.deliver target delivery).subscriptions = t.subscriptions := fun _ _ => rfl
    rw [Option.any_some]
    dsimp only
    rw [delivered]
    cases call.creates with
    | false => rfl
    | true =>
      cases outcome.toOption.bind subscriptionKey? with
      | none => rfl
      | some key =>
        exact subscriptions_subscribe
          (s := { s with calls := s.calls.filter (·.id ≠ target) }.measure Metrics.callEnded) target

theorem subscriptions_terminate (isOpen : s.termination = none) (cause : TransportError) :
    (s.terminate cause).subscriptions = [] :=
  congrArg Ledger.subscriptions (ledger_terminate s cause isOpen)

theorem isClosed_terminate (isOpen : s.termination = none) (cause : TransportError) :
    (s.terminate cause).isClosed = true := by
  have hterm : (s.terminate cause).termination = some cause :=
    congrArg Ledger.termination (ledger_terminate s cause isOpen)
  rw [isClosed, hterm]
  rfl

namespace TableChange

theorem same (noResponse : e.response? = none) (h : t.subscriptions = s.subscriptions) :
    s.TableChange e t.subscriptions := by
  rw [h]
  exact .rest (registers?_of_response?_eq_none noResponse)

/-- The end empties the table. -/
theorem terminate (noResponse : e.response? = none) (isOpen : t.termination = none)
    {cause : TransportError} (step : s.step e = t.terminate cause) :
    s.TableChange e (s.step e).subscriptions := by
  have closed := isClosed_terminate isOpen cause
  rw [← step] at closed
  rw [step, subscriptions_terminate isOpen]
  exact .emptied (registers?_of_response?_eq_none noResponse) closed

theorem lose (noResponse : e.response? = none) {reason : String}
    (step : s.step e = s.lose reason) : s.TableChange e (s.step e).subscriptions := by
  cases hterm : s.termination with
  | some cause =>
    have hsame : s.step e = s := step.trans (if_pos (by simp [isClosed, hterm]))
    rw [hsame]
    exact .same noResponse rfl
  | none =>
    have hterminate := step.trans (lose_of_isOpen hterm reason)
    exact .terminate (t := s.warn .receiveEnded) noResponse hterm hterminate

end TableChange

theorem tableChange_dispatch (text : String) :
    s.TableChange (.textArrived text) (s.dispatch text).subscriptions := by
  unfold dispatch
  cases hclosed : s.isClosed with
  | true =>
    have hnone : s.registers? (.textArrived text) = none := by simp [registers?, hclosed]
    exact .rest hnone
  | false =>
    simp only [Bool.false_eq_true, if_false]
    cases hframe : Frame.decode text with
    | error fault => exact .same (by simp [SessionEvent.response?, hframe]) rfl
    | ok frame =>
      cases frame with
      | request target method params => exact .same (by simp [SessionEvent.response?, hframe]) rfl
      | response target outcome =>
        have response : (SessionEvent.textArrived text).response? = some (target, outcome) := by
          simp [SessionEvent.response?, hframe]
        have hregisters := registers?_of_response? hclosed response
        simp only [subscriptions_resolve]
        cases hcreates : (s.calls.find? (·.id = target)).any (·.creates) with
        | false =>
          rw [hcreates] at hregisters
          exact .rest hregisters
        | true =>
          rw [hcreates, if_pos rfl] at hregisters
          cases hgranted : granted? outcome with
          | none =>
            rw [hgranted] at hregisters
            exact .rest hregisters
          | some key =>
            rw [hgranted] at hregisters
            exact .enrolled hregisters
      | notification key payload =>
        have hnone : s.registers? (.textArrived text) = none :=
          registers?_of_response?_eq_none (by simp [SessionEvent.response?, hframe])
        simp only [forward]
        cases hfind : s.subscriptions.find? (·.1 = key) with
        | none => exact .rest hnone
        | some sub =>
          have hsink : s.sink? key = some sub.2 := by rw [sink?, hfind, Option.map_some]
          dsimp only
          cases hreceiver : (s.channel? sub.2).any (·.receiverOpen) with
          | true =>
            simp only [if_true]
            exact .rest hnone
          | false =>
            simp only [Bool.false_eq_true, if_false]
            exact .removed hnone hsink hreceiver

/-- The reader obeys the signal that was given, unless the session has ended. -/
theorem tableChange_obey :
    s.TableChange .readerObeyed (s.step .readerObeyed).subscriptions := by
  cases hterm : s.termination with
  | some cause =>
    have hsame : s.step .readerObeyed = s := if_pos (by simp [isClosed, hterm])
    rw [hsame]
    exact .same rfl rfl
  | none =>
    have isOpen : s.isClosed = false := by simp [isClosed, hterm]
    cases hsignal : s.signal with
    | running =>
      have hobey : s.step .readerObeyed = s := by simp [step, obey, hsignal]
      rw [hobey]
      exact .same rfl rfl
    | close =>
      have hobey : s.step .readerObeyed = s.terminate .closed := by
        simp [step, obey, isOpen, hsignal]
      exact .terminate rfl hterm hobey
    | writeFailed reason =>
      have hobey : s.step .readerObeyed = s.lose reason := by
        simp [step, obey, isOpen, hsignal]
      exact .lose rfl hobey

/-- Every event changes the table of subscriptions in one of the listed ways. -/
theorem tableChange_step (s : Session) (e : SessionEvent) :
    s.TableChange e (s.step e).subscriptions := by
  cases e with
  | called method kind timeout =>
    simp only [step, start]
    split
    · exact .same rfl (subscriptions_finish _ _)
    · exact .same rfl rfl
  | textArrived text => exact tableChange_dispatch text
  | accepted target =>
    simp only [step]
    split <;> exact .same rfl rfl
  | refused target =>
    simp only [step, refuse]
    split
    · split
      · exact .same rfl rfl
      · exact .same rfl ((subscriptions_finish _ _).trans (subscriptions_abandon target))
    · exact .same rfl rfl
  | woken target =>
    simp only [step, wake]
    split
    · exact .same rfl rfl
    · split
      · exact .same rfl ((subscriptions_finish _ _).trans (subscriptions_abandon target))
      · exact .same rfl rfl
  | expired target =>
    simp only [step, expire]
    split
    · split
      · exact .same rfl rfl
      · exact .same rfl ((subscriptions_finish _ _).trans
          (subscriptions_abandon (s := s.warn .callTimedOut) target))
    · exact .same rfl rfl
  | cancelled target =>
    simp only [step, cancel]
    split
    · exact .same rfl (subscriptions_abandon target)
    · exact .same rfl rfl
  | bytesArrived =>
    simp only [step]
    split <;> exact .same rfl rfl
  | connectionLost reason => exact .lose rfl rfl
  | closeRequested => exact .same rfl (subscriptions_raise _)
  | readerObeyed => exact tableChange_obey
  | writeFailed reason =>
    simp only [step, failWriting]
    split
    · exact .same rfl rfl
    · exact .same rfl (subscriptions_raise _)
  | writerObeyed =>
    simp only [step, stopWriting]
    split <;> exact .same rfl rfl
  | channelRead target => exact .same rfl (congrArg Ledger.subscriptions (ledger_receive target))
  | channelReleased target => exact .same rfl rfl

end Session

end IstanbulMonitor
