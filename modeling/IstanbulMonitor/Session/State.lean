import IstanbulMonitor.Session.Channel
import IstanbulMonitor.Telemetry.Journal
import IstanbulMonitor.Transport.Error

/-!
# Sessions

A session correlates calls with responses over one connection and forwards
notifications to subscriptions. Its state holds the table of pending calls, the
callers behind them, the live subscriptions and, once the connection has ended,
the cause. The reader and the writer of the connection learn from a signal that
they are to stop.

A call is pending from its registration until it is resolved by the response
with its id, abandoned by its caller, or drained at the end of the session. An
answer is left in the caller's mailbox, and the caller takes it when it wakes.
A response that creates a subscription registers the channel of the call before
anything else is dispatched.

`resolve`, `abandon` and `terminate` are one step each, with the table, the gauge
and the mailboxes changed together. The program changes the table under its lock
and the others right after it.
-/

set_option autoImplicit false

namespace IstanbulMonitor

/-- What a caller asks for: a value, the text of a result, or a subscription. -/
inductive CallKind where
  | structured
  | raw
  | subscription
  deriving DecidableEq

/-- What a call ends with. -/
inductive Reply where
  | value (value : Json)
  | raw (text : String)
  | subscribed (key : String)

/-- What is left in a mailbox: the text of a result, or an error. -/
abbrev Delivery := Except TransportError String

/-- Why the session is to end: its owner closes it, or a frame could not be written. -/
inductive Signal where
  | running
  | close
  | writeFailed (reason : String)
  deriving DecidableEq

/-- An entry of the table of pending calls. -/
structure PendingCall where
  id : UInt64
  method : String
  creates : Bool
  deriving DecidableEq

/-- A caller that has not been answered. While `sending`, its frame waits for room on its way out
and the mailbox is not looked at. -/
structure Caller where
  id : UInt64
  method : String
  kind : CallKind
  timeout : Span
  sending : Bool := true
  mail : Option Delivery := none

/-- The state of a session. Channels are named by the id of the call that created them. -/
structure Session where
  buffer : Nat
  nextId : UInt64 := 1
  calls : List PendingCall := []
  callers : List Caller := []
  signal : Signal := .running
  writerStopped : Bool := false
  termination : Option TransportError := none
  subscriptions : List (String × UInt64) := []
  channels : List (UInt64 × Channel) := []
  ended : List (UInt64 × Except TransportError Reply) := []
  journal : Journal := {}

namespace Session

/-- The subscription that the text of a result names. -/
def subscriptionKey? (text : String) : Option String :=
  (Json.parse? text).bind Frame.subscriptionKey?

/-- The answer of a call of the given kind, read from what was delivered. -/
def conclude (kind : CallKind) (method : String) : Delivery → Except TransportError Reply
  | .error e => .error e
  | .ok text =>
    match kind with
    | .raw => .ok (.raw text)
    | .structured =>
      match Json.parse? text with
      | some value => .ok (.value value)
      | none => .error (.decode method .shape)
    | .subscription =>
      match subscriptionKey? text with
      | some key => .ok (.subscribed key)
      | none => .error (.decode method (.text s!"invalid subscription id {text}"))

/-- The outcome under which the end of a call is counted. -/
def outcome : Except TransportError Reply → String
  | .ok _ => "ok"
  | .error e => e.outcome

/-- The number of pending calls. -/
def pendingCount (s : Session) : Nat := s.calls.length

/-- Whether the connection has ended. -/
def isClosed (s : Session) : Bool := s.termination.isSome

/-- The cause that a caller is told when its frame cannot be sent any more. -/
def cause (s : Session) : TransportError := s.termination.getD .closed

/-- The channel of a subscription. -/
def channel? (s : Session) (id : UInt64) : Option Channel :=
  (s.channels.find? (·.1 = id)).map (·.2)

/-- The session with one channel changed. -/
def mapChannel (s : Session) (id : UInt64) (change : Channel → Channel) : Session :=
  { s with channels := s.channels.map fun c => if c.1 = id then (c.1, change c.2) else c }

/-- The session with a metric changed. -/
def measure (s : Session) (change : Metrics → Metrics) : Session :=
  { s with journal := s.journal.measure change }

/-- The session with a warning given. -/
def warn (s : Session) (w : Warning) : Session := { s with journal := s.journal.warn w }

/-- A caller's end: the caller is gone, its answer is kept for the outside, and its outcome is
counted. The receiver of a subscription that did not come about is dropped. -/
def finish (s : Session) (caller : Caller) (answer : Except TransportError Reply) : Session :=
  let s := { s with
    callers := s.callers.filter (·.id ≠ caller.id)
    ended := s.ended ++ [(caller.id, answer)] }
  let s :=
    match answer with
    | .ok _ => s
    | .error _ => s.mapChannel caller.id Channel.dropReceiver
  s.measure (·.countCall caller.method (outcome answer))

/-- A new call. It takes the next id; it is registered unless the session has ended, and then its
caller is told the cause at once. -/
def start (s : Session) (method : String) (kind : CallKind) (timeout : Span) : Session × UInt64 :=
  let id := s.nextId
  let caller : Caller := { id, method, kind, timeout }
  let s := { s with nextId := id + 1 }
  match s.termination with
  | some cause => (s.finish caller (.error cause), id)
  | none =>
    let call : PendingCall := { id, method, creates := kind == .subscription }
    let s : Session := { s with
      calls := s.calls ++ [call]
      callers := s.callers ++ [caller]
      channels :=
        if call.creates then s.channels ++ [(id, Channel.make s.buffer)] else s.channels }
    (s.measure Metrics.callRegistered, id)

/-- The frame of a call was accepted on its way out. -/
def accepted (s : Session) (id : UInt64) : Session :=
  { s with callers := s.callers.map fun c => if c.id = id then { c with sending := false } else c }

/-- A delivery left in a caller's mailbox. -/
def deliver (s : Session) (id : UInt64) (delivery : Delivery) : Session :=
  { s with
    callers := s.callers.map fun c => if c.id = id then { c with mail := some delivery } else c }

/-- A subscription registered under its key. One that had the key before loses its sender. -/
def subscribe (s : Session) (key : String) (id : UInt64) : Session :=
  let s :=
    match s.subscriptions.find? (·.1 = key) with
    | some old => s.mapChannel old.2 Channel.dropSender
    | none => s
  { s with subscriptions := (s.subscriptions.filter (·.1 ≠ key)) ++ [(key, id)] }

/-- A response: the pending call with its id, if there is one, leaves the table and its caller is
delivered the outcome. -/
def resolve (s : Session) (id : UInt64) (outcome : Outcome) : Session :=
  match s.calls.find? (·.id = id) with
  | none => s
  | some call =>
    let s := { s with calls := s.calls.filter (·.id ≠ id) }.measure Metrics.callEnded
    -- the channel is registered before the next frame is looked at, so no event is missed
    let s :=
      if call.creates then
        match outcome.toOption.bind subscriptionKey? with
        | some key => s.subscribe key id
        | none => s.mapChannel id Channel.dropSender
      else s
    s.deliver id (outcome.mapError .remote)

/-- A notification: it goes to the channel of its subscription. A subscription whose receiver is
gone is removed instead. -/
def forward (s : Session) (key : String) (payload : Json) : Session :=
  match s.subscriptions.find? (·.1 = key) with
  | none => s
  | some (_, id) =>
    if (s.channel? id).any (·.receiverOpen) then
      (s.mapChannel id (·.send payload)).measure Metrics.countEvent
    else
      { s with subscriptions := s.subscriptions.filter (·.1 ≠ key) }.mapChannel id
        Channel.dropSender

/-- A text that arrived. A session that has ended takes nothing in. -/
def dispatch (s : Session) (text : String) : Session :=
  if s.isClosed then s
  else
    match Frame.decode text with
    | .ok (.response id outcome) => s.resolve id outcome
    | .ok (.notification key payload) => s.forward key payload
    | .ok (.request _ _ _) => s
    | .error _ => s.warn .undecodableFrame

/-- The pending entry of a call whose caller no longer waits is removed. -/
def abandon (s : Session) (id : UInt64) : Session :=
  if s.calls.any (·.id = id) then
    { s with calls := s.calls.filter (·.id ≠ id) }.measure Metrics.callEnded
  else s

/-- A caller wakes and takes what its mailbox holds. -/
def wake (s : Session) (id : UInt64) : Session :=
  match s.callers.find? (·.id = id) with
  | none => s
  | some caller =>
    match caller.sending, caller.mail with
    | false, some delivery =>
      (s.abandon id).finish caller (conclude caller.kind caller.method delivery)
    | _, _ => s

/-- A caller finds that its frame can no longer be sent. -/
def refuse (s : Session) (id : UInt64) : Session :=
  match s.callers.find? (·.id = id) with
  | none => s
  | some caller => (s.abandon id).finish caller (.error s.cause)

/-- A caller's time is up. -/
def expire (s : Session) (id : UInt64) : Session :=
  match s.callers.find? (·.id = id) with
  | none => s
  | some caller =>
    ((s.warn .callTimedOut).abandon id).finish caller
      (.error (.timeout caller.method caller.timeout))

/-- A caller that still waits gives up without an answer; its outcome is not counted. -/
def cancel (s : Session) (id : UInt64) : Session :=
  if s.callers.any (·.id = id) then
    let s := s.abandon id
    { s with callers := s.callers.filter (·.id ≠ id) }.mapChannel id Channel.dropReceiver
  else s

/-- A signal to stop; the first one counts. -/
def raise (s : Session) (signal : Signal) : Session :=
  if s.signal = .running then { s with signal } else s

/-- The connection has ended. The first cause counts; every pending call is delivered it, and
every subscription loses its sender. -/
def terminate (s : Session) (cause : TransportError) : Session :=
  -- from here on no call is registered, so these are the last ones
  let drained := s.calls
  let s : Session := { s with
    calls := []
    termination := some (s.termination.getD cause) }
  let s := drained.foldl
    (fun s call => (s.measure Metrics.callEnded).deliver call.id (.error cause)) s
  let s : Session := { s with
    subscriptions := []
    channels := s.channels.map fun c => (c.1, c.2.dropSender) }
  s.raise .close

/-- The reader finds that the connection is gone. -/
def lose (s : Session) (reason : String) : Session :=
  if s.isClosed then s else (s.warn .receiveEnded).terminate (.connectionLost reason)

/-- The reader obeys the signal. -/
def obey (s : Session) : Session :=
  if s.isClosed then s
  else
    match s.signal with
    | .running => s
    | .close => s.terminate .closed
    | .writeFailed reason => s.lose reason

/-- The writer cannot write a frame and stops. -/
def failWriting (s : Session) (reason : String) : Session :=
  if s.writerStopped then s
  else { (s.warn .writeFailed).raise (.writeFailed reason) with writerStopped := true }

/-- The writer obeys the signal. -/
def stopWriting (s : Session) : Session :=
  if s.signal = .running then s else { s with writerStopped := true }

/-- The receiver of a channel reads once; events it missed are counted and warned of. -/
def receive (s : Session) (id : UInt64) : Received × Session :=
  match s.channel? id with
  | none => (.ended, s)
  | some c =>
    let (received, lag, c) := c.receive
    let s := s.mapChannel id fun _ => c
    if lag = 0 then (received, s)
    else (received, (s.measure (·.countLagged lag)).warn .subscriberLagging)

/-- The receiver of a channel is dropped. -/
def release (s : Session) (id : UInt64) : Session := s.mapChannel id Channel.dropReceiver

/-- The answers of callers that ended, and the session without them. -/
def takeEnded (s : Session) : List (UInt64 × Except TransportError Reply) × Session :=
  (s.ended, { s with ended := [] })

end Session

end IstanbulMonitor
