import IstanbulMonitor.Session.Event
import IstanbulMonitor.Transport.Config
import IstanbulMonitor.Wire.Loss

/-!
# Connections

A session over a connection to a peer, with a clock. The frame of a call waits
for room in a queue of bounded length; the writer takes frames from the queue in
order, and the peer reads what is written unless it has stopped reading. A
narrow connection holds nothing: while the peer does not read, the writer waits
for it with one frame. The reader answers a ping by itself, so its answer is
behind whatever was written before, and ahead of the frames in the queue.

Every function below ends in `settle`, after which nothing more can happen
before time passes or the peer acts. All changes of the session are events of
`Session.step`.
-/

set_option autoImplicit false

namespace IstanbulMonitor

/-- A message that reaches the peer. -/
inductive Sent where
  | text (frame : String)
  | pong (payload : Bytes)
  | close (code : Option Nat)

/-- The frame of a call, which waits for room in the queue. -/
structure Request where
  id : UInt64
  frame : String

/-- A session over a connection. The clock counts nanoseconds. `written` is on its way to the peer,
in this order; the writer is `stuck` while it waits for the peer to read that. `closing` is the last
message that is still to be written. -/
structure Connection where
  session : Session
  room : Nat
  narrow : Bool := false
  now : Nat := 0
  reading : Bool := true
  present : Bool := true
  waiting : List Request := []
  queue : List String := []
  stuck : Bool := false
  written : List Sent := []
  closing : Option Sent := none
  deadlines : List (UInt64 × Nat) := []

namespace Connection

/-- A new connection under the given settings. -/
def make (config : TransportConfig) (narrow : Bool) : Connection :=
  { session := { buffer := config.subscriptionBuffer }
    room := max config.outboundBuffer 1
    narrow }

/-- The connection after an event of its session. -/
def step (c : Connection) (event : SessionEvent) : Connection :=
  { c with session := c.session.step event }

/-- The connection after an event for each of some calls. -/
def stepAll (c : Connection) (event : UInt64 → SessionEvent) (ids : List UInt64) : Connection :=
  { c with session := c.session.run (ids.map event) }

/-- The connection with one more message written to the peer. -/
def write (c : Connection) (message : Sent) : Connection :=
  if c.present then { c with written := c.written ++ [message] } else c

/-- Whether nothing can be written now. -/
def blocked (c : Connection) : Bool := c.narrow && !c.reading

/-- A stuck writer goes on once the peer reads again. -/
def unstick (c : Connection) : Connection := { c with stuck := c.stuck && c.blocked }

/-- The number of frames that the writer takes now. -/
def uptake (c : Connection) : Nat :=
  if c.blocked then (if c.stuck then 0 else 1) else c.queue.length + c.waiting.length

/-- Frames move on: from the calls into the queue as there is room, and from the queue to the
writer as it can take them. -/
def convey (c : Connection) : Connection :=
  -- frames wait only while the queue is full, so these are all frames in their order
  let frames := c.queue ++ c.waiting.map (·.frame)
  let taken := frames.take c.uptake
  let admitted := c.uptake + c.room - c.queue.length
  let moved := { c.stepAll .accepted ((c.waiting.take admitted).map (·.id)) with
    queue := (frames.drop c.uptake).take c.room
    waiting := c.waiting.drop admitted
    stuck := c.stuck || (c.blocked && !taken.isEmpty) }
  taken.foldl (fun c frame => c.write (.text frame)) moved

/-- The writer has stopped: what is in the queue is lost, and nothing is accepted any more. -/
def discard (c : Connection) : Connection :=
  { c.stepAll .refused (c.waiting.map (·.id)) with queue := [], waiting := [] }

/-- The writer obeys the signal to stop; its last message closes the connection. -/
def halt (c : Connection) : Connection :=
  let c := c.step .writerObeyed
  (match c.closing with
    | some message => { c with closing := none }.write message
    | none => c).discard

/-- The writer does what it can. -/
def useWriter (c : Connection) : Connection :=
  let c := c.unstick
  if c.session.writerStopped then c.discard
  else if !c.stuck && c.session.signal ≠ .running then c.halt
  else c.convey

/-- The calls that are given up at the present time. -/
def overdue (c : Connection) : List UInt64 :=
  (c.deadlines.filter (·.2 ≤ c.now)).map (·.1)

/-- What concerns calls that have ended is forgotten. -/
def tidy (c : Connection) : Connection :=
  let lives (id : UInt64) := (c.session.caller? id).isSome
  { c with
    waiting := c.waiting.filter fun r => lives r.id
    deadlines := c.deadlines.filter fun d => lives d.1 }

/-- Everything happens that can happen without time passing. -/
def settle (c : Connection) : Connection :=
  let c := (c.step .readerObeyed).useWriter
  -- an answer that is there is taken even if the time is up
  let c := c.stepAll .woken (c.session.callers.map (·.id))
  (c.stepAll .expired c.overdue).tidy

/-- A call is made. -/
def call (c : Connection) (method : String) (params : List Json) (kind : CallKind)
    (timeout : Span) : UInt64 × Connection :=
  let id := c.session.nextId
  let c := c.step (.called method kind timeout)
  let c : Connection := { c with
    waiting := c.waiting ++ [⟨id, Frame.encodeRequest id method params⟩]
    deadlines := c.deadlines ++ [(id, c.now + timeout.nanos)] }
  (id, c.tidy.settle)

/-- A caller gives its call up. -/
def cancel (c : Connection) (id : UInt64) : Connection := (c.step (.cancelled id)).tidy.settle

/-- The peer sends a text. -/
def hear (c : Connection) (text : String) : Connection := (c.step (.textArrived text)).settle

/-- The peer sends bytes; they are taken for the text they encode. -/
def hearBytes (c : Connection) (bytes : Bytes) : Connection :=
  match String.fromUTF8? (ByteArray.mk bytes.toArray) with
  | some text => c.hear text
  | none => (c.step .bytesArrived).settle

/-- The reader finds the connection lost; the given message is the last one to the peer. -/
def lose (c : Connection) (loss : Loss) (last : Option Sent) : Connection :=
  ({ c with closing := last }.step (.connectionLost loss.report)).settle

/-- The peer sends a control message. A ping is answered with its payload and a close with its code;
one that is too big ends the connection. -/
def hearControl (c : Connection) (message : Control) : Connection :=
  if c.session.isClosed then c
  else if message.tooBig then c.lose .controlTooBig (some (.close none))
  else
    match message with
    | .ping payload => (c.write (.pong payload)).settle
    | .pong _ => c.settle
    | .close notice =>
      let notice := notice.map CloseNotice.accepted
      c.lose (.closedByPeer notice) (some (.close (notice.map CloseNotice.code)))

/-- Whether an answer to a ping is held back. -/
def owesPong (c : Connection) : Bool :=
  c.blocked && c.written.any fun message => message matches .pong _

/-- The peer is gone. A writer that waits for it finds that it cannot write. -/
def losePeer (c : Connection) : Connection :=
  let loss : Loss := if c.owesPong then .brokenPipe else .reset
  let c := { c with present := false, written := [], closing := none }
  let c := c.step (.connectionLost loss.report)
  (if c.stuck then { c.step (.writeFailed Loss.brokenPipe.report) with stuck := false }
    else c).settle

/-- The owner closes the connection. -/
def close (c : Connection) : Connection :=
  let c := if c.session.signal = .running then { c with closing := some (.close none) } else c
  (c.step .closeRequested).settle

/-- The peer stops reading. -/
def pause (c : Connection) : Connection := { c with reading := false }

/-- The peer goes on reading. -/
def resume (c : Connection) : Connection := { c with reading := true }.settle

/-- The clock moves to a later time. -/
def advanceTo (c : Connection) (time : Nat) : Connection := { c with now := max c.now time }.settle

/-- The time at which the next call is given up. -/
def nextDeadline? (c : Connection) : Option Nat := (c.deadlines.map (·.2)).min?

/-- What the peer reads, and the connection afterwards. -/
def takeSent (c : Connection) : List Sent × Connection :=
  if c.reading then (c.written, { c with written := [] }) else ([], c)

/-- The answers of calls that ended, and the connection without them. -/
def takeEnded (c : Connection) : List (UInt64 × Except TransportError Reply) × Connection :=
  let (ended, session) := c.session.takeEnded
  (ended, { c with session })

/-- The warnings given, and the connection without them. -/
def takeWarnings (c : Connection) : List Warning × Connection :=
  let (warnings, journal) := c.session.journal.takeWarnings
  (warnings, { c with session := { c.session with journal } })

end Connection

end IstanbulMonitor
