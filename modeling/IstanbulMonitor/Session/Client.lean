import IstanbulMonitor.Session.Connection

/-!
# What a client makes of a session

A client reads the value of a reply as a type of its own, and takes events out of
a subscription one by one or all at once.
-/

set_option autoImplicit false

namespace IstanbulMonitor

/-- The method that creates subscriptions. -/
def subscribeMethod : String := "eth_subscribe"

/-- The value of a reply as a client wants it. A value of another shape is an error of the call,
although the call itself counts as answered. -/
def Reply.read {α : Type} (method : String) (decode : Json.Decoder α) :
    Reply → Except TransportError α
  | .value v => (decode v).mapError (.decode method)
  | .raw _ => .error (.decode method .shape)
  | .subscribed _ => .error (.decode method .shape)

/-- The answer of a call as a client wants it. -/
def readAnswer {α : Type} (method : String) (decode : Json.Decoder α)
    (answer : Except TransportError Reply) : Except TransportError α :=
  answer.bind (Reply.read method decode)

namespace Session

/-- At most `n` events of a channel, whether it has ended if there are fewer, and the session
afterwards. A stream of events and single reads have the same receiver behind them and skip what it
missed in the same way, so a stream is a loop of reads. -/
def takeEvents : Nat → Session → UInt64 → List Json × Received × Session
  | 0, s, _ => ([], .waiting, s)
  | n + 1, s, id =>
    match s.receive id with
    | (.event payload, s) =>
      let (events, last, s) := takeEvents n s id
      (payload :: events, last, s)
    | (last, s) => ([], last, s)

/-- All events of a channel; its receiver is dropped. -/
def drain (s : Session) (id : UInt64) : List Json × Received × Session :=
  let kept := (s.channel? id).elim 0 fun c => c.kept.length
  let (events, last, s) := takeEvents (kept + 1) s id
  (events, last, s.release id)

end Session

namespace Connection

/-- A client subscribes to an event of the node. -/
def subscribe (c : Connection) (event : String) (timeout : Span) : UInt64 × Connection :=
  c.call subscribeMethod [.string event] .subscription timeout

/-- The receiver of a channel reads once. -/
def receive (c : Connection) (id : UInt64) : Received × Connection :=
  let (received, session) := c.session.receive id
  (received, { c with session })

/-- All events of a channel; its receiver is dropped. -/
def drain (c : Connection) (id : UInt64) : List Json × Received × Connection :=
  let (events, last, session) := c.session.drain id
  (events, last, { c with session })

/-- The receiver of a channel is dropped. -/
def release (c : Connection) (id : UInt64) : Connection := c.step (.channelReleased id)

end Connection

end IstanbulMonitor
