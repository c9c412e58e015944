import IstanbulMonitor.Monitor.Dialogue
import IstanbulMonitor.Scenario.Node

/-!
# A monitor and its node

A connection to a scripted node, with a list of the calls that the node has got.
The node answers as soon as it gets a call. While a query is out, the journal of
the monitor is with the session, so that the two give their warnings in one
order.
-/

set_option autoImplicit false

namespace IstanbulMonitor

/-- What a node does of itself: its tables change, it sends a frame, or it closes the connection. -/
inductive NodeAction where
  | setBlock (key : String) (block : Json)
  | removeBlock (key : String)
  | setValidators (value : Json)
  | setNodeInfo (value : Json)
  | setPeers (value : Json)
  | setSubscription (value : Json)
  | setLatest (key : Option String)
  | silence (method : String)
  | unsilence (method : String)
  | fail (method : String) (error : Json)
  | unfail (method : String)
  | notify (subscription : String) (payload : Json)
  | push (text : String)
  | disconnect

/-- What the answer of its call tells about a query. A failure of the call is one of the transport. -/
def Query.receive (q : Query) (answer : Except TransportError Reply) :
    Except MonitorError q.Answer :=
  (readAnswer q.method q.decode answer).mapError .transport

/-- A connection to a scripted node. -/
structure Exchange where
  connection : Connection
  node : ScriptedNode
  requests : List String := []

namespace Exchange

/-- The exchange with its connection changed. -/
def mapConnection (x : Exchange) (f : Connection → Connection) : Exchange :=
  { x with connection := f x.connection }

/-- The exchange with its node changed. -/
def mapNode (x : Exchange) (f : ScriptedNode → ScriptedNode) : Exchange :=
  { x with node := f x.node }

/-- The node gets a frame. -/
def serve (x : Exchange) (frame : String) : Exchange :=
  match Frame.decode frame with
  | .ok (.request id method params) =>
    let x := { x with
      requests := x.requests ++ [method ++ " " ++ (Json.array params).render] }
    match x.node.answer? id method params with
    | some text => x.mapConnection (·.hear text)
    | none => x
  | _ => x

/-- The node reads what was sent to it. -/
def settle (x : Exchange) : Exchange :=
  let (sent, connection) := x.connection.takeSent
  sent.foldl (fun x message =>
    match message with
    | .text frame => x.serve frame
    | .pong _ => x
    | .close _ => x) { x with connection }

/-- The exchange after an action of the node. -/
def act (x : Exchange) : NodeAction → Exchange
  | .setBlock key block => x.mapNode (·.setBlock key block)
  | .removeBlock key => x.mapNode (·.removeBlock key)
  | .setValidators value => x.mapNode fun n => { n with validators := value }
  | .setNodeInfo value => x.mapNode fun n => { n with nodeInfo := value }
  | .setPeers value => x.mapNode fun n => { n with peers := value }
  | .setSubscription value => x.mapNode fun n => { n with subscription := value }
  | .setLatest key => x.mapNode fun n => { n with latest := key }
  | .silence method => x.mapNode (·.silence method)
  | .unsilence method => x.mapNode (·.unsilence method)
  | .fail method e => x.mapNode (·.setFailure method e)
  | .unfail method => x.mapNode (·.removeFailure method)
  | .notify key payload => x.mapConnection (·.hear (Frame.encodeNotification key payload))
  | .push text => x.mapConnection (·.hear text)
  | .disconnect => x.mapConnection (·.hearControl (.close none))

/-- The monitor with the journal that the session keeps. -/
def lend (x : Exchange) (m : Monitor) : Monitor :=
  { m with journal := x.connection.session.journal }

/-- The session keeps the journal of the monitor. -/
def keepJournal (x : Exchange) (m : Monitor) : Exchange :=
  x.mapConnection fun c => { c with session := { c.session with journal := m.journal } }

/-- The call of a query is made. -/
def place (x : Exchange) (q : Query) (m : Monitor) : UInt64 × Exchange :=
  let x := x.keepJournal m
  let (id, connection) :=
    x.connection.call q.method q.params .structured m.config.fetchTimeout
  (id, { x with connection }.settle)

/-- The answer of a call, if it has ended; it is taken out. -/
def answer? (x : Exchange) (id : UInt64) :
    Option (Except TransportError Reply × Exchange) := do
  let (_, answer) ← x.connection.session.ended.find? (·.1 = id)
  let (_, connection) := x.connection.takeEnded
  return (answer, { x with connection })

/-- A dialogue carried on as far as the node answers at once: until it is done, or until a call is
out. -/
def converse {α : Type} : Exchange → Dialogue α → Option UInt64 × Dialogue α × Exchange
  | x, .done m a => (none, .done m a, x)
  | x, .ask m q resume =>
    let (id, x) := x.place q m
    match x.answer? id with
    | none => (some id, .ask m q resume, x)
    | some (answer, x) => converse x (resume (q.receive answer) (x.lend m))

/-- A dialogue with a call out, carried on if the call has ended. -/
def resume {α : Type} (x : Exchange) (id : UInt64) (d : Dialogue α) :
    Option UInt64 × Dialogue α × Exchange :=
  match d, x.answer? id with
  | .ask m q resume, some (answer, x) =>
    converse x (resume (q.receive answer) (x.lend m))
  | d, _ => (some id, d, x)

/-- The time until a call is given up passes. -/
def await (x : Exchange) (id : UInt64) : Exchange :=
  match x.connection.deadlines.find? (·.1 = id) with
  | some (_, deadline) => x.mapConnection (·.advanceTo deadline)
  | none => x

/-- A query is answered, whatever time it takes. -/
def respond (q : Query) (m : Monitor) (x : Exchange) :
    Except MonitorError q.Answer × Monitor × Exchange :=
  let (id, x) := x.place q m
  let x := if (x.answer? id).isSome then x else x.await id
  match x.answer? id with
  | some (answer, x) => (q.receive answer, x.lend m, x)
  | none => (.error (.transport .closed), x.lend m, x)

/-- An inquiry from beginning to end. -/
def perform {ε α : Type} (x : Exchange) (m : Monitor) (i : Inquiry ε α) :
    Except ε α × Monitor × Exchange :=
  match Dialogue.run respond x (i (x.lend m)) with
  | (result, m, x) => (result, m, x.keepJournal m)

/-- The calls the node has got, and the exchange without them. -/
def takeRequests (x : Exchange) : List String × Exchange :=
  (x.requests, { x with requests := [] })

/-- The warnings given, and the exchange without them. -/
def takeWarnings (x : Exchange) : List Warning × Exchange :=
  let (warnings, connection) := x.connection.takeWarnings
  (warnings, { x with connection })

end Exchange

end IstanbulMonitor
