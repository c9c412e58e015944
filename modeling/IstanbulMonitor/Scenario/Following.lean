import IstanbulMonitor.Follow.Run
import IstanbulMonitor.Scenario.Exchange

/-!
# A run and its node

A run of the monitor over a connection to a scripted node. `Following.act?` is
the next thing that can happen without time passing; `Following.settle` lets all
of that happen. `Following.passTo` lets time pass: calls are given up and ticks
come in the order of their times.
-/

set_option autoImplicit false

namespace IstanbulMonitor

open Follow (Run Stage Next)

/-- A run over a connection. `call` is the call that is out, `channel` that of the announced heads,
and `nextTick` the time of the next tick. -/
structure Following where
  exchange : Exchange
  run : Run
  callTimeout : Span
  period : Span
  call : Option UInt64 := none
  channel : Option UInt64 := none
  nextTick : Nat := 0
  startedAt : Nat := 0
  reported : Nat := 0

namespace Following

/-- The monitor as it stands. -/
def monitor (f : Following) : Monitor := f.run.stage.monitor

/-- The present time. -/
def now (f : Following) : Nat := f.exchange.connection.now

/-- The run with the journal that the session keeps. -/
def lent (f : Following) : Run := { f.run with stage := f.run.stage.mapMonitor f.exchange.lend }

/-- The following with its exchange changed. -/
def mapExchange (f : Following) (change : Exchange → Exchange) : Following :=
  { f with exchange := change f.exchange }

/-- A dialogue that was carried on. -/
def carryOn (f : Following) (held : Bool)
    (result : Option UInt64 × Dialogue (Except RunError Next) × Exchange) : Following :=
  let (call, dialogue, exchange) := result
  { f with exchange, call, run := { f.run with stage := .working held dialogue } }

/-- The run looks at its subscription for the next head. -/
def listen (f : Following) (id : UInt64) : Option Following :=
  let (received, connection) := f.exchange.connection.receive id
  let f := { f with exchange := { f.exchange with connection } }
  match received with
  | .event payload => some { f with run := f.lent.announced payload }
  | .ended => some { f with run := f.run.unannounced }
  | .waiting => none

/-- A run that polls is waiting for the first time: ticks come from now on. -/
def startTicks (f : Following) : Following :=
  match f.run.stage with
  | .waiting _ (.tick _) =>
    if f.nextTick = 0 then { f with nextTick := f.now + f.period.nanos } else f
  | _ => f

/-- What the run does while it waits. -/
def wait? (f : Following) : Next → Option Following
  | .subscribe =>
    match f.call with
    | none =>
      let (id, connection) :=
        f.exchange.connection.subscribe Follow.newHeads f.callTimeout
      some { f with exchange := { f.exchange with connection }.settle, call := some id }
    | some id =>
      match f.exchange.answer? id with
      | none => none
      | some (answer, exchange) =>
        let channel := if answer.isOk then some id else none
        let run := f.run.subscribed (answer.map fun _ => ())
        some { f with exchange, run, channel, call := none }
  | .head _ =>
    if f.run.isStopped then some { f with run := f.run.heed }
    else f.channel.bind f.listen
  | .tick _ =>
    if f.run.isStopped then some { f with run := f.run.heed }
    else if f.nextTick ≤ f.now then
      some { f with run := f.lent.ticked, nextTick := f.nextTick + f.period.nanos }
    else none
  | _ => none

/-- The run drops its subscription, if it has one. -/
def hangUp? (f : Following) : Option Following :=
  f.channel.map fun id => { f.mapExchange (·.mapConnection (·.release id)) with channel := none }

/-- What happens next without time passing, if anything does. -/
def act? (f : Following) : Option Following :=
  match f.run.stage with
  | .ready _ => none
  | .working held d =>
    match d, f.call with
    | .done m _, _ =>
      some { f with exchange := f.exchange.keepJournal m, run := f.run.conclude }.startTicks
    | d, none => some (f.carryOn held (f.exchange.converse d))
    | d, some id =>
      if (f.exchange.answer? id).isSome then some (f.carryOn held (f.exchange.resume id d))
      else none
  | .waiting _ next => f.wait? next
  -- a run that has ended listens no more
  | .ended _ _ => f.hangUp?
  | .panicked _ => f.hangUp?

/-- At most `n` things happen. -/
def actUpTo : Nat → Following → Following
  | 0, f => f
  | n + 1, f =>
    match f.act? with
    | some f => actUpTo n f
    | none => f

/-- The number of heads and ticks that are to be taken in. -/
def backlog (f : Following) : Nat :=
  let heads := (f.channel.bind f.exchange.connection.session.channel?).elim 0 (·.kept.length)
  let ticks := (f.now - f.nextTick) / max f.period.nanos 1 + 1
  heads + ticks

/-- Everything happens that can happen without time passing: a run starts in a few steps, and a
head or a tick is taken in in three. -/
def settle (f : Following) : Following := actUpTo (16 + 3 * f.backlog) f

/-- The run starts. -/
def start (f : Following) : Following :=
  { f with run := f.lent.start, startedAt := f.now }.settle

/-- The next time at which something happens by itself. -/
def nextTime? (f : Following) : Option Nat :=
  let deadline := f.exchange.connection.nextDeadline?
  match f.run.stage with
  | .waiting _ (.tick _) => some (deadline.elim f.nextTick (min · f.nextTick))
  | _ => deadline

/-- The clock moves to a time before which nothing happens by itself. -/
def jumpTo (f : Following) (time : Nat) : Following :=
  (f.mapExchange (·.mapConnection (·.advanceTo time))).settle

/-- Time passes until `time`, with at most `n` stops before it. -/
def passUpTo : Nat → Nat → Following → Following
  | 0, time, f => f.jumpTo time
  | n + 1, time, f =>
    match f.nextTime? with
    | some next => if next ≤ time then passUpTo n time (f.jumpTo next) else f.jumpTo time
    | none => f.jumpTo time

/-- Time passes until `time`. There is at most one stop in a nanosecond. -/
def passTo (f : Following) (time : Nat) : Following := passUpTo (time - f.now) time f

/-- Time passes. -/
def pass (f : Following) (span : Span) : Following := f.passTo (f.now + span.nanos)

/-- Time passes until half a period after the `n`-th tick. -/
def passTick (f : Following) (n : Nat) : Following :=
  f.passTo (f.startedAt + n * f.period.nanos + f.period.nanos / 2)

/-- Time passes until the statistics are not held any more. -/
def release (f : Following) : Following :=
  if f.run.stage.isHeld then
    match f.nextTime? with
    | some time => f.jumpTo time
    | none => f
  else f

/-- The run is asked to stop. -/
def shutdown (f : Following) : Following := { f with run := f.run.shutdown }.settle

/-- The run is asked to stop, and the session is closed. -/
def close (f : Following) : Following :=
  (f.shutdown.mapExchange (·.mapConnection (·.close))).settle

/-- The reports published since they were last taken. -/
def takeReports (f : Following) : List BlockReport × Following :=
  let published := f.monitor.published
  (published.drop f.reported, { f with reported := published.length })

end Following

end IstanbulMonitor
