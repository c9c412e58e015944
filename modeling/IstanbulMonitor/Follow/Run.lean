import IstanbulMonitor.Follow.Heads
import IstanbulMonitor.Follow.Poll

/-!
# Runs

A run greets the node, counts the last blocks, and then follows the chain in its
mode until it is told to stop, or an error or a panic ends it. `Stage` is what a run is
doing: it works on a dialogue with the node, or it waits for a subscription, a
head or a tick. Only while it waits for a head or a tick does it look whether it
is to stop; a request to stop that came before the run started does not count.
-/

set_option autoImplicit false

namespace IstanbulMonitor.Follow

/-- What a run does after its present work. To `panic` is to end without a result. -/
inductive Next where
  | replay
  | subscribe
  | firstHead
  | head (previous : Option UInt64)
  | tick (progress : Progress)
  | panic

/-- What a run is doing. The statistics are `held` while the last blocks are counted: nobody else
can look at them. -/
inductive Stage where
  | ready (monitor : Monitor)
  | working (held : Bool) (dialogue : Dialogue (Except RunError Next))
  | waiting (monitor : Monitor) (next : Next)
  | ended (monitor : Monitor) (result : Except RunError Unit)
  | panicked (monitor : Monitor)

namespace Stage

/-- The monitor as it stands. -/
def monitor : Stage → Monitor
  | .ready m => m
  | .working _ d => d.monitor
  | .waiting m _ => m
  | .ended m _ => m
  | .panicked m => m

/-- A run that is not at work, with its monitor changed. -/
def mapMonitor (f : Monitor → Monitor) : Stage → Stage
  | .ready m => .ready (f m)
  | .working held d => .working held d
  | .waiting m next => .waiting (f m) next
  | .ended m result => .ended (f m) result
  | .panicked m => .panicked (f m)

/-- Whether the statistics are held. -/
def isHeld : Stage → Bool
  | .working held _ => held
  | _ => false

end Stage

/-- A run of the monitor. The requests to stop are counted, and those that do not count. -/
structure Run where
  window : UInt64
  mode : FollowMode
  stage : Stage
  stops : Nat := 0
  disregarded : Nat := 0

namespace Run

/-- A request to stop. -/
def shutdown (r : Run) : Run := { r with stops := r.stops + 1 }

/-- Whether there is a request to stop that counts. -/
def isStopped (r : Run) : Bool := r.disregarded < r.stops

/-- The run at work on an inquiry. -/
def work (r : Run) (held : Bool) (m : Monitor) (i : Inquiry RunError Next) : Run :=
  { r with stage := .working held (i m) }

/-- The run ended. -/
def finish (r : Run) (m : Monitor) (result : Except RunError Unit) : Run :=
  { r with stage := .ended m result }

/-- The run starts. -/
def start (r : Run) : Run :=
  match r.stage with
  | .ready m =>
    { r with disregarded := r.stops }.work false m do
      greet
      greetPeers
      return .replay
  | _ => r

/-- The run goes on with what comes next. -/
def go (r : Run) (m : Monitor) : Next → Run
  | .replay => r.work true m do
      match ← replay r.window, r.mode with
      | none, _ => return .panic
      | some (), .subscribe => return .subscribe
      | some (), .poll => return .firstHead
  | .firstHead => r.work false m do return .tick (← firstHead)
  | .panic => { r with stage := .panicked m }
  | next => { r with stage := .waiting m next }

/-- The present work is done. -/
def conclude (r : Run) : Run :=
  match r.stage with
  | .working _ (.done m (.ok next)) => r.go m next
  | .working _ (.done m (.error e)) => r.finish m (.error e)
  | _ => r

/-- The run stops if it is told to and looks. -/
def heed (r : Run) : Run :=
  if r.isStopped then
    match r.stage with
    | .waiting m (.head _) => r.finish m (.ok ())
    | .waiting m (.tick _) => r.finish m (.ok ())
    | _ => r
  else r

/-- The subscription exists, or could not be made. -/
def subscribed (r : Run) (answer : Except TransportError Unit) : Run :=
  match r.stage with
  | .waiting m .subscribe =>
    match answer with
    | .ok _ => { r with stage := .waiting m (.head none) }
    | .error e => r.finish m (.error (.subscribe e))
  | _ => r

/-- A head is announced. -/
def announced (r : Run) (event : Json) : Run :=
  match r.stage with
  | .waiting m (.head previous) => r.work false m do return .head (← takeHead previous event)
  | _ => r

/-- No more heads will be announced. -/
def unannounced (r : Run) : Run :=
  match r.stage with
  | .waiting m (.head _) => r.finish m (.error .headsEnded)
  | _ => r

/-- It is time to poll. -/
def ticked (r : Run) : Run :=
  match r.stage with
  | .waiting m (.tick progress) => r.work false m do
      return (← poll progress).elim .panic .tick
  | _ => r

end Run

end IstanbulMonitor.Follow
