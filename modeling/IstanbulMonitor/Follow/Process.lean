import IstanbulMonitor.Follow.Error
import IstanbulMonitor.Monitor.Operations

/-!
# What a run does with blocks

Before a run follows the chain it asks the node about itself and its peers, and
counts the last blocks. Then each block that is found is counted and reported
on. A failure is warned of, and the run goes on, unless the session is gone.
-/

set_option autoImplicit false

namespace IstanbulMonitor.Follow

open Inquiry (fail change)

/-- A failure that a run lives with, unless it ended the session. -/
def tolerate (w : Warning) (e : MonitorError) : Inquiry RunError Unit :=
  match e.terminal? with
  | some _ => fail (.sessionTerminated e)
  | none => change (·.warn w)

/-- A block counted, and the report on it published. -/
def process (h : Header) (previous : UInt64) : Inquiry RunError Unit := do
  match ← (Monitor.reportHeader h previous).attempt with
  | .ok report => change (·.publish report)
  | .error e => tolerate .blockNotProcessed e

/-- The node asked about itself; it need not answer. -/
def greet : Inquiry RunError Unit := do
  match ← Monitor.nodeInfo.attempt with
  | .ok _ => return
  | .error _ => change (·.warn .nodeInfoUnavailable)

/-- The node asked about its peers; it need not answer. -/
def greetPeers : Inquiry RunError Unit := do
  match ← Monitor.peers.attempt with
  | .ok _ => return
  | .error _ => change (·.warn .peersUnavailable)

/-- The last blocks counted. There is no result if the program panics. -/
def replay (window : UInt64) : Inquiry RunError (Option Unit) :=
  (Monitor.restart window).mapError .statistics

end IstanbulMonitor.Follow
