import IstanbulMonitor.Telemetry.Metrics

/-!
# The journal

What the monitor and its connection tell the outside besides their results: the
metrics, and the warnings in the order they are given.
-/

set_option autoImplicit false

namespace IstanbulMonitor

/-- What a warning is about. -/
inductive Warning where
  | callTimedOut
  | undecodableFrame
  | notText
  | subscriberLagging
  | receiveEnded
  | writeFailed
  | unknownOperator
  | recoveryFailed
  | hashDiffers
  | nodeInfoUnavailable
  | peersUnavailable
  | undecodableHead
  | headerNotFetched
  | blockNotCounted
  | blockNotProcessed
  | headNotFetched
  deriving DecidableEq

/-- The text of a warning. -/
def Warning.text : Warning → String
  | .callTimedOut => "Call timed out"
  | .undecodableFrame => "Skipping undecodable frame"
  | .notText => "Skipping non-UTF-8 binary frame"
  | .subscriberLagging => "Subscriber lagging, oldest events dropped"
  | .receiveEnded => "Receive loop terminated"
  | .writeFailed => "WebSocket write failed"
  | .unknownOperator => "Active validator has no registry entry"
  | .recoveryFailed => "Signer recovery failed"
  | .hashDiffers => "Computed block hash differs from the node's"
  | .nodeInfoUnavailable => "Node info unavailable"
  | .peersUnavailable => "Peer list unavailable"
  | .undecodableHead => "Ignoring undecodable head event"
  | .headerNotFetched => "Failed to fetch header"
  | .blockNotCounted => "Failed to count block"
  | .blockNotProcessed => "Failed to process block"
  | .headNotFetched => "Failed to fetch the chain head"

/-- The metrics and the warnings given so far. -/
structure Journal where
  metrics : Metrics := {}
  warnings : List Warning := []

namespace Journal

/-- The journal with one more warning. -/
def warn (j : Journal) (w : Warning) : Journal := { j with warnings := j.warnings ++ [w] }

/-- The journal with its metrics changed. -/
def measure (j : Journal) (change : Metrics → Metrics) : Journal :=
  { j with metrics := change j.metrics }

/-- The warnings given so far, and the journal without them. -/
def takeWarnings (j : Journal) : List Warning × Journal := (j.warnings, { j with warnings := [] })

end Journal

end IstanbulMonitor
