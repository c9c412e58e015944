import IstanbulMonitor.Wire.Close
import IstanbulMonitor.Wire.Control

/-!
# Lost connections

A connection is lost when the peer closes it, violates the protocol or is gone.
A peer that is gone is noticed at the next read, unless an answer to it is still
held back: then the attempt to write that answer comes first and fails.
-/

set_option autoImplicit false

namespace IstanbulMonitor

/-- How a connection was lost. -/
inductive Loss where
  | closedByPeer (notice : Option CloseNotice)
  | controlTooBig
  | reset
  | brokenPipe
  deriving DecidableEq

namespace Loss

/-- What is reported of a lost connection. -/
def report : Loss → String
  | .closedByPeer none => "closed by peer"
  | .closedByPeer (some notice) => s!"closed by peer: {notice.code} {notice.reason}"
  | .controlTooBig =>
    "WebSocket protocol error: Control frame too big " ++
      s!"(payload must be {Control.sizeLimit} bytes or less)"
  | .reset => "WebSocket protocol error: Connection reset without closing handshake"
  | .brokenPipe => "IO error: broken pipe"

end Loss

end IstanbulMonitor
