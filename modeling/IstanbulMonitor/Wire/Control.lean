import IstanbulMonitor.Bytes.Basic
import IstanbulMonitor.Wire.Close

/-!
# Control messages

Beside texts and bytes a peer sends control messages: it asks for a sign of
life, gives one, or closes the connection. A control message is never split, so
its content is short; a longer one violates the protocol.
-/

set_option autoImplicit false

namespace IstanbulMonitor

/-- A control message of the peer. -/
inductive Control where
  | ping (payload : Bytes)
  | pong (payload : Bytes)
  | close (notice : Option CloseNotice)
  deriving DecidableEq

namespace Control

/-- The number of bytes of the content. A close carries two bytes of code before its reason. -/
def size : Control → Nat
  | .ping payload => payload.length
  | .pong payload => payload.length
  | .close none => 0
  | .close (some notice) => 2 + notice.reason.utf8ByteSize

/-- The largest content of a control message. -/
def sizeLimit : Nat := 125

/-- Whether the content is too large for a control message. -/
def tooBig (message : Control) : Bool := sizeLimit < message.size

end Control

end IstanbulMonitor
