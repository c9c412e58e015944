import IstanbulMonitor.Text.Span
import IstanbulMonitor.Wire.Frame

/-!
# Transport errors

What a call or a subscription can end with instead of a result. An error is
terminal when the session it comes from is no longer usable.
-/

set_option autoImplicit false

namespace IstanbulMonitor

/-- A failure of the connection to the node or of one call over it. -/
inductive TransportError where
  | connect (url reason : String)
  | connectionLost (reason : String)
  | closed
  | timeout (method : String) (after : Span)
  | remote (error : RemoteError)
  | decode (method : String) (reason : Mismatch)
  | frame (error : FrameError)
  | invalidConfig (reason : String)

namespace TransportError

/-- The text of a transport error, unless it ends in a text that is not the library's own. -/
def message? : TransportError → Option String
  | .connect url reason => some s!"cannot connect to {url}: {reason}"
  | .connectionLost reason => some s!"connection lost: {reason}"
  | .closed => some "session closed"
  | .timeout method after => some s!"{method} timed out after {after.text}"
  | .remote e => some e.text
  | .decode method reason =>
    reason.message?.map fun text => s!"cannot decode result of {method}: {text}"
  | .frame e => e.message?
  | .invalidConfig reason => some s!"invalid transport configuration: {reason}"

/-- The outcome under which a call that ends with the error is counted. -/
def outcome : TransportError → String
  | .connect _ _ => "connect_error"
  | .connectionLost _ => "connection_lost"
  | .closed => "closed"
  | .timeout _ _ => "timeout"
  | .remote _ => "remote_error"
  | .decode _ _ => "decode_error"
  | .frame _ => "codec_error"
  | .invalidConfig _ => "invalid_config"

/-- Whether the session is no longer usable. -/
def isTerminal : TransportError → Bool
  | .connectionLost _ => true
  | .closed => true
  | _ => false

end TransportError

end IstanbulMonitor
