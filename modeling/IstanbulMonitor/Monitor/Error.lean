import IstanbulMonitor.Chain.Quantity
import IstanbulMonitor.Istanbul.Extra
import IstanbulMonitor.Transport.Error

/-!
# Monitor errors

What an operation of the monitor can fail with.
-/

set_option autoImplicit false

namespace IstanbulMonitor

/-- What is wrong with the URL of a node. -/
inductive EnodeFault where
  | scheme
  | notHex
  | wrongLength
  | offCurve
  deriving DecidableEq

/-- The text of an enode fault. -/
def EnodeFault.message : EnodeFault → String
  | .scheme => "missing enode:// scheme"
  | .notHex => "node id is not hex"
  | .wrongLength => "node id must be 64 bytes"
  | .offCurve => "node id is not a curve point"

/-- What is wrong with a registry: its text, or the URL of one node in it. -/
inductive RegistryError where
  | malformed
  | enode (fault : EnodeFault) (url : String)
  deriving DecidableEq

/-- The text of a registry error. A text that is no JSON of a registry has none of its own. -/
def RegistryError.message? : RegistryError → Option String
  | .malformed => none
  | .enode fault url => some s!"{fault.message}: {url}"

/-- A failure of an operation of the monitor. -/
inductive MonitorError where
  | transport (error : TransportError)
  | blockNotFound (number : BlockNumber)
  | notFound (what : String)
  | recovery (error : RecoveryError)
  | unknownProposer (address : Address)
  | emptyValidatorSet
  | registry (error : RegistryError)
  | invalidConfig (reason : String)

namespace MonitorError

/-- The text of a monitor error, unless it ends in a text that is not the library's own. -/
def message? : MonitorError → Option String
  | .transport e => e.message?.map fun text => s!"fetch failed: {text}"
  | .blockNotFound number => some s!"block {number.text} not found"
  | .notFound what => some s!"{what} not available"
  | .recovery e => some s!"signer recovery failed: {e.message}"
  | .unknownProposer a => some s!"proposer {a.hex} is not in the active validator set"
  | .emptyValidatorSet => some "validator set is empty"
  | .registry e => e.message?.map fun text => s!"invalid validator registry: {text}"
  | .invalidConfig reason => some s!"invalid monitor configuration: {reason}"

/-- The error that ended the session, if it is one. -/
def terminal? : MonitorError → Option TransportError
  | .transport e => if e.isTerminal then some e else none
  | _ => none

end MonitorError

end IstanbulMonitor
