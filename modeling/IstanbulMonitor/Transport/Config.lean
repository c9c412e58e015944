import IstanbulMonitor.Text.Radix
import IstanbulMonitor.Transport.Error

/-!
# Transport configuration

The endpoint, the timeouts and the sizes of the buffers. `ofEnvironment` takes
them from environment variables and falls back on the defaults; `validate`
refuses an endpoint that is no WebSocket and anything that is zero.
-/

set_option autoImplicit false

namespace IstanbulMonitor

/-- The value of an environment variable, if it is set. -/
abbrev Environment := String → Option String

/-- The settings of a session. -/
structure TransportConfig where
  url : String := "ws://127.0.0.1:22001"
  defaultTimeout : Span := .ofSeconds 1
  connectTimeout : Span := .ofSeconds 10
  subscriptionBuffer : Nat := 256
  outboundBuffer : Nat := 100
  deriving DecidableEq

namespace TransportConfig

/-- The number a variable is set to, if it is set to one. -/
def numberIn (env : Environment) (name : String) : Option Nat :=
  (env name).bind fun text => (Radix.decimal64? text).map UInt64.toNat

/-- The settings of the environment. A number that cannot be read counts as not set. -/
def ofEnvironment (env : Environment) : TransportConfig :=
  let base : TransportConfig := {}
  { base with
    url := (env "SW_NODE_URL").getD base.url
    defaultTimeout := ((numberIn env "SW_RPC_TIMEOUT_MS").map .ofMillis).getD base.defaultTimeout
    subscriptionBuffer := (numberIn env "SW_SUBSCRIPTION_BUFFER").getD base.subscriptionBuffer }

/-- The endpoint is a WebSocket, and nothing that is checked after it is zero. -/
def validate (c : TransportConfig) : Except TransportError Unit :=
  if !("ws://".isPrefixOf c.url || "wss://".isPrefixOf c.url) then
    .error (.invalidConfig s!"url must use ws:// or wss://, got {c.url}")
  else if c.defaultTimeout.nanos = 0 then .error (.invalidConfig "default_timeout cannot be 0")
  else if c.subscriptionBuffer = 0 then .error (.invalidConfig "subscription_buffer cannot be 0")
  else if c.outboundBuffer = 0 then .error (.invalidConfig "outbound_buffer cannot be 0")
  else .ok ()

end TransportConfig

end IstanbulMonitor
