import IstanbulMonitor.Text.Blank
import IstanbulMonitor.Transport.Config

/-!
# Telemetry configuration

Names and switches of the logs, taken from environment variables.
-/

set_option autoImplicit false

namespace IstanbulMonitor

/-- The settings of the logs. -/
structure TelemetryConfig where
  service : String := "signer-watch"
  level : String := "info"
  console : Bool := true
  json : Bool := false
  network : String := "redt"
  deriving DecidableEq

namespace TelemetryConfig

/-- Whether a switch is on: `true`, `1` or `yes`, in any letter case. -/
def isOn (text : String) : Bool :=
  ["true", "1", "yes"].contains (Text.lower (Text.trim text))

/-- The settings of the environment. In a container the logs are JSON unless they are switched. -/
def ofEnvironment (env : Environment) : TelemetryConfig :=
  let base : TelemetryConfig := {}
  let inContainer := (env "KUBERNETES_SERVICE_HOST").isSome || (env "DOCKER_CONTAINER").isSome
  { service := (env "OTEL_SERVICE_NAME").getD base.service
    level := ((env "SW_LOG_LEVEL").or (env "RUST_LOG")).getD base.level
    console := ((env "SW_CONSOLE_OUTPUT").map isOn).getD base.console
    json := ((env "SW_JSON_LOGS").map isOn).getD inContainer
    network := (env "SW_NETWORK").getD base.network }

end TelemetryConfig

end IstanbulMonitor
