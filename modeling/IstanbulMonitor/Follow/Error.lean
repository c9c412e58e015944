import IstanbulMonitor.Follow.Config

/-!
# Errors that end a run

What a run ends with, from the reading of the registry to the following of the
chain. Each error names the step that failed and keeps its cause.
-/

set_option autoImplicit false

namespace IstanbulMonitor

/-- Why a run ended. -/
inductive RunError where
  | registryUnreadable (path : String)
  | registryInvalid (path : String) (cause : RegistryError)
  | bundledRegistry (cause : RegistryError)
  | connect (url : String) (cause : TransportError)
  | validators (cause : MonitorError)
  | statistics (cause : MonitorError)
  | subscribe (cause : TransportError)
  | chainHead (cause : MonitorError)
  | sessionTerminated (cause : MonitorError)
  | headsEnded

/-- What lies behind the end of a run. -/
inductive RunCause where
  | missingFile
  | monitor (error : MonitorError)
  | transport (error : TransportError)

namespace RunError

/-- The step that failed. -/
def context : RunError → String
  | .registryUnreadable path => s!"Failed to read {path}"
  | .registryInvalid path _ => s!"Invalid validator registry in {path}"
  | .bundledRegistry _ => "Invalid bundled validator registry"
  | .connect url _ => s!"Failed to connect to {url}"
  | .validators _ => "Failed to load the validator set"
  | .statistics _ => "Failed to initialize statistics"
  | .subscribe _ => "Failed to subscribe to new heads"
  | .chainHead _ => "Failed to fetch the chain head"
  | .sessionTerminated _ => "Session terminated"
  | .headsEnded => "New heads subscription ended"

/-- The cause of the failure. -/
def cause? : RunError → Option RunCause
  | .registryUnreadable _ => some .missingFile
  | .registryInvalid _ cause => some (.monitor (.registry cause))
  | .bundledRegistry cause => some (.monitor (.registry cause))
  | .connect _ cause => some (.transport cause)
  | .validators cause => some (.monitor cause)
  | .statistics cause => some (.monitor cause)
  | .subscribe cause => some (.transport cause)
  | .chainHead cause => some (.monitor cause)
  | .sessionTerminated cause => some (.monitor cause)
  | .headsEnded => none

end RunError

namespace WatchConfig

/-- The registry of operators: the one in the configured file, whose text `read` gives, or else
that of the RedT network. -/
def loadRegistry (c : WatchConfig) (read : String → Option String) : Except RunError Registry :=
  match c.registryFile with
  | none => Registry.redt.mapError .bundledRegistry
  | some path =>
    match read path with
    | none => .error (.registryUnreadable path)
    | some text => (Registry.ofText text).mapError (.registryInvalid path)

/-- The first check of a run that is to connect to the node: its registry can be loaded and its
transport settings are valid. -/
def checkConnect (c : WatchConfig) (read : String → Option String) : Except RunError Registry := do
  let registry ← c.loadRegistry read
  c.transport.validate.mapError (.connect c.transport.url)
  return registry

end WatchConfig

end IstanbulMonitor
