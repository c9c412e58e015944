import IstanbulMonitor.Monitor.Config
import IstanbulMonitor.Text.Blank
import IstanbulMonitor.Transport.Config
import IstanbulMonitor.Validator.Redt

/-!
# Configuration of a run

How the chain is followed, how many blocks are replayed at the start, and where
the registry of operators comes from. `WatchConfig.ofEnvironment` takes the
settings from environment variables, and `loadRegistry` reads the registry.
-/

set_option autoImplicit false

namespace IstanbulMonitor

/-- How new blocks are found: the node announces them, or its head is polled. -/
inductive FollowMode where
  | subscribe
  | poll
  deriving DecidableEq

/-- A variable is set to a value that it cannot have. -/
structure SettingError where
  name : String
  value : String
  deriving DecidableEq

/-- The text of a setting error. -/
def SettingError.message (e : SettingError) : String :=
  s!"invalid value for {e.name}: {e.value}"

/-- The settings of a run. -/
structure WatchConfig where
  transport : TransportConfig := {}
  monitor : MonitorConfig := {}
  window : UInt64 := 100
  mode : FollowMode := .subscribe
  pollSeconds : UInt64 := 2
  registryFile : Option String := none

namespace WatchConfig

/-- The mode a text names, in any letter case. -/
def mode? (text : String) : Option FollowMode :=
  match Text.lower (Text.trim text) with
  | "subscribe" => some .subscribe
  | "ws" => some .subscribe
  | "poll" => some .poll
  | _ => none

/-- The value of a variable, or a fallback if it is not set. -/
def setting {α : Type} (env : Environment) (name : String) (read : String → Option α)
    (fallback : α) : Except SettingError α :=
  match env name with
  | none => .ok fallback
  | some text =>
    match read (Text.trim text) with
    | some value => .ok value
    | none => .error ⟨name, text⟩

/-- A positive number. -/
def positive? (text : String) : Option UInt64 :=
  (Radix.decimal64? text).filter (· ≠ 0)

/-- The settings of the environment. -/
def ofEnvironment (env : Environment) : Except SettingError WatchConfig := do
  let base : WatchConfig := {}
  let window ← setting env "SW_STATS_WINDOW" Radix.decimal64? base.window
  let mode ← setting env "SW_MODE" mode? base.mode
  let pollSeconds ← setting env "SW_POLL_INTERVAL_SECS" positive? base.pollSeconds
  return { base with
    transport := .ofEnvironment env
    window, mode, pollSeconds
    registryFile := (env "SW_VALIDATORS_FILE").filter fun path => Text.trim path ≠ "" }

end WatchConfig

end IstanbulMonitor
