import IstanbulMonitor.Monitor.Error

/-!
# Monitor configuration

The room of the header cache and the time a query to the node may take.
-/

set_option autoImplicit false

namespace IstanbulMonitor

/-- The settings of a monitor. -/
structure MonitorConfig where
  cacheCapacity : Nat := 100
  fetchTimeout : Span := .ofSeconds 30
  deriving DecidableEq

/-- Neither setting is zero. -/
def MonitorConfig.validate (c : MonitorConfig) : Except MonitorError Unit :=
  if c.cacheCapacity = 0 then .error (.invalidConfig "cache_capacity cannot be 0")
  else if c.fetchTimeout.nanos = 0 then .error (.invalidConfig "fetch_timeout cannot be 0")
  else .ok ()

end IstanbulMonitor
