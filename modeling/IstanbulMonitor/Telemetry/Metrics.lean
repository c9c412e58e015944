import IstanbulMonitor.Number.Shortest

/-!
# Metrics

Counters and gauges of the monitor and of its connection. Their values are
doubles: a sum is rounded to the nearest natural number that a double holds, so
it is exact below `2 ^ 53`. `Metrics.exposition` writes all of them as text.
-/

set_option autoImplicit false

namespace IstanbulMonitor

/-- Counts by label. -/
structure LabelCounts (Label : Type) where
  entries : List (Label × Nat) := []

namespace LabelCounts

variable {Label : Type} [DecidableEq Label]

/-- The entries with one more for a label. -/
def bump (label : Label) : List (Label × Nat) → List (Label × Nat)
  | [] => [(label, 1)]
  | (other, n) :: rest =>
    if other = label then (other, Binary64.roundNat (n + 1)) :: rest
    else (other, n) :: bump label rest

/-- One more for a label. -/
def add (c : LabelCounts Label) (label : Label) : LabelCounts Label := ⟨bump label c.entries⟩

/-- The count of a label; zero if it is not listed. -/
def count (c : LabelCounts Label) (label : Label) : Nat :=
  match c.entries.find? (·.1 = label) with
  | some entry => entry.2
  | none => 0

end LabelCounts

/-- The value of every metric. -/
structure Metrics where
  calls : LabelCounts (String × String) := {}
  lookups : LabelCounts String := {}
  events : Nat := 0
  lagged : Nat := 0
  pending : Nat := 0
  blocks : Nat := 0
  lastBlock : Nat := 0
  recoveryFailures : Nat := 0

namespace Metrics

/-- A counter increased by an amount. -/
def increase (value amount : Nat) : Nat :=
  Binary64.roundNat (value + Binary64.roundNat amount)

/-- One call ended, by method and outcome. -/
def countCall (m : Metrics) (method outcome : String) : Metrics :=
  { m with calls := m.calls.add (method, outcome) }

/-- One lookup of a header, by its result. -/
def countLookup (m : Metrics) (result : String) : Metrics :=
  { m with lookups := m.lookups.add result }

/-- One notification forwarded to its subscription. -/
def countEvent (m : Metrics) : Metrics := { m with events := increase m.events 1 }

/-- Notifications that a consumer did not read in time. -/
def countLagged (m : Metrics) (amount : Nat) : Metrics :=
  { m with lagged := increase m.lagged amount }

/-- One more call without an answer. -/
def callRegistered (m : Metrics) : Metrics := { m with pending := increase m.pending 1 }

/-- One call fewer without an answer. -/
def callEnded (m : Metrics) : Metrics := { m with pending := m.pending - 1 }

/-- Blocks counted into the statistics. -/
def countBlocks (m : Metrics) (amount : Nat) : Metrics :=
  { m with blocks := increase m.blocks amount }

/-- The number of the last block counted. -/
def setLastBlock (m : Metrics) (number : UInt64) : Metrics :=
  { m with lastBlock := Binary64.roundNat number.toNat }

/-- One header whose signers could not be recovered. -/
def countRecoveryFailure (m : Metrics) : Metrics :=
  { m with recoveryFailures := increase m.recoveryFailures 1 }

/-- A character of a label's value. -/
def escapeLabel (c : Char) : List Char :=
  if c = '\\' then ['\\', '\\']
  else if c = '\n' then ['\\', 'n']
  else if c = '"' then ['\\', '"']
  else [c]

/-- A label and its value. -/
def labelText (label : String × String) : String :=
  label.1 ++ "=\"" ++ String.ofList (label.2.toList.flatMap escapeLabel) ++ "\""

/-- The text of a value. -/
def valueText (n : Nat) : String := (Binary64.ofNat n).plain

/-- A family of samples with their labels, written after its description; a family without
samples is not written. -/
def family (name help kind : String) (samples : List (List (String × String) × Nat)) :
    List String :=
  if samples.isEmpty then []
  else
    (s!"# HELP {name} {help}") :: (s!"# TYPE {name} {kind}") ::
    samples.map fun (labels, value) =>
      let braces :=
        if labels.isEmpty then ""
        else "\x7b" ++ String.intercalate "," (labels.map labelText) ++ "\x7d"
      name ++ braces ++ " " ++ valueText value

/-- The order of the samples of calls. -/
def callBefore (x y : (String × String) × Nat) : Bool :=
  x.1.1 < y.1.1 || (x.1.1 == y.1.1 && x.1.2 ≤ y.1.2)

/-- The lines of text of all metrics, in the order of their names. -/
def exposition (m : Metrics) : List String :=
  family "sw_blocks_processed_total" "Blocks whose signers were added to the statistics" "counter"
    [([], m.blocks)] ++
  family "sw_header_cache_lookups_total" "Header cache lookups" "counter"
    ((m.lookups.entries.mergeSort fun x y => x.1 ≤ y.1).map fun (result, n) =>
      ([("result", result)], n)) ++
  family "sw_last_processed_block" "Highest block number incorporated into the statistics" "gauge"
    [([], m.lastBlock)] ++
  family "sw_rpc_calls_total" "JSON-RPC calls by method and outcome" "counter"
    ((m.calls.entries.mergeSort callBefore).map fun ((method, outcome), n) =>
      ([("method", method), ("outcome", outcome)], n)) ++
  family "sw_rpc_pending_calls" "Number of calls registered and not yet resolved" "gauge"
    [([], m.pending)] ++
  family "sw_signer_recovery_failures_total"
    "Headers whose extra-data or seals could not be recovered" "counter"
    [([], m.recoveryFailures)] ++
  family "sw_subscription_events_total"
    "Subscription notifications forwarded by the receive loop" "counter" [([], m.events)] ++
  family "sw_subscription_lagged_total"
    "Subscription notifications overwritten before a slow consumer read them" "counter"
    [([], m.lagged)]

end Metrics

end IstanbulMonitor
