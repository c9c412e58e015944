import IstanbulMonitor.Follow.Process

/-!
# Announced heads

A run that is told of new heads fetches the header of each. The first one is
counted only; every later one is also reported on, with the time since the one
before it. An event that names no head, or a head that cannot be fetched, counts
for nothing.
-/

set_option autoImplicit false

namespace IstanbulMonitor.Follow

open Inquiry (change)

/-- The event that a run subscribes to. -/
def newHeads : String := "newHeads"

/-- The number of the head that an event announces. -/
def announcedNumber : Json.Decoder UInt64 := fun value => do
  let f ← Json.fields [.of "number" Quantity.ofJson] value
  f.required "number" Quantity.ofJson

/-- The first head counted. -/
def countFirst (h : Header) : Inquiry RunError Unit := do
  match ← (Monitor.countHeader h).attempt with
  | .ok _ => return
  | .error e => tolerate .blockNotCounted e

/-- A head taken in. `previous` is the timestamp of the head before it; the result is that of the
last head that was fetched. -/
def takeHead (previous : Option UInt64) (event : Json) : Inquiry RunError (Option UInt64) := do
  match announcedNumber event with
  | .error _ =>
    change (·.warn .undecodableHead)
    return previous
  | .ok number =>
    match ← (Monitor.header (.number number)).attempt with
    | .error e =>
      tolerate .headerNotFetched e
      return previous
    | .ok h =>
      match previous with
      | none => countFirst h
      | some before => process h before
      -- also if the block could not be processed
      return some h.timestamp

end IstanbulMonitor.Follow
