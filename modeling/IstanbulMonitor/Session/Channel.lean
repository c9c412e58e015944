import IstanbulMonitor.Json.Value

/-!
# Event channels

Each subscription has a channel with one sender and one receiver. It keeps the
newest `capacity` events; the sender never waits, and a receiver that reads too
late goes on with the oldest event that is kept and is told how many it missed.
-/

set_option autoImplicit false

namespace IstanbulMonitor

/-- A bounded channel of events, kept oldest first. The receiver's place counts the events that
were read or missed. -/
structure Channel where
  capacity : Nat
  sent : Nat := 0
  kept : List Json := []
  place : Nat := 0
  senderOpen : Bool := true
  receiverOpen : Bool := true

/-- What a receiver finds. -/
inductive Received where
  | event (payload : Json)
  | waiting
  | ended

namespace Channel

/-- A channel that keeps at least `buffer` events: a power of two of them. -/
def make (buffer : Nat) : Channel := { capacity := Nat.nextPowerOfTwo (max buffer 1) }

/-- The channel after an event is sent. -/
def send (c : Channel) (payload : Json) : Channel :=
  let all := c.kept ++ [payload]
  { c with sent := c.sent + 1, kept := all.drop (all.length - c.capacity) }

theorem length_kept_send_le (c : Channel) (payload : Json) :
    (c.send payload).kept.length ≤ c.capacity := by
  simp only [send, List.length_drop]
  omega

/-- The place of the oldest event that is kept. -/
def oldest (c : Channel) : Nat := c.sent - c.kept.length

/-- The number of events the receiver has missed. -/
def lag (c : Channel) : Nat := c.oldest - c.place

/-- What the receiver finds, how many events it missed before that, and the channel afterwards. -/
def receive (c : Channel) : Received × Nat × Channel :=
  let place := max c.place c.oldest
  match c.kept[place - c.oldest]? with
  | some payload => (.event payload, c.lag, { c with place := place + 1 })
  | none => (if c.senderOpen then .waiting else .ended, c.lag, { c with place })

/-- The channel without its sender. -/
def dropSender (c : Channel) : Channel := { c with senderOpen := false }

/-- The channel without its receiver. -/
def dropReceiver (c : Channel) : Channel := { c with receiverOpen := false }

end Channel

end IstanbulMonitor
