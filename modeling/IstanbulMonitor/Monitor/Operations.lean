import IstanbulMonitor.Monitor.Dialogue

/-!
# Operations that ask the node

Headers come through the cache: a block that is asked for by its number is looked
up first, the head of the chain is always fetched, and what is fetched is kept
under its own number. `Monitor.restart` counts the last blocks of the chain
anew; nothing of it is kept unless every one of them was counted. Its result is
missing if the program panics after that, since the head has the last number of all.
-/

set_option autoImplicit false

namespace IstanbulMonitor

/-- The signers of a block. -/
structure SignerData where
  number : UInt64
  hash : Hash
  timestamp : UInt64
  seals : Seals

/-- The signers of a block as an object. -/
def SignerData.toJson (d : SignerData) : Json :=
  .ofMembers
    [("number", .word d.number), ("hash", d.hash.toJson), ("timestamp", .word d.timestamp),
     ("proposer", d.seals.proposer.toJson),
     ("endorsers", .array (d.seals.endorsers.map (·.toJson)))]

namespace Monitor

open Inquiry (ask change current fail ofOperation)

/-- The settings are found good. -/
def checkConfig : Inquiry MonitorError Unit := ofOperation fun m => (m.config.validate, m)

/-- The monitor takes validators that are known already. -/
def adopt (set : ValidatorSet) : Inquiry MonitorError Unit := do
  checkConfig
  change (·.watch set)

/-- The monitor learns its validators from the node. -/
def enlist : Inquiry MonitorError Unit := do
  checkConfig
  let set := ValidatorSet.ofList (← ask (.validators .latest))
  if set.members.isEmpty then fail .emptyValidatorSet
  else change (·.watch set)

/-- A header from the node; it is kept in the cache. -/
def fetch (block : BlockNumber) : Inquiry MonitorError Header := do
  match ← ask (.header block) with
  | none => fail (.blockNotFound block)
  | some h =>
    change fun m => { m with cache := m.cache.put h.number h }
    return h

/-- The header of a block in the cache, and the monitor after this use of it. -/
def lookUp (m : Monitor) (number : UInt64) : Option Header × Monitor :=
  match m.cache.get number with
  | (found, cache) =>
    (found, { m with cache }.measure (·.countLookup (if found.isSome then "hit" else "miss")))

/-- The header of a block. -/
def header : BlockNumber → Inquiry MonitorError Header
  | .latest => do
    change (·.measure (·.countLookup "bypass"))
    fetch .latest
  | .number n => do
    match ← ofOperation fun m => match m.lookUp n with | (found, m) => (.ok found, m) with
    | some h => return h
    | none => fetch (.number n)

/-- The number of the head of the chain. -/
def headNumber : Inquiry MonitorError UInt64 := do
  return (← header .latest).number

/-- The signers of a header. -/
def signers (h : Header) : Inquiry MonitorError Seals := ofOperation (·.extract h)

/-- A header counted. -/
def countHeader (h : Header) : Inquiry MonitorError Seals := ofOperation (·.count h)

/-- A header counted and reported on. -/
def reportHeader (h : Header) (previous : UInt64) : Inquiry MonitorError BlockReport :=
  ofOperation (·.report h previous)

/-- The signers of a block, which is not counted. -/
def signerData (block : BlockNumber) : Inquiry MonitorError SignerData := do
  let h ← header block
  let seals ← signers h
  return ⟨h.number, seals.blockHash, h.timestamp, seals⟩

/-- The statistics with `n` more blocks counted, from the given number on. The last of them is the
head, which is at hand. -/
def replay (head : Header) : Nat → UInt64 → Statistics → Inquiry MonitorError Statistics
  | 0, _, fresh => return fresh
  | n + 1, number, fresh => do
    let h ← if number = head.number then pure head else header (.number number)
    let seals ← signers h
    replay head n (number + 1) (fresh.apply h.number seals.proposer seals.endorsers)

/-- The first of the last blocks of a chain: `window` before the head, but not block zero. -/
def firstReplayed (head window : UInt64) : UInt64 :=
  if window < head then head - window else 1

/-- The statistics of the blocks up to the head, and the metrics that go with them. The metrics want
the number after the head; if there is none, the program panics and they stay as they are. -/
def commit (m : Monitor) (fresh : Statistics) (first head : UInt64) : Monitor :=
  let counted := { m with statistics := { fresh with lastProcessed := head } }
  match successor? head with
  | none => counted
  | some next => counted.measure fun metrics =>
    (metrics.countBlocks (next.toNat - first.toNat)).setLastBlock head

/-- The counts start again from zero, with the last blocks of the chain counted. Without a window
they are only set to zero, and what is older stays counted. There is no result if the program
panics. -/
def restart (window : UInt64) : Inquiry MonitorError (Option Unit) := do
  if window = 0 then
    change fun m =>
      let fresh := Statistics.seeded m.validators
      { m with statistics := { fresh with lastProcessed := m.statistics.lastProcessed } }
    return some ()
  else
    -- the old statistics stay until all blocks are counted
    let seeded := Statistics.seeded (← current).validators
    let head ← header .latest
    let first := firstReplayed head.number window
    let fresh ← replay head (head.number.toNat + 1 - first.toNat) first seeded
    change (·.commit fresh first head.number)
    return (successor? head.number).map fun _ => ()

/-- The description of the node. -/
def nodeInfo : Inquiry MonitorError NodeInfo := do
  match ← ask .nodeInfo with
  | some info => return info
  | none => fail (.notFound "node info")

/-- The peers of the node. -/
def peers : Inquiry MonitorError (List PeerInfo) := do
  match ← ask .peers with
  | some peers => return peers
  | none => fail (.notFound "peer list")

end Monitor

end IstanbulMonitor
