import IstanbulMonitor.Chain.Quantity
import IstanbulMonitor.Monitor.Query
import IstanbulMonitor.Session.Client

/-!
# A node that follows a script

The node answers the calls of a monitor from tables: results by method, blocks by
number, the block that is the head, errors to answer with, and methods that are
never answered. A method that is not in any table has a null result.
-/

set_option autoImplicit false

namespace IstanbulMonitor

/-- The tables of a node. Blocks are named by the decimal digits of their numbers. -/
structure ScriptedNode where
  validators : Json := .null
  nodeInfo : Json := .null
  peers : Json := .null
  subscription : Json := .string "0xsub"
  blocks : List (String × Json) := []
  latest : Option String := none
  failures : List (String × Json) := []
  silent : List String := []

namespace ScriptedNode

/-- The error that a table entry stands for. -/
def failure (value : Json) : RemoteError :=
  match RemoteError.ofJson value with
  | .ok e => e
  | .error _ => ⟨-32603, "bad script", none⟩

/-- The node with an entry for a block. -/
def setBlock (n : ScriptedNode) (key : String) (block : Json) : ScriptedNode :=
  { n with blocks := (key, block) :: n.blocks.filter (·.1 ≠ key) }

/-- The node without an entry for a block. -/
def removeBlock (n : ScriptedNode) (key : String) : ScriptedNode :=
  { n with blocks := n.blocks.filter (·.1 ≠ key) }

/-- The node answering a method with an error. -/
def setFailure (n : ScriptedNode) (method : String) (e : Json) : ScriptedNode :=
  { n with failures := (method, e) :: n.failures.filter (·.1 ≠ method) }

/-- The node answering a method without an error. -/
def removeFailure (n : ScriptedNode) (method : String) : ScriptedNode :=
  { n with failures := n.failures.filter (·.1 ≠ method) }

/-- The node that never answers a method. -/
def silence (n : ScriptedNode) (method : String) : ScriptedNode :=
  { n with silent := method :: n.silent.filter (· ≠ method) }

/-- The node that answers a method again. -/
def unsilence (n : ScriptedNode) (method : String) : ScriptedNode :=
  { n with silent := n.silent.filter (· ≠ method) }

/-- The entry of a block; null without one. -/
def block (n : ScriptedNode) (key : String) : Json :=
  .ofOption ((n.blocks.find? (·.1 = key)).map (·.2))

/-- The block that is asked for. -/
def blockFor (n : ScriptedNode) : List Json → Json
  | .string argument :: _ =>
    match BlockNumber.parse argument with
    | .ok .latest => n.latest.elim .null n.block
    | .ok (.number height) => n.block (toString height.toNat)
    | .error _ => .null
  | _ => .null

/-- The result of a method. -/
def result (n : ScriptedNode) (method : String) (params : List Json) : Json :=
  if method = Query.method (.validators .latest) then n.validators
  else if method = Query.method (.header .latest) then n.blockFor params
  else if method = Query.method .nodeInfo then n.nodeInfo
  else if method = Query.method .peers then n.peers
  else if method = subscribeMethod then n.subscription
  else .null

/-- The frame that answers a call, unless the method is never answered. -/
def answer? (n : ScriptedNode) (id : UInt64) (method : String) (params : List Json) :
    Option String :=
  if n.silent.contains method then none
  else
    match n.failures.find? (·.1 = method) with
    | some (_, e) => some (Frame.encodeError id (failure e))
    | none => some (Frame.encodeResponse id (n.result method params))

end ScriptedNode

end IstanbulMonitor
