import IstanbulMonitor.Chain.Json
import IstanbulMonitor.Monitor.NodeInfo

/-!
# Queries

What a monitor asks its node, as calls of the node's methods, and what the
answers are read as.
-/

set_option autoImplicit false

namespace IstanbulMonitor

/-- A question to the node. -/
inductive Query where
  | validators (block : BlockNumber)
  | header (block : BlockNumber)
  | nodeInfo
  | peers
  deriving DecidableEq

namespace Query

/-- The method that is called. -/
def method : Query → String
  | .validators _ => "istanbul_getValidators"
  | .header _ => "eth_getBlockByNumber"
  | .nodeInfo => "admin_nodeInfo"
  | .peers => "admin_peers"

/-- The parameters of the call. A block is asked for without its transactions. -/
def params : Query → List Json
  | .validators block => [.string block.argument]
  | .header block => [.string block.argument, .bool false]
  | .nodeInfo => []
  | .peers => []

/-- What an answer tells. -/
abbrev Answer : Query → Type
  | .validators _ => List Address
  | .header _ => Option Header
  | .nodeInfo => Option NodeInfo
  | .peers => Option (List PeerInfo)

/-- What the result of the call is read as. -/
def decode : (q : Query) → Json.Decoder q.Answer
  | .validators _ => Json.readArray (FixedBytes.ofJson 20)
  | .header _ => Json.optional Header.ofJson
  | .nodeInfo => Json.optional NodeInfo.ofJson
  | .peers => Json.optional (Json.readArray PeerInfo.ofJson)

end Query

end IstanbulMonitor
