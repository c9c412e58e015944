import IstanbulMonitor.Json.Decode
import IstanbulMonitor.Validator.Enode

/-!
# What a node says about itself and its peers

Only the parts that the monitor reads are typed; the protocols a node speaks
are kept as they are. Most fields may be missing and then are empty.
-/

set_option autoImplicit false

namespace IstanbulMonitor

/-- The ports of a node. -/
structure NodePorts where
  discovery : Nat := 0
  listener : Nat := 0
  deriving DecidableEq

/-- The description of the node itself. -/
structure NodeInfo where
  id : String
  name : String
  enode : String
  enr : Option String
  ip : String
  ports : NodePorts
  listenAddr : String
  protocols : Json

/-- The network side of a peer. -/
structure PeerNetwork where
  localAddress : String := ""
  remoteAddress : String := ""
  inbound : Bool := false
  trusted : Bool := false
  static : Bool := false
  deriving DecidableEq

/-- One connected peer. -/
structure PeerInfo where
  enode : String
  id : String
  name : String
  caps : List String
  network : PeerNetwork
  protocols : Json

open Json (Rule Decoder readString readBool readAny readArray optional)

namespace NodePorts

/-- A port number. -/
def readPort : Decoder Nat := fun value => (Json.readInt 0 65535 value).map Int.toNat

/-- The ports a value holds. -/
def ofJson : Decoder NodePorts := fun value => do
  let f ← Json.fields [.of "discovery" readPort, .of "listener" readPort] value
  return {
    discovery := ← f.withDefault "discovery" readPort 0
    listener := ← f.withDefault "listener" readPort 0 }

/-- The ports as an object. -/
def toJson (p : NodePorts) : Json :=
  .ofMembers [("discovery", .nat p.discovery), ("listener", .nat p.listener)]

end NodePorts

namespace NodeInfo

/-- The fields of a node description and their rules, in order. -/
def rules : List Rule :=
  [.of "id" readString, .of "name" readString, .of "enode" readString,
   .of "enr" (optional readString), .of "ip" readString, .of "ports" NodePorts.ofJson,
   .of "listenAddr" readString, .of "protocols" readAny]

/-- The node description a value holds. -/
def ofJson : Decoder NodeInfo := fun value => do
  let f ← Json.fields rules value
  return {
    id := ← f.required "id" readString
    name := ← f.withDefault "name" readString ""
    enode := ← f.required "enode" readString
    enr := ← f.withDefault "enr" (optional readString) none
    ip := ← f.withDefault "ip" readString ""
    ports := ← f.withDefault "ports" NodePorts.ofJson {}
    listenAddr := ← f.withDefault "listenAddr" readString ""
    protocols := ← f.withDefault "protocols" readAny .null }

/-- The node description as an object. -/
def toJson (n : NodeInfo) : Json :=
  .ofMembers <|
    [("id", .string n.id), ("name", .string n.name), ("enode", .string n.enode),
     ("ip", .string n.ip), ("ports", n.ports.toJson), ("listenAddr", .string n.listenAddr),
     ("protocols", n.protocols)] ++
    (n.enr.map fun text => ("enr", Json.string text)).toList

/-- The account of the node's key. -/
def address (n : NodeInfo) : Except RegistryError Address := Enode.address n.enode

end NodeInfo

namespace PeerNetwork

/-- The fields of the network side and their rules, in order. -/
def rules : List Rule :=
  [.of "localAddress" readString, .of "remoteAddress" readString, .of "inbound" readBool,
   .of "trusted" readBool, .of "static" readBool]

/-- The network side a value holds. -/
def ofJson : Decoder PeerNetwork := fun value => do
  let f ← Json.fields rules value
  return {
    localAddress := ← f.withDefault "localAddress" readString ""
    remoteAddress := ← f.withDefault "remoteAddress" readString ""
    inbound := ← f.withDefault "inbound" readBool false
    trusted := ← f.withDefault "trusted" readBool false
    static := ← f.withDefault "static" readBool false }

/-- The network side as an object. -/
def toJson (n : PeerNetwork) : Json :=
  .ofMembers
    [("localAddress", .string n.localAddress), ("remoteAddress", .string n.remoteAddress),
     ("inbound", .bool n.inbound), ("trusted", .bool n.trusted), ("static", .bool n.static)]

end PeerNetwork

namespace PeerInfo

/-- The fields of a peer and their rules, in order. -/
def rules : List Rule :=
  [.of "enode" readString, .of "id" readString, .of "name" readString,
   .of "caps" (readArray readString), .of "network" PeerNetwork.ofJson, .of "protocols" readAny]

/-- The peer a value holds. -/
def ofJson : Decoder PeerInfo := fun value => do
  let f ← Json.fields rules value
  return {
    enode := ← f.withDefault "enode" readString ""
    id := ← f.required "id" readString
    name := ← f.withDefault "name" readString ""
    caps := ← f.withDefault "caps" (readArray readString) []
    network := ← f.withDefault "network" PeerNetwork.ofJson {}
    protocols := ← f.withDefault "protocols" readAny .null }

/-- The peer as an object. -/
def toJson (p : PeerInfo) : Json :=
  .ofMembers
    [("enode", .string p.enode), ("id", .string p.id), ("name", .string p.name),
     ("caps", .array (p.caps.map .string)), ("network", p.network.toJson),
     ("protocols", p.protocols)]

/-- The account of the peer's key. -/
def address (p : PeerInfo) : Except RegistryError Address := Enode.address p.enode

end PeerInfo

end IstanbulMonitor
