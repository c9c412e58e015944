import IstanbulMonitor.Chain.Json
import IstanbulMonitor.Json.Read
import IstanbulMonitor.Validator.Enode

/-!
# The registry of operators

Reference data on known validators: who operates the node at an address. A
registry is made from entries of an operator and a node URL
(`Registry.ofEntries`), or read from a JSON text of them (`Registry.ofText`). A
later entry for the same address replaces an earlier one.
-/

set_option autoImplicit false

namespace IstanbulMonitor

/-- An operator and the URL of its node. -/
structure RegistryEntry where
  operator : String
  enode : String
  deriving DecidableEq

/-- What is known of a validator. -/
structure ValidatorInfo where
  address : Address
  operator : String
  enode : Option String
  deriving DecidableEq

/-- What is known of a validator as an object; the URL is left out when absent. -/
def ValidatorInfo.toJson (v : ValidatorInfo) : Json :=
  .ofMembers <|
    [("address", v.address.toJson), ("operator", .string v.operator)] ++
    (v.enode.map fun url => ("enode", Json.string url)).toList

/-- Known validators, each address once. -/
structure Registry where
  entries : List ValidatorInfo := []
  deriving DecidableEq

namespace Registry

/-- The entries with one more, in the place of an earlier one for the same address. -/
def put (info : ValidatorInfo) : List ValidatorInfo → List ValidatorInfo
  | [] => [info]
  | other :: rest => if other.address = info.address then info :: rest else other :: put info rest

/-- The registry with one more entry. -/
def insert (r : Registry) (info : ValidatorInfo) : Registry := ⟨put info r.entries⟩

/-- What is known of an address. -/
def get? (r : Registry) (a : Address) : Option ValidatorInfo :=
  r.entries.find? (·.address = a)

/-- The operator of the node at an address. -/
def operator? (r : Registry) (a : Address) : Option String :=
  (r.get? a).map (·.operator)

/-- The number of known validators. -/
def size (r : Registry) : Nat := r.entries.length

/-- The entries in the order of their addresses. -/
def sorted (r : Registry) : List ValidatorInfo :=
  r.entries.mergeSort fun a b => a.address.toNat ≤ b.address.toNat

/-- The registry of entries, unless the URL of one is bad; the first bad one counts. -/
def ofEntries (entries : List RegistryEntry) : Except RegistryError Registry :=
  entries.foldlM (fun r e => do
    let a ← Enode.address e.enode
    return r.insert ⟨a, e.operator, some e.enode⟩) {}

/-- The fields of an entry and their rules, in order. -/
def entryRules : List Json.Rule :=
  [.of "operator" Json.readString, .of "enode" Json.readString]

/-- The entry a value holds. -/
def entryOfJson : Json.Decoder RegistryEntry := fun value => do
  let f ← Json.fields entryRules value
  return {
    operator := ← f.required "operator" Json.readString
    enode := ← f.required "enode" Json.readString }

/-- The entry in a source that is read in one pass. -/
def entryOfSource? (source : Json.Source) : Option RegistryEntry := do
  let value ← source.record? (Json.maxDepth - 1) (entryRules.map (·.name))
  (entryOfJson value).toOption

/-- The entries in a text that is an array of them. -/
def entriesOfText? (text : String) : Option (List RegistryEntry) := do
  match ← Json.Source.read? text with
  | .emptyArray _ => some []
  | .array items => items.mapM fun item => entryOfSource? item.value
  | _ => none

/-- The registry in a text. -/
def ofText (text : String) : Except RegistryError Registry :=
  match entriesOfText? text with
  | some entries => ofEntries entries
  | none => .error .malformed

end Registry

end IstanbulMonitor
