import IstanbulMonitor.Json.Decode
import IstanbulMonitor.Json.Read

/-!
# Remote errors

The error object that a node answers a failed call with: a code, a message and
optional data.
-/

set_option autoImplicit false

namespace IstanbulMonitor

/-- An error reported by the node. -/
structure RemoteError where
  code : Int
  message : String
  data : Option Json

namespace RemoteError

/-- The text of a remote error. -/
def text (e : RemoteError) : String := s!"remote error {e.code}: {e.message}"

/-- The error as an object; absent data are left out. -/
def toJson (e : RemoteError) : Json :=
  Json.ofMembers <|
    [("code", .number (.int e.code)), ("message", .string e.message)] ++
    (e.data.map fun value => ("data", value)).toList

/-- Codes are signed 64-bit integers. -/
def readCode : Json.Decoder Int := Json.readInt (-0x8000000000000000) 0x7fffffffffffffff

/-- The fields of a remote error and their rules, in order. -/
def rules : List Json.Rule :=
  [.of "code" readCode, .of "message" Json.readString,
   .of "data" (Json.optional Json.readAny)]

/-- The error a value holds. -/
def ofJson : Json.Decoder RemoteError := fun value => do
  let f ← Json.fields rules value
  return {
    code := ← f.required "code" readCode
    message := ← f.required "message" Json.readString
    data := ← f.withDefault "data" (Json.optional Json.readAny) none }

/-- The error in a source that is read in one pass. -/
def ofSource? (depth : Nat) (source : Json.Source) : Option RemoteError := do
  let value ← source.record? depth (rules.map (·.name))
  (ofJson value).toOption

/-- The error in a text that is read in one pass. -/
def ofText? (text : String) : Option RemoteError := do
  ofSource? Json.maxDepth (← Json.Source.read? text)

end RemoteError

end IstanbulMonitor
