import IstanbulMonitor.Json.Render
import IstanbulMonitor.Wire.Remote

/-!
# Frames

One text message carries one frame of JSON-RPC 2.0. A frame with a method and
an id is a request, one with an id alone a response, and one with a method
alone a notification. `Frame.decode` classifies a text by the members that are
present; the result of a response is kept as the text it was written in. The
`encode` functions write each kind of frame.
-/

set_option autoImplicit false

namespace IstanbulMonitor

/-- Why a text is no frame. -/
inductive FrameError where
  | malformed
  | unsupportedId (text : String)
  | missingSubscription
  | uncorrelated (message : String)
  | unrecognized
  deriving DecidableEq

/-- The text of a frame error. A text that is not the JSON of a frame has none of its own. -/
def FrameError.message? : FrameError → Option String
  | .malformed => none
  | .unsupportedId text => some s!"unsupported request id: {text}"
  | .missingSubscription => some "notification without subscription id"
  | .uncorrelated message => some s!"error frame without id: {message}"
  | .unrecognized => some "unrecognized frame"

/-- What a response reports: the text of the result, or an error. -/
abbrev Outcome := Except RemoteError String

/-- A frame. -/
inductive Frame where
  | request (id : UInt64) (method : String) (params : List Json)
  | response (id : UInt64) (outcome : Outcome)
  | notification (subscription : String) (payload : Json)

namespace Frame

/-- The name of a subscription: a string that is not empty, or the text of a number. -/
def subscriptionKey? : Json → Option String
  | .string s => if s.isEmpty then none else some s
  | .number n => some n.render
  | _ => none

/-- The members of a frame. -/
structure Members where
  id : Option Json
  method : Option String
  params : Option Json
  result : Option String
  error : Option RemoteError

/-- The names of the members, in order. -/
def memberNames : List String := ["id", "method", "params", "result", "error"]

/-- An optional member of a frame: null stands for its absence. -/
def member? {α : Type} (name : String) (read : Json.Source → Option α)
    (members : List (String × Json.Source)) : Option (Option α) :=
  match members.find? (·.1 = name) with
  | none => some none
  | some (_, .null) => some none
  | some (_, value) => (read value).map some

/-- The string a source denotes. -/
def sourceString? : Json.Source → Option String
  | .string body => (Json.decodeBody body).map String.ofList
  | _ => none

/-- The members of a frame in source form. The result is not read; its text is kept. -/
def Members.ofSource? (source : Json.Source) : Option Members := do
  let members ← source.fields? memberNames
  let depth := Json.maxDepth - 1
  return {
    id := ← member? "id" (·.value? depth) members
    method := ← member? "method" sourceString? members
    params := ← member? "params" (·.value? depth) members
    result := ← member? "result" (fun value => some value.text) members
    error := ← member? "error" (RemoteError.ofSource? depth) members }

/-- The id of a call. -/
def callId (value : Json) : Except FrameError UInt64 :=
  match value.word? with
  | some id => .ok id
  | none => .error (.unsupportedId value.render)

/-- The parameters of a request as a list. -/
def paramList : Option Json → List Json
  | some (.array elements) => elements
  | some .null => []
  | none => []
  | some value => [value]

/-- The subscription and the payload that the parameters of a notification name. -/
def event? : Option Json → Option (String × Json)
  | some (.object members) => do
    let named := (Json.lookup "subscription" members).or (Json.lookup "subscriptionId" members)
    let key ← subscriptionKey? (← named)
    return (key, .ofOption (Json.lookup "result" members))
  | _ => none

/-- The frame that members make up. An error counts before a result, and a response with neither
has a null result. -/
def Members.classify (m : Members) : Except FrameError Frame :=
  match m.method, m.id with
  | some method, some id => do return .request (← callId id) method (paramList m.params)
  | some _, none =>
    match event? m.params with
    | some (key, payload) => .ok (.notification key payload)
    | none => .error .missingSubscription
  | none, some id => do
    let id ← callId id
    match m.error with
    | some e => return .response id (.error e)
    | none => return .response id (.ok (m.result.getD "null"))
  | none, none =>
    match m.error with
    | some e => .error (.uncorrelated e.message)
    | none => .error .unrecognized

/-- The frame in a text. -/
def decode (text : String) : Except FrameError Frame :=
  match (Json.Source.read? text).bind Members.ofSource? with
  | some members => members.classify
  | none => .error .malformed

/-- The version every frame names. -/
def version : String × Json := ("jsonrpc", .string "2.0")

/-- The text of a request. -/
def encodeRequest (id : UInt64) (method : String) (params : List Json) : String :=
  (Json.ofMembers
    [version, ("id", .word id), ("method", .string method), ("params", .array params)]).render

/-- The text of a response with a result. -/
def encodeResponse (id : UInt64) (result : Json) : String :=
  (Json.ofMembers [version, ("id", .word id), ("result", result)]).render

/-- The text of a response with an error. -/
def encodeError (id : UInt64) (e : RemoteError) : String :=
  (Json.ofMembers [version, ("id", .word id), ("error", e.toJson)]).render

/-- The text of a notification. -/
def encodeNotification (subscription : String) (payload : Json) : String :=
  (Json.ofMembers
    [version, ("method", .string "eth_subscription"),
     ("params", .ofMembers [("subscription", .string subscription), ("result", payload)])]).render

end Frame

end IstanbulMonitor
