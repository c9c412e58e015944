import IstanbulMonitor.Scenario.Exchange

/-!
# Scripts

The tables of a scripted node and its actions, read from JSON. A script gives a
block by the members in which it differs from the blank header. The member
`$drop` lists members that are left out, an object of the one member `$raw`
stands for what it holds, and a value that is no object stands for itself.
-/

set_option autoImplicit false

namespace IstanbulMonitor

namespace ScriptedBlock

/-- The names of the members that are left out. -/
def dropped (members : List (String × Json)) : List String :=
  match Json.lookup "$drop" members with
  | some (.array names) => names.filterMap Json.string?
  | _ => []

/-- The value that a script means. `given` are members that hold unless the script gives them. -/
def value (given : List (String × Json)) : Json → Json
  | .object [("$raw", v)] => v
  | .object members =>
    let all := (given ++ members).foldl (fun acc m => Json.insert m.1 m.2 acc)
      Header.blank.toJson.members
    .object (all.filter fun m => m.1 ≠ "$drop" && !(dropped members).contains m.1)
  | v => v

/-- The header that a script means, if it is one. -/
def header? (script : Json) : Option Header := (Header.ofJson (value [] script)).toOption

/-- The decimal digits that name a block. -/
def key? : Json → Option String
  | .string digits => some digits
  | .number (.int n) => some (toString n)
  | _ => none

end ScriptedBlock

namespace ScriptedNode

/-- The blocks of a table by their numbers, which they have unless the table gives others. -/
def blocksOfJson (table : Json) : List (String × Json) :=
  table.members.map fun (key, block) => (key, ScriptedBlock.value [("number", .string key)] block)

/-- The tables of a node. -/
def ofJson (script : Json) : ScriptedNode :=
  let table (name : String) : Json := .ofOption (script.get? name)
  { validators := table "validators"
    nodeInfo := table "node_info"
    peers := table "peers"
    subscription := (script.get? "subscription").getD (.string "0xsub")
    blocks := blocksOfJson (table "blocks")
    latest := ScriptedBlock.key? (table "latest")
    failures := (table "fail").members
    silent := (table "silent").members.map (·.1) }

end ScriptedNode

namespace NodeAction

/-- The change of the value of a name. -/
def setOfJson? (name : String) (value : Json) : Option NodeAction :=
  match name with
  | "validators" => some (.setValidators value)
  | "node_info" => some (.setNodeInfo value)
  | "peers" => some (.setPeers value)
  | "subscription" => some (.setSubscription value)
  | "latest" => some (.setLatest (ScriptedBlock.key? value))
  | _ => none

/-- The action that a step of a script is. -/
def ofJson? (step : Json) : Option NodeAction := do
  let text (name : String) : Option String := (step.get? name).bind Json.string?
  match ← text "do" with
  | "set_block" =>
    let key ← step.get? "key"
    let block ← step.get? "block"
    return .setBlock (← ScriptedBlock.key? key) (ScriptedBlock.value [("number", key)] block)
  | "remove_block" => return .removeBlock (← (step.get? "key").bind ScriptedBlock.key?)
  | "set" => setOfJson? (← text "name") (.ofOption (step.get? "value"))
  | "silence" => return .silence (← text "method")
  | "unsilence" => return .unsilence (← text "method")
  | "fail" => return .fail (← text "method") (← step.get? "remote")
  | "unfail" => return .unfail (← text "method")
  | "notify" => return .notify ((text "subscription").getD "0xsub") (← step.get? "payload")
  | "push" => return .push (← text "text")
  | "disconnect" => return .disconnect
  | _ => none

end NodeAction

end IstanbulMonitor
