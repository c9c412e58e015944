import IstanbulMonitor.Chain.Header
import IstanbulMonitor.Chain.Quantity
import IstanbulMonitor.Json.Decode
import IstanbulMonitor.Json.Read

/-!
# Chain values in JSON

Quantities, byte strings, hashes and words as a node writes them, and whole
headers. A header is written by `Header.toJson`; `Header.ofJson` reads a value
and `Header.ofText?` a text in one pass.
-/

set_option autoImplicit false

namespace IstanbulMonitor

/-- A quantity: a string or a plain integer of 64 bits. -/
def Quantity.ofJson : Json.Decoder UInt64
  | .string s =>
    match Quantity.parse s with
    | .ok n => .ok n
    | .error e => .error (.text e.message)
  | value =>
    match value.word? with
    | some n => .ok n
    | none => .error .shape

/-- A word is read as it is. -/
theorem Quantity.ofJson_word (n : UInt64) : Quantity.ofJson (.word n) = .ok n := by
  have hread : ∀ k : Json.Number, Quantity.ofJson (.number k) =
      match (Json.number k).word? with
      | some n => .ok n
      | none => .error .shape := fun _ => rfl
  have hword := Json.word?_word n
  unfold Json.word Json.nat at hword ⊢
  rw [hread, hword]

/-- A quantity as a string. -/
def Quantity.toJson (n : UInt64) : Json := .string (Quantity.format n)

/-- A byte string of any length. -/
def Bytes.ofJson : Json.Decoder Bytes
  | .string s =>
    match Hex.parse s with
    | .ok bytes => .ok bytes
    | .error _ => .error (.text "invalid hex bytes")
  | _ => .error .shape

/-- A byte string as a string of marked digits. -/
def Bytes.toJson (bytes : Bytes) : Json := .string (Hex.marked bytes)

/-- The bytes that digits fill two by two. A blank takes no part, and a last lone digit is
dropped. -/
def Hex.pack? : Option Nat → List Char → Option Bytes
  | _, [] => some []
  | pending, c :: cs =>
    if Json.isBlank c then pack? pending cs
    else do
      let d ← value? c
      match pending with
      | none => pack? (some d) cs
      | some high => return UInt8.ofNat (16 * high + d) :: (← pack? none cs)

/-- The text after an optional `0x`. -/
def Hex.afterMark : List Char → List Char
  | '0' :: 'x' :: cs => cs
  | cs => cs

/-- A byte string of fixed length: a string of twice as many characters after an optional `0x`. -/
def FixedBytes.ofJson (n : Nat) : Json.Decoder (FixedBytes n)
  | .string s =>
    let cs := Hex.afterMark s.toList
    if cs.length = 2 * n then
      match Hex.pack? none cs with
      | some bytes => .ok (.ofStart n bytes)
      | none => .error .shape
    else .error .shape
  | _ => .error .shape

/-- A byte string of fixed length as a string of marked digits. -/
def FixedBytes.toJson {n : Nat} (x : FixedBytes n) : Json := .string x.hex

/-- A 256-bit word: a string of 1 to 64 characters after an optional `0x`; an odd number of them
starts with half a byte. -/
def U256.ofJson : Json.Decoder U256
  | .string s =>
    let cs := Hex.afterMark s.toList
    if 0 < cs.length ∧ cs.length ≤ 64 then
      match Hex.pack? (if cs.length % 2 = 1 then some 0 else none) cs with
      | some bytes => .ok (BitVec.ofNat 256 (Bytes.toNat bytes))
      | none => .error .shape
    else .error .shape
  | _ => .error .shape

/-- A 256-bit word as a string of the fewest digits. -/
def U256.toJson (n : U256) : Json := .string (Hex.quantity n.toNat)

namespace Header

/-- The header as an object; the base fee and the hash are left out when absent. -/
def toJson (h : Header) : Json :=
  Json.ofMembers <|
    [("parentHash", h.parentHash.toJson), ("sha3Uncles", h.unclesHash.toJson),
     ("miner", h.coinbase.toJson), ("stateRoot", h.stateRoot.toJson),
     ("transactionsRoot", h.transactionsRoot.toJson), ("receiptsRoot", h.receiptsRoot.toJson),
     ("logsBloom", h.logsBloom.toJson), ("difficulty", U256.toJson h.difficulty),
     ("number", Quantity.toJson h.number), ("gasLimit", Quantity.toJson h.gasLimit),
     ("gasUsed", Quantity.toJson h.gasUsed), ("timestamp", Quantity.toJson h.timestamp),
     ("extraData", h.extraData.toJson), ("mixHash", h.mixDigest.toJson),
     ("nonce", h.nonce.toJson)] ++
    (h.baseFee.map fun fee => ("baseFeePerGas", U256.toJson fee)).toList ++
    (h.hash.map fun hash => ("hash", hash.toJson)).toList

/-- The fields of a header and their rules, in order. -/
def rules : List Json.Rule :=
  [.of "parentHash" (FixedBytes.ofJson 32), .of "sha3Uncles" (FixedBytes.ofJson 32),
   .of "miner" (FixedBytes.ofJson 20), .of "stateRoot" (FixedBytes.ofJson 32),
   .of "transactionsRoot" (FixedBytes.ofJson 32), .of "receiptsRoot" (FixedBytes.ofJson 32),
   .of "logsBloom" Bytes.ofJson, .of "difficulty" U256.ofJson, .of "number" Quantity.ofJson,
   .of "gasLimit" Quantity.ofJson, .of "gasUsed" Quantity.ofJson, .of "timestamp" Quantity.ofJson,
   .of "extraData" Bytes.ofJson, .of "mixHash" (FixedBytes.ofJson 32), .of "nonce" Bytes.ofJson,
   .of "baseFeePerGas" (Json.optional U256.ofJson),
   .of "hash" (Json.optional (FixedBytes.ofJson 32))]

/-- The header a value holds. -/
def ofJson : Json.Decoder Header := fun value => do
  let f ← Json.fields rules value
  return {
    parentHash := ← f.required "parentHash" (FixedBytes.ofJson 32)
    unclesHash := ← f.required "sha3Uncles" (FixedBytes.ofJson 32)
    coinbase := ← f.required "miner" (FixedBytes.ofJson 20)
    stateRoot := ← f.required "stateRoot" (FixedBytes.ofJson 32)
    transactionsRoot := ← f.required "transactionsRoot" (FixedBytes.ofJson 32)
    receiptsRoot := ← f.required "receiptsRoot" (FixedBytes.ofJson 32)
    logsBloom := ← f.required "logsBloom" Bytes.ofJson
    difficulty := ← f.required "difficulty" U256.ofJson
    number := ← f.required "number" Quantity.ofJson
    gasLimit := ← f.required "gasLimit" Quantity.ofJson
    gasUsed := ← f.required "gasUsed" Quantity.ofJson
    timestamp := ← f.required "timestamp" Quantity.ofJson
    extraData := ← f.required "extraData" Bytes.ofJson
    mixDigest := ← f.required "mixHash" (FixedBytes.ofJson 32)
    nonce := ← f.required "nonce" Bytes.ofJson
    baseFee := ← f.withDefault "baseFeePerGas" (Json.optional U256.ofJson) none
    hash := ← f.withDefault "hash" (Json.optional (FixedBytes.ofJson 32)) none }

/-- The header in a text that is read in one pass. -/
def ofText? (text : String) : Option Header := do
  let source ← Json.Source.read? text
  let value ← source.record? Json.maxDepth (rules.map (·.name))
  (ofJson value).toOption

end Header

end IstanbulMonitor
