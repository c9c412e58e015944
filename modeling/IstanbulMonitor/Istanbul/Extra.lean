import IstanbulMonitor.Bytes.Fixed
import IstanbulMonitor.Rlp.Encode
import IstanbulMonitor.Rlp.Decode

/-!
# Istanbul extra-data

The extra-data of an Istanbul header is a vanity of 32 bytes followed by the
encoded list of the validators' addresses, the proposer's seal and the
committed seals. `Extra.encode` writes it, `Extra.decode` reads it, and
`Extra.filtered` writes the forms that the seals sign.
-/

set_option autoImplicit false

namespace IstanbulMonitor

/-- Why the signers of a header cannot be named. -/
inductive RecoveryError where
  | extraTooShort (len : Nat)
  | malformedExtra (reason : String)
  | sealLength (len : Nat)
  | recoveryId (v : UInt8)
  | invalidSignature
  | unrecoverable
  deriving DecidableEq

/-- The text of a recovery error. -/
def RecoveryError.message : RecoveryError → String
  | .extraTooShort len => s!"extra-data too short: {len} bytes, need at least 32"
  | .malformedExtra reason => s!"malformed Istanbul extra-data: {reason}"
  | .sealLength len => s!"invalid seal length: {len} bytes, expected 65"
  | .recoveryId v => s!"invalid recovery id: {v.toNat}"
  | .invalidSignature => "invalid signature encoding"
  | .unrecoverable => "public key recovery failed"

/-- The contents of an Istanbul extra-data field. -/
structure Extra where
  vanity : FixedBytes 32
  validators : List Address
  proposerSeal : Bytes
  committedSeals : List Bytes
  deriving DecidableEq

namespace Extra

/-- The length of the vanity. -/
def vanityLength : Nat := 32

/-- The layout with the given seals. -/
def encodeWith (x : Extra) (proposerSeal : Bytes) (committedSeals : List Bytes) : Bytes :=
  x.vanity.toList ++ Rlp.list
    [Rlp.list (x.validators.map fun a => Rlp.data a.toList),
     Rlp.data proposerSeal,
     Rlp.list (committedSeals.map Rlp.data)]

/-- The extra-data field with these contents. -/
def encode (x : Extra) : Bytes :=
  x.encodeWith x.proposerSeal x.committedSeals

/-- The extra-data that a digest covers: never with committed seals, and with the proposer's
seal only if it is kept. -/
def filtered (x : Extra) (keepSeal : Bool) : Bytes :=
  x.encodeWith (if keepSeal then x.proposerSeal else []) []

/-- The error for a body that is not well encoded. -/
def malformed (fault : Rlp.Fault) : RecoveryError :=
  .malformedExtra fault.name

/-- The address in a data item. -/
def readAddress (item : Bytes) : Except Rlp.Fault Address := do
  let body ← Rlp.fixedPayload 20 item
  return FixedBytes.ofStart 20 body

/-- The contents of an extra-data field. -/
def decode (bytes : Bytes) : Except RecoveryError Extra :=
  if bytes.length < vanityLength then .error (.extraTooShort bytes.length)
  else
    let body := bytes.drop vanityLength
    match Rlp.extent body with
    | .error fault => .error (malformed fault)
    | .ok e =>
      if e.total ≠ body.length then
        .error (.malformedExtra s!"{body.length - e.total} trailing bytes")
      else
        match Rlp.isList body, Rlp.items body with
        | true, [validators, proposerSeal, committedSeals] =>
          let contents : Except Rlp.Fault Extra := do
            let validators ← (Rlp.items validators).mapM readAddress
            let proposerSeal ← Rlp.payload proposerSeal
            let committedSeals ← (Rlp.items committedSeals).mapM Rlp.payload
            return ⟨.ofStart 32 (bytes.take vanityLength), validators, proposerSeal, committedSeals⟩
          contents.mapError malformed
        | _, _ => .error (.malformedExtra "expected a list of three items")

end Extra

end IstanbulMonitor
