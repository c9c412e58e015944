import IstanbulMonitor.Crypto.Keccak
import IstanbulMonitor.Crypto.Secp256k1
import IstanbulMonitor.Istanbul.Extra

/-!
# Signer recovery

A seal is 65 bytes: `r`, `s` and a recovery id. `recoverSigner` names the
account that signed a digest; it first brings `s` into the lower half of the
group, which flips the parity of the nonce point. `SignerRecovery` is the type
of all such functions, since the monitor works over any of them.
-/

set_option autoImplicit false

namespace IstanbulMonitor

/-- Names the signer of a digest from a seal. -/
abbrev SignerRecovery := Hash → Bytes → Except RecoveryError Address

/-- The account of a public key: the end of the hash of its coordinates. -/
def accountOf (key : Secp256k1.Affine) : Address :=
  .ofSuffix 20 (Keccak.keccak256 (Bytes.ofNat 32 key.x ++ Bytes.ofNat 32 key.y)).toList

namespace Seal

/-- The length of a seal. -/
def length : Nat := 65

/-- The two scalars of a signature and the parity of its nonce point. -/
structure Signature where
  r : Nat
  s : Nat
  odd : Bool
  deriving DecidableEq

/-- The parity meant by a recovery id. -/
def parity? (v : UInt8) : Option Bool :=
  if v = 0 ∨ v = 27 then some false
  else if v = 1 ∨ v = 28 then some true
  else none

/-- A scalar that may stand in a signature. -/
def isScalar (n : Nat) : Bool :=
  0 < n && n < Secp256k1.groupOrder

/-- The signature in a seal. The length is checked first, then the recovery id, then the scalars. -/
def read (bytes : Bytes) : Except RecoveryError Signature :=
  if bytes.length ≠ length then .error (.sealLength bytes.length)
  else
    let v := bytes.getD 64 0
    match parity? v with
    | none => .error (.recoveryId v)
    | some odd =>
      let r := Bytes.toNat (bytes.take 32)
      let s := Bytes.toNat ((bytes.drop 32).take 32)
      if isScalar r && isScalar s then .ok ⟨r, s, odd⟩ else .error .invalidSignature

/-- The signature with its second scalar in the lower half of the group. -/
def Signature.lower (sig : Signature) : Signature :=
  if Secp256k1.groupOrder / 2 < sig.s then
    ⟨sig.r, Secp256k1.groupOrder - sig.s, !sig.odd⟩
  else sig

end Seal

/-- The account whose key signed `digest` with this seal. -/
def recoverSigner : SignerRecovery := fun digest bytes => do
  let sig ← Seal.read bytes
  let low := sig.lower
  match Secp256k1.recoverPoint? digest.toNat low.r low.s low.odd with
  | some key => .ok (accountOf key)
  | none => .error .unrecoverable

end IstanbulMonitor
