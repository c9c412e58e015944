import IstanbulMonitor.Istanbul.Recovery

/-!
# Seals that name their signers

A recovery for scripted chains, whose seals are not signed: a seal begins with
the address of its signer, and its last byte marks a seal that names nobody.
-/

set_option autoImplicit false

namespace IstanbulMonitor

/-- The mark of a seal that names nobody. -/
def anonymousMark : UInt8 := 0xff

/-- The signer that a seal names, whatever the digest. -/
def namedSigner : SignerRecovery := fun _ bytes =>
  if bytes.length ≠ Seal.length then .error (.sealLength bytes.length)
  else if bytes.getLast? = some anonymousMark then .error .unrecoverable
  else .ok (.ofStart 20 bytes)

end IstanbulMonitor
