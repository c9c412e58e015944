import IstanbulMonitor.Istanbul.Recovery
import IstanbulMonitor.Monitor.Error

/-!
# Node URLs

The URL of a node is `enode://`, the 128 hex digits of its public key, and
optionally `@` with anything after it. `Enode.address` names the account of the
key, which has to be a point of the curve.
-/

set_option autoImplicit false

namespace IstanbulMonitor.Enode

/-- The characters after the scheme. -/
def afterScheme? : List Char → Option (List Char)
  | 'e' :: 'n' :: 'o' :: 'd' :: 'e' :: ':' :: '/' :: '/' :: rest => some rest
  | _ => none

/-- The account of a node id. -/
def idAccount (id : List Char) : Except EnodeFault Address :=
  match Hex.decode? id with
  | none => .error .notHex
  | some key =>
    if key.length ≠ 64 then .error .wrongLength
    else
      let x := Bytes.toNat (key.take 32)
      let y := Bytes.toNat (key.drop 32)
      if Secp256k1.onCurve x y then .ok (.ofSuffix 20 (Keccak.keccak256 key).toList)
      else .error .offCurve

/-- The account of the node at a URL. -/
def address (url : String) : Except RegistryError Address :=
  match afterScheme? url.toList with
  | none => .error (.enode .scheme url)
  | some rest => (idAccount (rest.takeWhile (· ≠ '@'))).mapError (.enode · url)

end IstanbulMonitor.Enode
