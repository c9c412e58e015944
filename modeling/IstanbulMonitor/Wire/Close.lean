/-!
# Closing a connection

A peer closes a connection with a code and a reason, or without both. Some codes
may not be sent; one of them is taken for a violation of the protocol.
-/

set_option autoImplicit false

namespace IstanbulMonitor

/-- The code and the reason a connection is closed with. -/
structure CloseNotice where
  code : Nat
  reason : String
  deriving DecidableEq

namespace CloseNotice

/-- Whether a code may be sent: one of the standard codes that may, or a code that applications and
libraries register or choose for themselves. -/
def mayBeSent (code : Nat) : Bool :=
  [1000, 1001, 1002, 1003, 1007, 1008, 1009, 1010, 1011, 1012, 1013].contains code ||
  (3000 ≤ code && code ≤ 4999)

/-- The notice that counts when one is received. -/
def accepted (notice : CloseNotice) : CloseNotice :=
  if mayBeSent notice.code then notice else ⟨1002, "Protocol violation"⟩

end CloseNotice

end IstanbulMonitor
