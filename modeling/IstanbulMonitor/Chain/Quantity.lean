import IstanbulMonitor.Text.Radix

/-!
# Textual forms of chain values

A quantity is written as `0x` and the fewest hex digits. `Quantity.parse` also
reads an upper-case mark, leading zeros, a plus sign, and decimal digits when
there is no mark. A block is named by its number or by `latest`.
-/

set_option autoImplicit false

namespace IstanbulMonitor

/-- Why a text names no chain value. Each case keeps the whole text. -/
inductive ParseError where
  | invalidHex (text : String)
  | quantityOverflow (text : String)
  | invalidBlockTag (text : String)
  deriving DecidableEq

/-- The text of a parse error. -/
def ParseError.message : ParseError → String
  | .invalidHex text => s!"Invalid hex: {text}"
  | .quantityOverflow text => s!"Quantity out of range: {text}"
  | .invalidBlockTag text => s!"Invalid block tag: {text}"

namespace Hex

/-- The bytes of a text of hex digits after an optional mark. -/
def parse (text : String) : Except ParseError Bytes :=
  match decode? (unprefixed text.toList) with
  | some bytes => .ok bytes
  | none => .error (.invalidHex text)

end Hex

namespace Quantity

/-- Whether a text starts with `0x` or `0X`. -/
def isMarked : List Char → Bool
  | '0' :: 'x' :: _ => true
  | '0' :: 'X' :: _ => true
  | _ => false

/-- The word a text denotes. Only a marked text can be out of range; a decimal one that does not
fit is reported like one that is malformed. -/
def parse (text : String) : Except ParseError UInt64 :=
  if isMarked text.toList then
    match Radix.read 16 UInt64.size (Hex.unprefixed text.toList) with
    | .ok n => .ok (UInt64.ofNat n)
    | .error .overflow => .error (.quantityOverflow text)
    | .error .invalid => .error (.invalidHex text)
  else
    match Radix.decimal64? text with
    | some n => .ok n
    | none => .error (.invalidHex text)

/-- The word as `0x` and the fewest digits. -/
def format (n : UInt64) : String := Hex.quantity n.toNat

end Quantity

/-- A block to ask for: the head of the chain or a height. -/
inductive BlockNumber where
  | latest
  | number (n : UInt64)
  deriving DecidableEq

namespace BlockNumber

/-- The form in a request. -/
def argument : BlockNumber → String
  | .latest => "latest"
  | .number n => Quantity.format n

/-- The form in a message. -/
def text : BlockNumber → String
  | .latest => "latest"
  | .number n => toString n.toNat

/-- The height, if one is given. -/
def height? : BlockNumber → Option UInt64
  | .latest => none
  | .number n => some n

/-- The block a text names: `latest`, a marked quantity, or decimal digits. -/
def parse (text : String) : Except ParseError BlockNumber :=
  if text = "latest" then .ok .latest
  else if Quantity.isMarked text.toList then (Quantity.parse text).map .number
  else
    match Radix.decimal64? text with
    | some n => .ok (.number n)
    | none => .error (.invalidBlockTag text)

end BlockNumber

end IstanbulMonitor
