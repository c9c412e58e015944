/-!
# Blanks around a text

`trim` removes the characters of the Unicode property White_Space from both
ends of a text.
-/

set_option autoImplicit false

namespace IstanbulMonitor.Text

/-- The ranges of the property White_Space. -/
def blankRanges : List (Nat × Nat) :=
  [(0x9, 0xd), (0x20, 0x20), (0x85, 0x85), (0xa0, 0xa0), (0x1680, 0x1680), (0x2000, 0x200a),
   (0x2028, 0x2029), (0x202f, 0x202f), (0x205f, 0x205f), (0x3000, 0x3000)]

/-- Whether a character is white space. -/
def isBlank (c : Char) : Bool :=
  blankRanges.any fun (low, high) => low ≤ c.toNat && c.toNat ≤ high

/-- The characters between the first and the last that are no white space. -/
def trim (text : String) : String :=
  String.ofList (((text.toList.dropWhile isBlank).reverse.dropWhile isBlank).reverse)

/-- The text with the letters of ASCII in lower case. -/
def lower (text : String) : String :=
  String.ofList (text.toList.map Char.toLower)

end IstanbulMonitor.Text
