import IstanbulMonitor.Json.Source

/-!
# Reading JSON text

`Source.read?` accepts the texts that are one JSON value with blanks around it
and gives their concrete form; nesting is not limited. `Json.parse?` reads a
text as a value.
-/

set_option autoImplicit false

namespace IstanbulMonitor.Json

/-- Decimal digits. -/
def isDigit (c : Char) : Bool := '0' ≤ c && c ≤ '9'

/-- Hex digits of either case. -/
def isHexDigit (c : Char) : Bool := (Hex.value? c).isSome

/-- The pieces of a string up to its closing quote, and the text after it. -/
def readBody : List Char → Option (List Piece × List Char)
  | '"' :: rest => some ([], rest)
  | '\\' :: 'u' :: a :: b :: c :: d :: rest =>
    if isHexDigit a && isHexDigit b && isHexDigit c && isHexDigit d then
      (readBody rest).map fun (pieces, tail) => (.unit a b c d :: pieces, tail)
    else none
  | '\\' :: letter :: rest =>
    if (unescape? letter).isSome then
      (readBody rest).map fun (pieces, tail) => (.short letter :: pieces, tail)
    else none
  | c :: rest =>
    if c = '\\' || c.toNat < 32 then none
    else (readBody rest).map fun (pieces, tail) => (.plain c :: pieces, tail)
  | [] => none

/-- At least one digit. -/
def readDigits (cs : List Char) : Option (List Char × List Char) :=
  match cs.takeWhile isDigit with
  | [] => none
  | digits => some (digits, cs.dropWhile isDigit)

/-- Digits of a whole number: no other digit follows a leading zero. -/
def readWhole : List Char → Option (List Char × List Char)
  | '0' :: rest =>
    match rest with
    | c :: _ => if isDigit c then none else some (['0'], rest)
    | [] => some (['0'], rest)
  | cs => readDigits cs

/-- The digits after a point, if there is a point. -/
def readFraction : List Char → Option (Option (List Char) × List Char)
  | '.' :: rest => (readDigits rest).map fun (digits, tail) => (some digits, tail)
  | cs => some (none, cs)

/-- A sign, if there is one. -/
def readSign : List Char → Option Char × List Char
  | '+' :: rest => (some '+', rest)
  | '-' :: rest => (some '-', rest)
  | cs => (none, cs)

/-- An exponent, if there is its mark. -/
def readExponent : List Char → Option (Option (Char × Option Char × List Char) × List Char)
  | c :: rest =>
    if c = 'e' || c = 'E' then
      let (sign, rest) := readSign rest
      (readDigits rest).map fun (digits, tail) => (some (c, sign, digits), tail)
    else some (none, c :: rest)
  | [] => some (none, [])

/-- A number without its sign. -/
def readUnsigned (negative : Bool) (cs : List Char) : Option (Numeral × List Char) := do
  let (whole, rest) ← readWhole cs
  let (fraction, rest) ← readFraction rest
  let (exponent, rest) ← readExponent rest
  return (⟨negative, whole, fraction, exponent⟩, rest)

/-- A number. -/
def readNumeral : List Char → Option (Numeral × List Char)
  | '-' :: rest => readUnsigned true rest
  | cs => readUnsigned false cs

/-- The blanks at the start of a text, and the text after them. -/
def readBlank (cs : List Char) : Blank × List Char :=
  (cs.takeWhile isBlank, cs.dropWhile isBlank)

mutual

/-- A value at the start of a text, and the text after it. Every two levels of `fuel` pay for at
least one character. -/
def readSource : Nat → List Char → Option (Source × List Char)
  | 0, _ => none
  | fuel + 1, cs =>
    match cs with
    | 'n' :: 'u' :: 'l' :: 'l' :: rest => some (.null, rest)
    | 't' :: 'r' :: 'u' :: 'e' :: rest => some (.bool true, rest)
    | 'f' :: 'a' :: 'l' :: 's' :: 'e' :: rest => some (.bool false, rest)
    | '"' :: rest => (readBody rest).map fun (body, tail) => (.string body, tail)
    | '[' :: rest =>
      match readBlank rest with
      | (inner, ']' :: tail) => some (.emptyArray inner, tail)
      | _ => (readItems fuel rest).map fun (items, tail) => (.array items, tail)
    | '\x7b' :: rest =>
      match readBlank rest with
      | (inner, '\x7d' :: tail) => some (.emptyObject inner, tail)
      | _ => (readEntries fuel rest).map fun (entries, tail) => (.object entries, tail)
    | _ => (readNumeral cs).map fun (n, tail) => (.number n, tail)

/-- A value with the blanks around it. -/
def readItem : Nat → List Char → Option (Item × List Char)
  | 0, _ => none
  | fuel + 1, cs => do
    let (before, rest) := readBlank cs
    let (value, rest) ← readSource fuel rest
    let (after, rest) := readBlank rest
    return (.mk before value after, rest)

/-- The items of an array up to its end. -/
def readItems : Nat → List Char → Option (List Item × List Char)
  | 0, _ => none
  | fuel + 1, cs => do
    let (item, rest) ← readItem fuel cs
    match rest with
    | ']' :: tail => return ([item], tail)
    | ',' :: tail =>
      let (items, tail) ← readItems fuel tail
      return (item :: items, tail)
    | _ => none

/-- The members of an object up to its end. -/
def readEntries : Nat → List Char → Option (List Entry × List Char)
  | 0, _ => none
  | fuel + 1, cs => do
    let (before, rest) := readBlank cs
    match rest with
    | '"' :: rest =>
      let (name, rest) ← readBody rest
      let (after, rest) := readBlank rest
      match rest with
      | ':' :: rest =>
        let (item, rest) ← readItem fuel rest
        let entry := Entry.mk before name after item
        match rest with
        | '\x7d' :: tail => return ([entry], tail)
        | ',' :: tail =>
          let (entries, tail) ← readEntries fuel tail
          return (entry :: entries, tail)
        | _ => none
      | _ => none
    | _ => none

end

/-- The concrete form of a text that is one value with blanks around it. -/
def Source.read? (text : String) : Option Source :=
  let cs := text.toList
  match readItem (3 * cs.length + 3) cs with
  | some (item, []) => some item.value
  | _ => none

/-- The value a text denotes. -/
def parse? (text : String) : Option Json :=
  (Source.read? text).bind (·.value? maxDepth)

end IstanbulMonitor.Json
