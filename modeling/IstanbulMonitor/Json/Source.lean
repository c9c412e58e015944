import IstanbulMonitor.Json.Value
import IstanbulMonitor.Bytes.Hex

/-!
# JSON source

A `Source` is the concrete form of a JSON text: it keeps every blank, every
spelling of a number and every escape, so `Source.chars` gives the text back
character for character. A source need not denote a value: `Source.value?`
refuses nesting that is too deep, numbers that no double can hold, and escapes
that pair up to no character. All member names are alike: the one name that the
program's reader keeps for itself, to hand on a raw text as an object, is taken
for an ordinary name here.
-/

set_option autoImplicit false

namespace IstanbulMonitor.Json

/-- A run of blanks. -/
abbrev Blank := List Char

/-- Blanks of JSON: space, tab, line feed and carriage return. -/
def isBlank (c : Char) : Bool :=
  c == ' ' || c == '\t' || c == '\n' || c == '\r'

/-- One element of a string's body: a character, an escape of one letter, or an escape of four
hex digits. -/
inductive Piece where
  | plain (c : Char)
  | short (letter : Char)
  | unit (a b c d : Char)
  deriving DecidableEq

/-- The parts of a number: sign, whole digits, digits after the point, and an exponent with its
mark and sign. -/
structure Numeral where
  negative : Bool
  whole : List Char
  fraction : Option (List Char)
  exponent : Option (Char × Option Char × List Char)
  deriving DecidableEq

mutual

/-- The concrete form of a value, without the blanks around it. -/
inductive Source where
  | null
  | bool (value : Bool)
  | number (numeral : Numeral)
  | string (body : List Piece)
  | emptyArray (inner : Blank)
  | array (items : List Item)
  | emptyObject (inner : Blank)
  | object (members : List Entry)

/-- A value with the blanks around it. -/
inductive Item where
  | mk (before : Blank) (value : Source) (after : Blank)

/-- A name and its value, with the blanks around both. -/
inductive Entry where
  | mk (before : Blank) (name : List Piece) (after : Blank) (item : Item)

end

namespace Item

/-- The value without its blanks. -/
def value : Item → Source
  | .mk _ value _ => value

end Item

/-- The characters of a piece. -/
def Piece.chars : Piece → List Char
  | .plain c => [c]
  | .short letter => ['\\', letter]
  | .unit a b c d => ['\\', 'u', a, b, c, d]

/-- The characters of a numeral. -/
def Numeral.chars (n : Numeral) : List Char :=
  (if n.negative then ['-'] else []) ++ n.whole ++
  (match n.fraction with
    | some digits => '.' :: digits
    | none => []) ++
  match n.exponent with
  | some (mark, sign, digits) => mark :: sign.toList ++ digits
  | none => []

/-- The characters of a string in quotes. -/
def quoted (body : List Piece) : List Char :=
  '"' :: body.flatMap Piece.chars ++ ['"']

mutual

/-- The characters of a source. -/
def Source.chars : Source → List Char
  | .null => ['n', 'u', 'l', 'l']
  | .bool true => ['t', 'r', 'u', 'e']
  | .bool false => ['f', 'a', 'l', 's', 'e']
  | .number n => n.chars
  | .string body => quoted body
  | .emptyArray inner => '[' :: inner ++ [']']
  | .array items => '[' :: itemsChars items
  | .emptyObject inner => '\x7b' :: inner ++ ['\x7d']
  | .object members => '\x7b' :: entriesChars members
termination_by structural s => s

/-- The characters of the items of an array, up to its end. -/
def itemsChars : List Item → List Char
  | [] => [']']
  | item :: [] => itemChars item ++ [']']
  | item :: items => itemChars item ++ ',' :: itemsChars items
termination_by structural items => items

/-- The characters of an item. -/
def itemChars : Item → List Char
  | .mk before value after => before ++ value.chars ++ after
termination_by structural item => item

/-- The characters of the members of an object, up to its end. -/
def entriesChars : List Entry → List Char
  | [] => ['\x7d']
  | entry :: [] => entryChars entry ++ ['\x7d']
  | entry :: entries => entryChars entry ++ ',' :: entriesChars entries
termination_by structural entries => entries

/-- The characters of a member. -/
def entryChars : Entry → List Char
  | .mk before name after item => before ++ quoted name ++ after ++ ':' :: itemChars item
termination_by structural entry => entry

end

/-- The text of a source. -/
def Source.text (s : Source) : String := String.ofList s.chars

/-- The character that an escape of one letter stands for. -/
def unescape? : Char → Option Char
  | '"' => some '"'
  | '\\' => some '\\'
  | '/' => some '/'
  | 'b' => some '\x08'
  | 'f' => some '\x0c'
  | 'n' => some '\n'
  | 'r' => some '\r'
  | 't' => some '\t'
  | _ => none

/-- The 16-bit unit of four hex digits. -/
def unit? (a b c d : Char) : Option Nat := do
  return ((← Hex.value? a) * 16 + (← Hex.value? b)) * 256 + (← Hex.value? c) * 16 + (← Hex.value? d)

/-- The characters of a string's body. Units of four hex digits that are halves of a character
have to come in pairs, the upper half first. -/
def decodeBody : List Piece → Option (List Char)
  | [] => some []
  | .plain c :: rest => do return c :: (← decodeBody rest)
  | .short letter :: rest => do return (← unescape? letter) :: (← decodeBody rest)
  | .unit a b c d :: .unit e f g h :: rest => do
    let first ← unit? a b c d
    let second ← unit? e f g h
    if 0xd800 ≤ first ∧ first < 0xdc00 then
      if 0xdc00 ≤ second ∧ second < 0xe000 then
        let code := 0x10000 + (first - 0xd800) * 0x400 + (second - 0xdc00)
        return Char.ofNat code :: (← decodeBody rest)
      else none
    else if 0xdc00 ≤ first ∧ first < 0xe000 then none
    else return Char.ofNat first :: (← decodeBody (.unit e f g h :: rest))
  | .unit a b c d :: rest => do
    let unit ← unit? a b c d
    if 0xd800 ≤ unit ∧ unit < 0xe000 then none
    else return Char.ofNat unit :: (← decodeBody rest)

/-- The value of a digit. -/
def digitValue (c : Char) : Nat := c.toNat - 48

/-- A significand taken from digits while it fits 64 bits, and the digits that no longer do. -/
def takeDigits : Nat → List Char → Nat × List Char
  | acc, [] => (acc, [])
  | acc, c :: cs =>
    if acc * 10 + digitValue c < UInt64.size then takeDigits (acc * 10 + digitValue c) cs
    else (acc, c :: cs)

/-- The number that digits denote. -/
def digitsValue (digits : List Char) : Nat :=
  digits.foldl (fun acc c => 10 * acc + digitValue c) 0

/-- The exponent of ten written in a numeral. -/
def Numeral.written (n : Numeral) : Int :=
  match n.exponent with
  | none => 0
  | some (_, sign, digits) =>
    if sign = some '-' then -(digitsValue digits : Int) else digitsValue digits

/-- The double a numeral denotes. Digits that the significand has no room for only count towards
the exponent if they stand before the point. -/
def Numeral.double? (n : Numeral) : Option Binary64 :=
  let (whole, dropped) := takeDigits 0 n.whole
  let fraction := n.fraction.getD []
  let (significand, rest) := takeDigits whole fraction
  let exponent : Int := dropped.length - (fraction.length - rest.length : Nat) + n.written
  (Binary64.scale significand exponent).map fun x => if n.negative then x.negated else x

/-- The number a numeral denotes: an integer of 64 bits if it is written as one and is not
negative zero, else a double. -/
def Numeral.number? (n : Numeral) : Option Number :=
  let (whole, dropped) := takeDigits 0 n.whole
  if n.fraction.isNone && n.exponent.isNone && dropped.isEmpty then
    if !n.negative then some (.int whole)
    else if 0 < whole ∧ whole ≤ 0x8000000000000000 then some (.int (-whole))
    else n.double?.map .float
  else n.double?.map .float

mutual

/-- The value a source denotes, for at most `depth` levels of arrays and objects. -/
def Source.value? (depth : Nat) : Source → Option Json
  | .null => some .null
  | .bool b => some (.bool b)
  | .number n => n.number?.map .number
  | .string body => (decodeBody body).map fun cs => .string (String.ofList cs)
  | .emptyArray _ => if depth = 0 then none else some (.array [])
  | .array items => if depth = 0 then none else (itemsValues? (depth - 1) items).map .array
  | .emptyObject _ => if depth = 0 then none else some (.object [])
  | .object entries =>
    if depth = 0 then none else (entriesValues? (depth - 1) entries).map ofMembers
termination_by structural s => s

/-- The values of the items of an array. -/
def itemsValues? (depth : Nat) : List Item → Option (List Json)
  | [] => some []
  | item :: items => do return (← itemValue? depth item) :: (← itemsValues? depth items)
termination_by structural items => items

/-- The value of an item. -/
def itemValue? (depth : Nat) : Item → Option Json
  | .mk _ value _ => value.value? depth
termination_by structural item => item

/-- The members of an object, in the order of the text. -/
def entriesValues? (depth : Nat) : List Entry → Option (List (String × Json))
  | [] => some []
  | entry :: entries => do return (← entryValue? depth entry) :: (← entriesValues? depth entries)
termination_by structural entries => entries

/-- A member of an object. -/
def entryValue? (depth : Nat) : Entry → Option (String × Json)
  | .mk _ name _ item => do
    let cs ← decodeBody name
    return (String.ofList cs, ← itemValue? depth item)
termination_by structural entry => entry

end

/-- Levels of arrays and objects that a value may have. -/
def maxDepth : Nat := 127

end IstanbulMonitor.Json
