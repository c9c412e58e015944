import IstanbulMonitor.Json.Value
import IstanbulMonitor.Number.Shortest
import IstanbulMonitor.Bytes.Hex

/-!
# JSON text of a value

`Json.render` writes a value without blanks. In a string, the quote, the
backslash and the control characters are escaped and everything else stands for
itself.
-/

set_option autoImplicit false

namespace IstanbulMonitor.Json

/-- A character inside a string. -/
def escape (c : Char) : List Char :=
  if c = '"' then ['\\', '"']
  else if c = '\\' then ['\\', '\\']
  else if c = '\x08' then ['\\', 'b']
  else if c = '\t' then ['\\', 't']
  else if c = '\n' then ['\\', 'n']
  else if c = '\x0c' then ['\\', 'f']
  else if c = '\r' then ['\\', 'r']
  else if c.toNat < 32 then
    ['\\', 'u', '0', '0', Hex.digit (c.toNat / 16), Hex.digit (c.toNat % 16)]
  else [c]

/-- A string in quotes. -/
def quote (text : String) : List Char :=
  '"' :: text.toList.flatMap escape ++ ['"']

/-- The decimal digits of an integer, after a minus sign if it is negative. -/
def integerChars (n : Int) : List Char :=
  if n < 0 then '-' :: Nat.toDigits 10 n.natAbs else Nat.toDigits 10 n.natAbs

/-- The text of a number. -/
def Number.chars : Number → List Char
  | .int n => integerChars n
  | .float x => x.text.toList

/-- The text of a number. -/
def Number.render (n : Number) : String := String.ofList n.chars

mutual

/-- The characters of a value. -/
def chars : Json → List Char
  | .null => ['n', 'u', 'l', 'l']
  | .bool true => ['t', 'r', 'u', 'e']
  | .bool false => ['f', 'a', 'l', 's', 'e']
  | .number n => n.chars
  | .string s => quote s
  | .array [] => ['[', ']']
  | .array (e :: es) => '[' :: chars e ++ tailChars es
  | .object [] => ['\x7b', '\x7d']
  | .object (m :: ms) => '\x7b' :: memberChars m ++ membersChars ms
termination_by structural j => j

/-- The characters after the first element of an array. -/
def tailChars : List Json → List Char
  | [] => [']']
  | e :: es => ',' :: chars e ++ tailChars es
termination_by structural es => es

/-- The characters after the first member of an object. -/
def membersChars : List (String × Json) → List Char
  | [] => ['\x7d']
  | m :: ms => ',' :: memberChars m ++ membersChars ms
termination_by structural ms => ms

/-- A name and its value. -/
def memberChars : String × Json → List Char
  | (name, value) => quote name ++ ':' :: chars value
termination_by structural m => m

end

/-- The text of a value. -/
def render (value : Json) : String := String.ofList value.chars

end IstanbulMonitor.Json
