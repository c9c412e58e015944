import IstanbulMonitor.Number.Binary64

/-!
# JSON values

Numbers are integers of 64 bits, signed or unsigned, or doubles. The members
of an object are kept in the order of their names, each name once; `insert`
keeps that order and replaces the value of a name that is already there.
-/

set_option autoImplicit false

namespace IstanbulMonitor

namespace Json

/-- A number: an integer that fits 64 bits, or a double. -/
inductive Number where
  | int (value : Int)
  | float (value : Binary64)
  deriving DecidableEq

end Json

/-- A JSON value. -/
inductive Json where
  | null
  | bool (value : Bool)
  | number (value : Json.Number)
  | string (text : String)
  | array (elements : List Json)
  | object (members : List (String × Json))

namespace Json

instance : Inhabited Json := ⟨.null⟩

/-- The members with `name` set to `value`. -/
def insert (name : String) (value : Json) : List (String × Json) → List (String × Json)
  | [] => [(name, value)]
  | (other, old) :: rest =>
    if name < other then (name, value) :: (other, old) :: rest
    else if name = other then (name, value) :: rest
    else (other, old) :: insert name value rest

/-- The object with the given members; of two with one name the later counts. -/
def ofMembers (members : List (String × Json)) : Json :=
  .object (members.foldl (fun acc m => insert m.1 m.2 acc) [])

/-- The value of a name. -/
def lookup (name : String) : List (String × Json) → Option Json
  | [] => none
  | (other, value) :: rest => if name = other then some value else lookup name rest

/-- The member of an object. -/
def get? (name : String) : Json → Option Json
  | .object members => lookup name members
  | _ => none

/-- A natural number as a value. -/
def nat (n : Nat) : Json := .number (.int n)

/-- A word as a value. -/
def word (n : UInt64) : Json := nat n.toNat

/-- The unsigned 64-bit integer a value holds. -/
def word? : Json → Option UInt64
  | .number (.int n) => if 0 ≤ n ∧ n < UInt64.size then some (UInt64.ofNat n.toNat) else none
  | _ => none

@[simp] theorem word?_word (n : UInt64) : (word n).word? = some n := by
  have hlt : (n.toNat : Int) < UInt64.size := Int.ofNat_lt.mpr n.toNat_lt
  simp only [word, nat, word?, Int.natCast_nonneg, hlt, and_self, if_true, Int.toNat_natCast,
    UInt64.ofNat_toNat]

/-- The value, or null in its absence. -/
def ofOption : Option Json → Json
  | some value => value
  | none => .null

/-- The text of a string. -/
def string? : Json → Option String
  | .string text => some text
  | _ => none

/-- The members of an object; none of any other value. -/
def members : Json → List (String × Json)
  | .object members => members
  | _ => []

end Json

end IstanbulMonitor
