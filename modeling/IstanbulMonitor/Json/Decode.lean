import IstanbulMonitor.Json.Source

/-!
# Records in JSON

A record is written as an object, and is read from an object or from an array
of its fields in order. `Json.fields` finds the fields and judges their values,
in the order of the names of an object or in the order of an array; only then
does a missing field count. `Source.record?` does the same for a text that is
read in one pass, where no field may occur twice and the value of an unknown
member is skipped without being read.
-/

set_option autoImplicit false

namespace IstanbulMonitor

/-- Why a value is not of the wanted form. -/
inductive Mismatch where
  | missingField (name : String)
  | text (reason : String)
  | shape
  deriving DecidableEq

/-- The text of a mismatch. A value of another shape has no text of its own. -/
def Mismatch.message? : Mismatch → Option String
  | .missingField name => some s!"missing field `{name}`"
  | .text reason => some reason
  | .shape => none

namespace Json

/-- Reads a value of type `α`. -/
abbrev Decoder (α : Type) := Json → Except Mismatch α

/-- A field of a record and what is wrong with a value for it. -/
structure Rule where
  name : String
  fault? : Json → Option Mismatch

/-- The rule of a field that is read by a decoder. -/
def Rule.of {α : Type} (name : String) (read : Decoder α) : Rule where
  name := name
  fault? value :=
    match read value with
    | .ok _ => none
    | .error m => some m

/-- The fields found in a record, and what it means that one is missing. -/
structure Fields where
  members : List (String × Json)
  absent : String → Mismatch

/-- The first fault among members, by the rule of each one's name. -/
def firstFault (rules : List Rule) : List (String × Json) → Option Mismatch
  | [] => none
  | (name, value) :: rest =>
    match (rules.find? (·.name = name)).bind (·.fault? value) with
    | some m => some m
    | none => firstFault rules rest

/-- The fields of a record, once no value among them is at fault. -/
def fields (rules : List Rule) : Decoder Fields
  | .object members =>
    match firstFault rules members with
    | some m => .error m
    | none => .ok ⟨members, .missingField⟩
  | .array elements =>
    let members := (rules.map (·.name)).zip elements
    match firstFault rules members with
    | some m => .error m
    | none =>
      if rules.length < elements.length then .error .shape
      else .ok ⟨members, fun _ => .shape⟩
  | _ => .error .shape

namespace Fields

variable {α : Type}

/-- A field that has to be there. -/
def required (f : Fields) (name : String) (read : Decoder α) : Except Mismatch α :=
  match lookup name f.members with
  | some value => read value
  | none => .error (f.absent name)

/-- A field with a value to fall back on. -/
def withDefault (f : Fields) (name : String) (read : Decoder α) (fallback : α) :
    Except Mismatch α :=
  match lookup name f.members with
  | some value => read value
  | none => .ok fallback

end Fields

/-- A record of one field is read as its value is. -/
theorem required_fields_single {α : Type} (name : String) {read : Decoder α} {value : Json} {a : α}
    (h : read value = .ok a) :
    (do
      let f ← fields [.of name read] (.ofMembers [(name, value)])
      f.required name read) = .ok a := by
  have hmembers : ofMembers [(name, value)] = .object [(name, value)] := rfl
  simp [hmembers, fields, firstFault, Rule.of, h, Fields.required, lookup, bind, Except.bind]

/-- An optional value: null stands for its absence. -/
def optional {α : Type} (read : Decoder α) : Decoder (Option α)
  | .null => .ok none
  | value => (read value).map some

/-- A string. -/
def readString : Decoder String
  | .string s => .ok s
  | _ => .error .shape

/-- A truth value. -/
def readBool : Decoder Bool
  | .bool b => .ok b
  | _ => .error .shape

/-- An integer between two bounds, both included. -/
def readInt (low high : Int) : Decoder Int
  | .number (.int n) => if low ≤ n ∧ n ≤ high then .ok n else .error .shape
  | _ => .error .shape

/-- Any value. -/
def readAny : Decoder Json := .ok

/-- An array of values of one kind. -/
def readArray {α : Type} (read : Decoder α) : Decoder (List α)
  | .array elements => elements.mapM read
  | _ => .error .shape

/-- The name and the item of a member. -/
def Entry.parts? : Entry → Option (String × Source)
  | .mk _ name _ item => (decodeBody name).map fun cs => (String.ofList cs, item.value)

/-- The members of an object in source form that have one of the given names. Every name is
read, and none of the given ones may occur twice. -/
def knownMembers? (names : List String) : List Entry → Option (List (String × Source))
  | [] => some []
  | entry :: entries => do
    let (name, value) ← entry.parts?
    let rest ← knownMembers? names entries
    if name ∈ names then
      if rest.any (·.1 = name) then none else some ((name, value) :: rest)
    else some rest

/-- The fields of a record in source form, from an object or from an array in order. -/
def Source.fields? (names : List String) : Source → Option (List (String × Source))
  | .emptyObject _ => some []
  | .object entries => knownMembers? names entries
  | .emptyArray _ => some []
  | .array items =>
    if names.length < items.length then none else some (names.zip (items.map Item.value))
  | _ => none

/-- The value of a record that is read in one pass, without its unknown members. -/
def Source.record? (depth : Nat) (names : List String) (source : Source) : Option Json :=
  match source with
  | .emptyArray _ => if depth = 0 then none else some (.array [])
  | .array _ => source.value? depth
  | _ => do
    if depth = 0 then none
    else
      let members ← source.fields? names
      let values ← members.mapM fun (name, value) => (value.value? (depth - 1)).map (name, ·)
      return ofMembers values

end Json

end IstanbulMonitor
