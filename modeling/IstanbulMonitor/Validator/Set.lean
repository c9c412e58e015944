import IstanbulMonitor.Chain.Address
import IstanbulMonitor.Monitor.Error

/-!
# The validator set

The active validators stand in the order of their checksum texts, each once, and
a table that is made from this list tells the place of each of them. Proposers
take turns in the order of the list: `ValidatorSet.nextAfter` looks up the place
of a member and is the one that stands after it; the first follows the last.
-/

set_option autoImplicit false

namespace IstanbulMonitor

/-- The active validators in canonical order, and the table of their places. -/
structure ValidatorSet where
  members : List Address
  places : List (Address × Nat)
  deriving DecidableEq

namespace ValidatorSet

/-- An address put in its place among addresses that are listed with their checksum texts. -/
def place (key : String) (a : Address) : List (String × Address) → List (String × Address)
  | [] => [(key, a)]
  | (other, b) :: rest =>
    if key < other then (key, a) :: (other, b) :: rest
    else if a = b then (other, b) :: rest
    else (other, b) :: place key a rest

/-- A table of places with the place of an address entered. It replaces an earlier one. -/
def enter (a : Address) (i : Nat) : List (Address × Nat) → List (Address × Nat)
  | [] => [(a, i)]
  | (b, j) :: rest => if b = a then (a, i) :: rest else (b, j) :: enter a i rest

/-- The set of members that are listed in their order. -/
def ofMembers (members : List Address) : ValidatorSet :=
  ⟨members, members.zipIdx.foldl (fun places (a, i) => enter a i places) []⟩

/-- The set of the given addresses. -/
def ofList (addresses : List Address) : ValidatorSet :=
  .ofMembers ((addresses.foldr (fun a acc => place a.checksum a acc) []).map (·.2))

/-- Whether an address is in the table. -/
def contains (set : ValidatorSet) (a : Address) : Bool := set.places.any (·.1 = a)

/-- The place of an address in the table, counted from zero. -/
def position? (set : ValidatorSet) (a : Address) : Option Nat :=
  (set.places.find? (·.1 = a)).map (·.2)

/-- The member whose turn comes after `a`. -/
def nextAfter (set : ValidatorSet) (a : Address) : Except MonitorError Address :=
  match set.members with
  | [] => .error .emptyValidatorSet
  | first :: _ =>
    match set.position? a with
    | none => .error (.unknownProposer a)
    | some i => .ok (set.members.getD ((i + 1) % set.members.length) first)

end ValidatorSet

end IstanbulMonitor
