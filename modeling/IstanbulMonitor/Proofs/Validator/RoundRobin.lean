import IstanbulMonitor.Proofs.Validator.CanonicalOrder
import Mathlib.GroupTheory.Perm.Cycle.Concrete

/-!
# Taking turns

The successor of a member is the member that follows it in the order of the checksum texts, and the
first member follows the last. As a map on the members it is the cyclic permutation of their list,
so that from every member the turns go through all members once and come back after as many turns
as there are members (`ValidatorSet.takesTurns_ofList`).
-/

set_option autoImplicit false

namespace IstanbulMonitor

namespace ValidatorSet

/-- The member whose turn comes `k` turns after `a`. -/
def afterTurns (set : ValidatorSet) (a : Address) : Nat → Except MonitorError Address
  | 0 => .ok a
  | k + 1 => (set.afterTurns a k).bind set.nextAfter

/-- `b` has its turn after `a` when the given addresses take turns in the order of their checksum
texts. -/
inductive Succeeds (addresses : List Address) (a b : Address) : Prop
  /-- No text lies between those of `a` and `b`. -/
  | next (current : a ∈ addresses) (following : b ∈ addresses)
      (above : a.checksumBytes < b.checksumBytes)
      (least : ∀ c ∈ addresses, a.checksumBytes < c.checksumBytes →
        ¬ c.checksumBytes < b.checksumBytes)
  /-- `a` is the last address and `b` the first. -/
  | wrap (current : a ∈ addresses) (following : b ∈ addresses)
      (last : ∀ c ∈ addresses, ¬ a.checksumBytes < c.checksumBytes)
      (first : ∀ c ∈ addresses, ¬ c.checksumBytes < b.checksumBytes)

/-- What taking turns in a set owes to the addresses that were given. -/
structure TakesTurns (set : ValidatorSet) (addresses : List Address) : Prop where
  /-- There are as many members as there are different addresses. -/
  size : set.members.length = addresses.toFinset.card
  /-- The successor of an address is the one that follows it in the order of the texts. -/
  succeeds : ∀ a b, set.nextAfter a = .ok b ↔ Succeeds addresses a b
  /-- However many turns after a member, a member has its turn. -/
  continues : ∀ a ∈ addresses, ∀ k, ∃ b ∈ addresses, set.afterTurns a k = .ok b
  /-- In as many turns as there are members, each member has its turn once. -/
  visits : ∀ a ∈ addresses, ∀ b ∈ addresses,
    ∃! k, k < set.members.length ∧ set.afterTurns a k = .ok b
  /-- The turn is back at a member after as many turns as there are members, and not before. -/
  returns : ∀ a ∈ addresses, ∀ k, set.afterTurns a k = .ok a ↔ set.members.length ∣ k
  /-- The successor is a permutation of the members with a single cycle. -/
  cycle : ∃ turn : Equiv.Perm Address, (∀ a ∈ addresses, set.nextAfter a = .ok (turn a)) ∧
    turn.IsCycleOn {a | a ∈ addresses}
  /-- An address outside a set that is not empty is reported as an unknown proposer. -/
  outside : addresses ≠ [] → ∀ a, a ∉ addresses → set.nextAfter a = .error (.unknownProposer a)
  /-- In the empty set nobody has a turn. -/
  empty : addresses = [] → ∀ a, set.nextAfter a = .error .emptyValidatorSet

/-! ## The order of the texts -/

theorem eq_of_not_lt {a b : Address} (hab : ¬ a.checksumBytes < b.checksumBytes)
    (hba : ¬ b.checksumBytes < a.checksumBytes) : a = b := by
  rw [Address.checksumBytes_lt_iff, not_lt] at hab hba
  exact Address.checksum_injective (le_antisymm hba hab)

/-- An address has one successor at most. -/
theorem Succeeds.unique {addresses : List Address} {a b c : Address}
    (hb : Succeeds addresses a b) (hc : Succeeds addresses a c) : b = c := by
  cases hb with
  | next _ memb aboveb leastb =>
    cases hc with
    | next _ memc abovec leastc =>
      exact eq_of_not_lt (leastc b memb aboveb) (leastb c memc abovec)
    | wrap _ _ last _ => exact absurd aboveb (last b memb)
  | wrap _ memb last firstb =>
    cases hc with
    | next _ memc abovec _ => exact absurd abovec (last c memc)
    | wrap _ memc _ firstc => exact eq_of_not_lt (firstc b memb) (firstb c memc)

/-- The texts stand in the order of the places. -/
theorem Ascending.checksumBytes_lt_iff {members : List Address} (h : Ascending members)
    {i j : Nat} (hi : i < members.length) (hj : j < members.length) :
    members[i].checksumBytes < members[j].checksumBytes ↔ i < j := by
  have mono := List.pairwise_iff_getElem.mp h
  rw [Address.checksumBytes_lt_iff]
  refine ⟨fun hlt => ?_, mono i j hi hj⟩
  rcases lt_trichotomy i j with hij | rfl | hji
  · exact hij
  · exact absurd hlt (lt_irrefl _)
  · exact absurd hlt (lt_asymm (mono j i hj hi hji))

/-- The address at the next place has the next turn, and the one at the first place after the
last. -/
theorem Ascending.succeeds {members : List Address} (h : Ascending members) {i : Nat}
    (hi : i < members.length) (hj : (i + 1) % members.length < members.length) :
    Succeeds members members[i] members[(i + 1) % members.length] := by
  rcases Nat.lt_or_ge (i + 1) members.length with hnext | hlast
  · simp only [Nat.mod_eq_of_lt hnext]
    refine .next (List.getElem_mem hi) (List.getElem_mem hnext)
      ((h.checksumBytes_lt_iff hi hnext).mpr (Nat.lt_succ_self i)) fun c hc hac hcb => ?_
    obtain ⟨j, hj, rfl⟩ := List.getElem_of_mem hc
    rw [h.checksumBytes_lt_iff] at hac hcb
    omega
  · have hend : i + 1 = members.length := by omega
    simp only [hend, Nat.mod_self]
    refine .wrap (List.getElem_mem hi) (List.getElem_mem _) (fun c hc hac => ?_) fun c hc hcb => ?_
    · obtain ⟨j, hj, rfl⟩ := List.getElem_of_mem hc
      rw [h.checksumBytes_lt_iff] at hac
      omega
    · obtain ⟨j, hj, rfl⟩ := List.getElem_of_mem hc
      rw [h.checksumBytes_lt_iff] at hcb
      exact absurd hcb (Nat.not_lt_zero j)

theorem Succeeds.of_same {addresses others : List Address} {a b : Address}
    (same : ∀ c, c ∈ addresses ↔ c ∈ others) (h : Succeeds addresses a b) :
    Succeeds others a b := by
  cases h with
  | next memA memB above least =>
    exact .next ((same a).mp memA) ((same b).mp memB) above fun c hc => least c ((same c).mpr hc)
  | wrap memA memB last first =>
    exact .wrap ((same a).mp memA) ((same b).mp memB) (fun c hc => last c ((same c).mpr hc))
      fun c hc => first c ((same c).mpr hc)

/-! ## One turn -/

theorem nextAfter_of_members_eq_nil {set : ValidatorSet} (h : set.members = []) (a : Address) :
    set.nextAfter a = .error .emptyValidatorSet := by
  rw [nextAfter, h]

section indexed

variable {set : ValidatorSet} (indexed : set.Indexed) {a b : Address}
include indexed

theorem nextAfter_of_not_mem (h : set.members ≠ []) (ha : a ∉ set.members) :
    set.nextAfter a = .error (.unknownProposer a) := by
  rw [nextAfter, indexed.position?_eq_none ha]
  cases hm : set.members with
  | nil => exact absurd hm h
  | cons first rest => rfl

/-- The successor is the member at the next place, where the first place follows the last. -/
theorem nextAfter_getElem {i : Nat} (hi : i < set.members.length) (hj : (i + 1) % set.members.length < set.members.length) :
    set.nextAfter set.members[i] = .ok set.members[(i + 1) % set.members.length] := by
  have hplace : set.position? set.members[i] = some i :=
    indexed.position?_eq_some_iff.mpr (List.getElem?_eq_getElem hi)
  rw [nextAfter, hplace]
  split
  · next hm => simp [hm] at hi
  · exact congrArg Except.ok (List.getElem_eq_getD _).symm

/-- On the members, the successor is the cyclic permutation of their list. -/
theorem nextAfter_eq_formPerm (ha : a ∈ set.members) :
    set.nextAfter a = .ok (set.members.formPerm a) := by
  obtain ⟨i, hi, rfl⟩ := List.getElem_of_mem ha
  rw [nextAfter_getElem indexed hi (Nat.mod_lt _ (Nat.zero_lt_of_lt hi)),
    List.formPerm_apply_getElem _ indexed.nodup i hi]

/-- Exactly the members have a successor, the one that follows in the order of the texts. -/
theorem nextAfter_eq_ok_iff (ascending : Ascending set.members) :
    set.nextAfter a = .ok b ↔ Succeeds set.members a b := by
  have follows : a ∈ set.members → ∃ c, set.nextAfter a = .ok c ∧ Succeeds set.members a c := by
    intro ha
    obtain ⟨i, hi, rfl⟩ := List.getElem_of_mem ha
    have hj : (i + 1) % set.members.length < set.members.length :=
      Nat.mod_lt _ (Nat.zero_lt_of_lt hi)
    exact ⟨_, nextAfter_getElem indexed hi hj, ascending.succeeds hi hj⟩
  constructor
  · intro hb
    by_cases ha : a ∈ set.members
    · obtain ⟨c, hc, succeeds⟩ := follows ha
      cases hc.symm.trans hb
      exact succeeds
    · -- an address that is no member gets an error, whether there are members or not
      by_cases hm : set.members = []
      · cases (nextAfter_of_members_eq_nil hm a).symm.trans hb
      · cases (nextAfter_of_not_mem indexed hm ha).symm.trans hb
  · intro hb
    have ha : a ∈ set.members := by
      cases hb with
      | next memA => exact memA
      | wrap memA => exact memA
    obtain ⟨c, hc, succeeds⟩ := follows ha
    rw [hc, succeeds.unique hb]

/-! ## Many turns -/

/-- Taking turns is the iteration of the cyclic permutation of the members. -/
theorem afterTurns_eq_formPerm (ha : a ∈ set.members) (k : Nat) :
    (set.members.formPerm ^ k) a ∈ set.members ∧
      set.afterTurns a k = .ok ((set.members.formPerm ^ k) a) := by
  induction k with
  | zero => exact ⟨ha, rfl⟩
  | succ k ih =>
    obtain ⟨mem, turns⟩ := ih
    rw [pow_succ', Equiv.Perm.mul_apply]
    refine ⟨List.formPerm_apply_mem_of_mem mem, ?_⟩
    rw [afterTurns, turns]
    exact nextAfter_eq_formPerm indexed mem

/-- The cyclic permutation of the members, on the finite set of them. -/
theorem isCycleOn_members :
    set.members.formPerm.IsCycleOn (set.members.toFinset : Set Address) := by
  rw [List.coe_toFinset]
  exact indexed.nodup.isCycleOn_formPerm

/-- The turn is back at a member after the multiples of the number of members. -/
theorem afterTurns_eq_self_iff (ha : a ∈ set.members) (k : Nat) :
    set.afterTurns a k = .ok a ↔ set.members.length ∣ k := by
  obtain ⟨-, turns⟩ := afterTurns_eq_formPerm indexed ha k
  rw [turns, Except.ok.injEq,
    (isCycleOn_members indexed).pow_apply_eq (List.mem_toFinset.mpr ha),
    List.toFinset_card_of_nodup indexed.nodup]

/-- Each member has its turn once in a round. -/
theorem existsUnique_afterTurns (ha : a ∈ set.members) (hb : b ∈ set.members) :
    ∃! k, k < set.members.length ∧ set.afterTurns a k = .ok b := by
  have cycle := isCycleOn_members indexed
  have mema := List.mem_toFinset.mpr ha
  obtain ⟨k, hk, reached⟩ := cycle.exists_pow_eq mema (List.mem_toFinset.mpr hb)
  rw [List.toFinset_card_of_nodup indexed.nodup] at hk
  refine ⟨k, ⟨hk, ?_⟩, ?_⟩
  · rw [(afterTurns_eq_formPerm indexed ha k).2, reached]
  · rintro j ⟨hj, there⟩
    rw [(afterTurns_eq_formPerm indexed ha j).2, Except.ok.injEq, ← reached,
      cycle.pow_apply_eq_pow_apply mema, List.toFinset_card_of_nodup indexed.nodup] at there
    exact Nat.ModEq.eq_of_lt_of_lt there hj hk

end indexed

/-! ## The main theorem -/

/-- The successor in the set of some addresses follows in the order of their texts. -/
theorem nextAfter_ofList_eq_ok_iff {addresses : List Address} {a b : Address} :
    (ofList addresses).nextAfter a = .ok b ↔ Succeeds addresses a b := by
  have same : ∀ c, c ∈ (ofList addresses).members ↔ c ∈ addresses := fun _ => mem_members_ofList
  rw [nextAfter_eq_ok_iff (indexed_ofList addresses) (ascending_ofList addresses)]
  exact ⟨.of_same same, .of_same fun c => (same c).symm⟩

/-- **Taking turns.** For every list of addresses, the members of their set take turns in the order
of the checksum texts, the first after the last: from each of them the turns visit every member once
and are back after as many turns as there are members. An address outside the set is an unknown
proposer, and an empty set is reported as such. -/
theorem takesTurns_ofList (addresses : List Address) :
    (ofList addresses).TakesTurns addresses := by
  have indexed := indexed_ofList addresses
  have same : ∀ a, a ∈ (ofList addresses).members ↔ a ∈ addresses := fun _ => mem_members_ofList
  refine
    { size := ?size, succeeds := fun _ _ => nextAfter_ofList_eq_ok_iff,
      continues := fun a ha k => ?continues, visits := fun a ha b hb => ?visits,
      returns := fun a ha k => ?returns, cycle := ?cycle,
      outside := fun hne a ha => ?outside, empty := fun hnil a => ?empty }
  case size =>
    rw [← List.toFinset_card_of_nodup indexed.nodup]
    congr 1
    ext a
    rw [List.mem_toFinset, List.mem_toFinset, same]
  case continues =>
    obtain ⟨mem, turns⟩ := afterTurns_eq_formPerm indexed ((same a).mpr ha) k
    exact ⟨_, (same _).mp mem, turns⟩
  case visits => exact existsUnique_afterTurns indexed ((same a).mpr ha) ((same b).mpr hb)
  case returns => exact afterTurns_eq_self_iff indexed ((same a).mpr ha) k
  case cycle =>
    refine ⟨(ofList addresses).members.formPerm,
      fun a ha => nextAfter_eq_formPerm indexed ((same a).mpr ha), ?_⟩
    simpa only [same] using indexed.nodup.isCycleOn_formPerm
  case outside =>
    obtain ⟨b, hb⟩ := List.exists_mem_of_ne_nil addresses hne
    exact nextAfter_of_not_mem indexed (List.ne_nil_of_mem ((same b).mpr hb))
      fun h => ha ((same a).mp h)
  case empty =>
    refine nextAfter_of_members_eq_nil (List.eq_nil_iff_forall_not_mem.mpr fun b hb => ?_) a
    rw [same, hnil] at hb
    cases hb

end ValidatorSet

end IstanbulMonitor
