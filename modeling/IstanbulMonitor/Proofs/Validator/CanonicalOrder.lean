import IstanbulMonitor.Proofs.Chain.Checksum
import IstanbulMonitor.Validator.Set
import Mathlib.Data.List.Destutter

/-!
# The canonical order of validators

A validator set lists its addresses in the strict order of their checksum texts. Since the texts of
different addresses differ, this order determines the list: it depends on which addresses were
given, and not on their order or their repetitions. As no address is listed twice, the table of
places that is filled from the list agrees with it (`ValidatorSet.Indexed`), and so do the places
and the test for membership that are looked up there. `ValidatorSet.canonical_ofList` states it
together with the way the set is made: the addresses are sorted by their texts, adjacent repetitions
are left out, and the table is filled from what remains.
-/

set_option autoImplicit false

namespace IstanbulMonitor

namespace ValidatorSet

/-- Addresses in the strict order of their checksum texts. -/
def Ascending (addresses : List Address) : Prop :=
  addresses.Pairwise fun a b => a.checksum < b.checksum

/-- Addresses sorted by their texts, without adjacent repetitions. -/
def sortedByText (addresses : List Address) : List Address :=
  (addresses.mergeSort fun a b => decide (a.mixedCase ≤ b.mixedCase)).destutter (· ≠ ·)

/-- What a set in canonical order owes to the addresses that were given. -/
structure Canonical (set : ValidatorSet) (addresses : List Address) : Prop where
  /-- The members stand in the strict byte order of their checksum texts. -/
  ascending : set.members.Pairwise fun a b => a.checksumBytes < b.checksumBytes
  /-- Each address that was given is a member once, and no other is a member. -/
  once : ∀ a, set.members.count a = if a ∈ addresses then 1 else 0
  /-- The table has an entry for each member, with its place, and no other entry. -/
  table : set.places = set.members.zipIdx
  /-- The place of an address is where it stands among the members. -/
  place : ∀ a i, set.position? a = some i ↔ set.members[i]? = some a
  /-- The set contains the addresses that were given. -/
  contains : ∀ a, set.contains a = true ↔ a ∈ addresses
  /-- Two lists give one set exactly if they hold the same addresses, in whatever order and however
  often. -/
  same : ∀ others, ofList others = set ↔ ∀ a, a ∈ others ↔ a ∈ addresses
  /-- Sorting the addresses and leaving out adjacent repetitions gives the members, and the table is
  filled from them. -/
  sorted : set = ofMembers (sortedByText addresses)

/-! ## Lists in strict order -/

theorem Ascending.nodup {addresses : List Address} (h : Ascending addresses) :
    addresses.Nodup :=
  h.imp fun hlt heq => hlt.ne (congrArg Address.checksum heq)

/-- The members determine a list in strict order. -/
theorem Ascending.eq_of_mem_iff {as bs : List Address} (has : Ascending as) (hbs : Ascending bs)
    (same : ∀ a, a ∈ as ↔ a ∈ bs) : as = bs := by
  have perm : as.Perm bs := (List.perm_ext_iff_of_nodup has.nodup hbs.nodup).mpr same
  exact perm.eq_of_pairwise (fun a b _ _ hab hba => absurd hab (lt_asymm hba)) has hbs

/-! ## Putting an address in its place -/

/-- Entries of addresses under their checksum texts, in strict order. -/
structure Listed (entries : List (String × Address)) : Prop where
  keyed : ∀ e ∈ entries, e.1 = e.2.checksum
  ascending : entries.Pairwise fun d e => d.1 < e.1

theorem Listed.tail {d : String × Address} {entries : List (String × Address)}
    (h : Listed (d :: entries)) : Listed entries :=
  ⟨fun e he => h.keyed e (List.mem_cons_of_mem _ he), h.ascending.of_cons⟩

/-- The entries after an address is put in its place are those before and its own. -/
theorem Listed.mem_place {entries : List (String × Address)} (h : Listed entries) (a : Address)
    (e : String × Address) :
    e ∈ place a.checksum a entries ↔ e = (a.checksum, a) ∨ e ∈ entries := by
  induction entries with
  | nil => simp [place]
  | cons d entries ih =>
    obtain ⟨other, b⟩ := d
    rw [place]
    split
    · rw [List.mem_cons]
    · split
      · next hab =>
        -- the entry that is there has the key of its address
        have hkey : other = b.checksum := h.keyed (other, b) List.mem_cons_self
        rw [hab, hkey, List.mem_cons, or_self_left]
      · rw [List.mem_cons, List.mem_cons, ih h.tail, or_left_comm]

theorem Listed.place {entries : List (String × Address)} (h : Listed entries) (a : Address) :
    Listed (place a.checksum a entries) := by
  refine ⟨fun e he => ?_, ?_⟩
  · rcases (h.mem_place a e).mp he with rfl | he
    · rfl
    · exact h.keyed e he
  · induction entries with
    | nil => exact List.pairwise_singleton ..
    | cons d entries ih =>
      obtain ⟨other, b⟩ := d
      have later := (List.pairwise_cons.mp h.ascending).1
      rw [ValidatorSet.place]
      split
      · next hlt =>
        refine List.pairwise_cons.mpr ⟨fun e he => ?_, h.ascending⟩
        rcases List.mem_cons.mp he with rfl | he
        · exact hlt
        · exact lt_trans hlt (later e he)
      · next hle =>
        split
        · exact h.ascending
        · next hne =>
          -- texts of different addresses differ, so the entry that is there comes first
          have hkey : other = b.checksum := h.keyed (other, b) List.mem_cons_self
          have hdiffer : a.checksum ≠ other := fun heq =>
            hne (Address.checksum_injective (heq.trans hkey))
          have hlt : other < a.checksum := lt_of_le_of_ne (not_lt.mp hle) (Ne.symm hdiffer)
          refine List.pairwise_cons.mpr ⟨fun e he => ?_, ih h.tail⟩
          rcases (h.tail.mem_place a e).mp he with rfl | he
          · exact hlt
          · exact later e he

/-- All addresses of a list put in their places. -/
theorem listed_foldr (addresses : List Address) :
    Listed (addresses.foldr (fun a acc => place a.checksum a acc) []) ∧
      ∀ e, e ∈ addresses.foldr (fun a acc => place a.checksum a acc) [] ↔
        e.1 = e.2.checksum ∧ e.2 ∈ addresses := by
  induction addresses with
  | nil => exact ⟨⟨fun e he => absurd he List.not_mem_nil, List.Pairwise.nil⟩, fun e => by simp⟩
  | cons a addresses ih =>
    obtain ⟨listed, mem⟩ := ih
    refine ⟨listed.place a, fun e => ?_⟩
    rw [List.foldr_cons, listed.mem_place, mem, List.mem_cons, Prod.ext_iff]
    constructor
    · rintro (⟨hkey, rfl⟩ | ⟨hkey, he⟩)
      · exact ⟨hkey, Or.inl rfl⟩
      · exact ⟨hkey, Or.inr he⟩
    · rintro ⟨hkey, rfl | he⟩
      · exact Or.inl ⟨hkey, rfl⟩
      · exact Or.inr ⟨hkey, he⟩

theorem mem_members_ofList {addresses : List Address} {a : Address} :
    a ∈ (ofList addresses).members ↔ a ∈ addresses := by
  obtain ⟨-, mem⟩ := listed_foldr addresses
  constructor
  · intro ha
    obtain ⟨e, he, rfl⟩ := List.mem_map.mp ha
    exact ((mem e).mp he).2
  · intro ha
    exact List.mem_map.mpr ⟨(a.checksum, a), (mem _).mpr ⟨rfl, ha⟩, rfl⟩

theorem ascending_ofList (addresses : List Address) : Ascending (ofList addresses).members := by
  obtain ⟨listed, -⟩ := listed_foldr addresses
  refine List.pairwise_map.mpr (listed.ascending.imp_of_mem fun {d e} hd he hlt => ?_)
  rwa [← listed.keyed d hd, ← listed.keyed e he]

/-- The addresses that are given determine the set. -/
theorem ofList_eq_iff {addresses others : List Address} :
    ofList others = ofList addresses ↔ ∀ a, a ∈ others ↔ a ∈ addresses := by
  constructor
  · intro h a
    rw [← mem_members_ofList, h, mem_members_ofList]
  · intro h
    have hmembers : (ofList others).members = (ofList addresses).members :=
      (ascending_ofList others).eq_of_mem_iff (ascending_ofList addresses) fun a => by
        rw [mem_members_ofList, mem_members_ofList, h a]
    exact congrArg ofMembers hmembers

/-! ## The table of places -/

/-- A set whose table agrees with its members. -/
structure Indexed (set : ValidatorSet) : Prop where
  /-- No member is listed twice. -/
  nodup : set.members.Nodup
  /-- The table lists the members with their places. -/
  table : set.places = set.members.zipIdx

/-- An address that is not in the table gets a new entry at its end. -/
theorem enter_of_not_mem {a : Address} {i : Nat} {places : List (Address × Nat)}
    (new : a ∉ places.map (·.1)) : enter a i places = places ++ [(a, i)] := by
  induction places with
  | nil => rfl
  | cons entry places ih =>
    obtain ⟨b, j⟩ := entry
    rw [List.map_cons, List.mem_cons, not_or] at new
    rw [enter, if_neg (Ne.symm new.1), ih new.2, List.cons_append]

/-- Entries of different addresses are entered one after the other, and none is replaced. -/
theorem foldl_enter (entries places : List (Address × Nat))
    (nodup : ((places ++ entries).map (·.1)).Nodup) :
    entries.foldl (fun places (a, i) => enter a i places) places = places ++ entries := by
  -- induction on the entries to come, with the table so far generalised
  induction entries generalizing places with
  | nil => exact (List.append_nil places).symm
  | cons entry entries ih =>
    obtain ⟨a, i⟩ := entry
    have new : a ∉ places.map (·.1) := by
      rw [List.map_append, List.nodup_append] at nodup
      exact fun mem => nodup.2.2 a mem a List.mem_cons_self rfl
    rw [List.append_cons] at nodup ⊢
    rw [← ih _ nodup, List.foldl_cons]
    exact congrArg (entries.foldl _) (enter_of_not_mem new)

theorem indexed_ofMembers {members : List Address} (nodup : members.Nodup) :
    (ofMembers members).Indexed where
  nodup := nodup
  table := by
    have hkeys : (([] ++ members.zipIdx).map Prod.fst).Nodup := by
      rwa [List.nil_append, List.zipIdx_map_fst]
    exact foldl_enter members.zipIdx [] hkeys

theorem indexed_ofList (addresses : List Address) : (ofList addresses).Indexed :=
  indexed_ofMembers (ascending_ofList addresses).nodup

section table

variable {set : ValidatorSet} (indexed : set.Indexed) {a : Address} {i : Nat}
include indexed

/-- The entries of the table are the places of the members. -/
theorem Indexed.mem_places_iff : (a, i) ∈ set.places ↔ set.members[i]? = some a := by
  rw [indexed.table, List.mem_zipIdx_iff_getElem?]

/-- What the table is asked for an address is the place of it. -/
theorem Indexed.of_find? {entry : Address × Nat} (found : set.places.find? (·.1 = a) = some entry) :
    set.members[entry.2]? = some a := by
  have key : entry.1 = a := by simpa only [decide_eq_true_eq] using List.find?_some found
  rw [← key, ← indexed.mem_places_iff]
  exact List.mem_of_find?_eq_some found

/-- The place that is looked up is where the address stands among the members. -/
theorem Indexed.position?_eq_some_iff : set.position? a = some i ↔ set.members[i]? = some a := by
  rw [position?, Option.map_eq_some_iff]
  constructor
  · rintro ⟨entry, found, rfl⟩
    exact indexed.of_find? found
  · intro stands
    have entered : (set.places.find? (·.1 = a)).isSome := by
      rw [List.find?_isSome]
      exact ⟨(a, i), indexed.mem_places_iff.mpr stands, decide_eq_true rfl⟩
    obtain ⟨entry, found⟩ := Option.isSome_iff_exists.mp entered
    -- no other place is that of the address
    obtain ⟨hi, -⟩ := List.getElem?_eq_some_iff.mp stands
    have hplace : i = entry.2 :=
      (List.getElem?_inj hi indexed.nodup).mp (stands.trans (indexed.of_find? found).symm)
    exact ⟨entry, found, hplace.symm⟩

theorem Indexed.contains_iff : set.contains a = true ↔ a ∈ set.members := by
  rw [contains, List.any_eq_true, ← List.zipIdx_map_fst 0 set.members, ← indexed.table,
    List.mem_map]
  exact exists_congr fun entry => and_congr_right fun _ => decide_eq_true_iff

theorem Indexed.position?_eq_none (outside : a ∉ set.members) : set.position? a = none := by
  cases hplace : set.position? a with
  | none => rfl
  | some i =>
    exact absurd (List.mem_of_getElem? (indexed.position?_eq_some_iff.mp hplace)) outside

end table

/-! ## Sorting -/

/-- Leaving out adjacent repetitions leaves no address out. -/
theorem mem_destutter {a : Address} (addresses : List Address) :
    a ∈ addresses.destutter (· ≠ ·) ↔ a ∈ addresses := by
  refine ⟨fun h => (List.destutter_sublist _ addresses).mem h, fun h => ?_⟩
  cases addresses with
  | nil => cases h
  | cons b rest =>
    rw [List.destutter_cons']
    induction rest generalizing b with
    | nil => exact h
    | cons c rest ih =>
      by_cases hbc : b ≠ c
      · rw [List.destutter'_cons_pos _ hbc]
        rcases List.mem_cons.mp h with rfl | h
        · exact List.mem_cons_self
        · exact List.mem_cons_of_mem _ (ih c h)
      · rw [List.destutter'_cons_neg _ hbc]
        rw [not_not] at hbc
        subst hbc
        exact ih b (List.mem_cons.mp h |>.elim (fun h => h ▸ List.mem_cons_self) id)

/-- A sorted list whose neighbours differ is in strict order. -/
theorem ascending_of_isChain {addresses : List Address}
    (sorted : addresses.Pairwise fun a b => a.checksum ≤ b.checksum)
    (differ : addresses.IsChain (· ≠ ·)) : Ascending addresses := by
  induction addresses with
  | nil => exact List.Pairwise.nil
  | cons a rest ih =>
    have later := ih sorted.of_cons differ.of_cons
    cases rest with
    | nil => exact List.pairwise_singleton ..
    | cons b rest =>
      have hne : a ≠ b := (List.isChain_cons_cons.mp differ).1
      have hle : a.checksum ≤ b.checksum := (List.pairwise_cons.mp sorted).1 b List.mem_cons_self
      have hlt : a.checksum < b.checksum :=
        lt_of_le_of_ne hle fun heq => hne (Address.checksum_injective heq)
      refine List.pairwise_cons.mpr ⟨fun c hc => ?_, later⟩
      rcases List.mem_cons.mp hc with rfl | hc
      · exact hlt
      · exact lt_trans hlt ((List.pairwise_cons.mp later).1 c hc)

theorem ascending_sortedByText (addresses : List Address) : Ascending (sortedByText addresses) := by
  simp only [sortedByText, ← Address.checksum_eq_mixedCase]
  have sorted : (addresses.mergeSort fun a b => decide (a.checksum ≤ b.checksum)).Pairwise
      fun a b => decide (a.checksum ≤ b.checksum) = true := by
    refine List.pairwise_mergeSort ?_ ?_ addresses
    · intro a b c hab hbc
      rw [decide_eq_true_iff] at hab hbc ⊢
      exact le_trans hab hbc
    · intro a b
      rw [Bool.or_eq_true, decide_eq_true_iff, decide_eq_true_iff]
      exact le_total a.checksum b.checksum
  refine ascending_of_isChain ?_ (List.isChain_destutter _ _)
  exact (sorted.imp of_decide_eq_true).sublist (List.destutter_sublist _ _)

theorem members_ofList_eq (addresses : List Address) :
    (ofList addresses).members = sortedByText addresses := by
  refine (ascending_ofList addresses).eq_of_mem_iff (ascending_sortedByText addresses) fun a => ?_
  rw [mem_members_ofList, sortedByText, mem_destutter, List.mem_mergeSort]

/-! ## The main theorem -/

/-- **The canonical order.** For every list of addresses, the members of their set stand in the
strict order of their checksum texts, each address once; the table agrees with the members, so that
places and membership are theirs; and neither the order nor the repetitions of the list matter. -/
theorem canonical_ofList (addresses : List Address) : (ofList addresses).Canonical addresses where
  ascending := (ascending_ofList addresses).imp Address.checksumBytes_lt_iff.mpr
  once a := by
    rw [(ascending_ofList addresses).nodup.count]
    exact if_congr mem_members_ofList rfl rfl
  table := (indexed_ofList addresses).table
  place _ _ := (indexed_ofList addresses).position?_eq_some_iff
  contains _ := (indexed_ofList addresses).contains_iff.trans mem_members_ofList
  same _ := ofList_eq_iff
  sorted := congrArg ofMembers (members_ofList_eq addresses)

end ValidatorSet

end IstanbulMonitor
