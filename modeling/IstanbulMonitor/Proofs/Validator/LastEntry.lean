import IstanbulMonitor.Validator.Registry
import Mathlib.Data.Finset.Card

/-!
# The last entry of each node counts

A registry is made from a list of entries if the URL of each leads to an address; the first one that
does not makes it fail. What is known of an address is then what the last entry for it says, however
often the node stands in the list and however its URLs are written (`ofEntries_keeps_last`).
-/

set_option autoImplicit false

namespace IstanbulMonitor

/-- The URL of an entry leads to an address. -/
def RegistryEntry.LeadsTo (e : RegistryEntry) (a : Address) : Prop := Enode.address e.enode = .ok a

instance (e : RegistryEntry) (a : Address) : Decidable (e.LeadsTo a) :=
  inferInstanceAs (Decidable (Enode.address e.enode = .ok a))

/-- What an entry says of an address. -/
def RegistryEntry.infoOn (e : RegistryEntry) (a : Address) : ValidatorInfo :=
  ⟨a, e.operator, some e.enode⟩

namespace Registry

variable {r : Registry} {info : ValidatorInfo} {entries : List RegistryEntry} {e : RegistryEntry}
  {a : Address}

/-! ## One more entry -/

/-- The addresses of a registry, in the order in which they came. -/
def addresses (r : Registry) : List Address := r.entries.map (·.address)

theorem find?_put (info : ValidatorInfo) (a : Address) (known : List ValidatorInfo) :
    (put info known).find? (·.address = a) =
      if info.address = a then some info else known.find? (·.address = a) := by
  induction known with
  | nil =>
      by_cases ha : info.address = a
      · simp [put, ha]
      · simp [put, ha]
  | cons other rest ih =>
      by_cases hother : other.address = info.address
      · -- both entries stand under one address, so for another one neither counts
        by_cases ha : info.address = a
        · simp [put, hother, ha]
        · simp [put, hother, ha]
      · rw [put, if_neg hother, List.find?_cons, ih, List.find?_cons]
        by_cases ha : info.address = a
        · subst ha
          simp [hother]
        · rw [if_neg ha, if_neg ha]

theorem get?_insert (r : Registry) (info : ValidatorInfo) (a : Address) :
    (r.insert info).get? a = if info.address = a then some info else r.get? a :=
  find?_put info a r.entries

theorem map_address_put (info : ValidatorInfo) (known : List ValidatorInfo) :
    (put info known).map (·.address) =
      if info.address ∈ known.map (·.address) then known.map (·.address)
      else known.map (·.address) ++ [info.address] := by
  induction known with
  | nil => rfl
  | cons other rest ih =>
      by_cases hother : other.address = info.address
      · simp [put, hother]
      · rw [put, if_neg hother, List.map_cons, ih]
        by_cases hrest : info.address ∈ rest.map (·.address)
        · simp [hrest]
        · simp [hrest, Ne.symm hother]

/-- An address that is known already stays where it is. -/
theorem addresses_insert (r : Registry) (info : ValidatorInfo) :
    (r.insert info).addresses =
      if info.address ∈ r.addresses then r.addresses else r.addresses ++ [info.address] :=
  map_address_put info r.entries

theorem mem_addresses_insert :
    a ∈ (r.insert info).addresses ↔ a ∈ r.addresses ∨ a = info.address := by
  rw [addresses_insert]
  split
  · next old =>
    constructor
    · exact .inl
    · rintro (mem | rfl)
      · exact mem
      · exact old
  · rw [List.mem_append, List.mem_singleton]

theorem nodup_addresses_insert (once : r.addresses.Nodup) (info : ValidatorInfo) :
    (r.insert info).addresses.Nodup := by
  rw [addresses_insert]
  split
  · exact once
  · next fresh => exact List.nodup_append_comm.mp (List.nodup_cons.mpr ⟨fresh, once⟩)

/-- In a registry that knows each address once, an entry is found under its address. -/
theorem get?_of_mem (once : r.addresses.Nodup) (mem : info ∈ r.entries) :
    r.get? info.address = some info := by
  obtain ⟨known⟩ := r
  induction known with
  | nil => cases mem
  | cons other rest ih =>
      obtain ⟨hother, once⟩ := List.nodup_cons.mp once
      rw [get?, List.find?_cons]
      rcases List.mem_cons.mp mem with rfl | mem
      · simp
      · have hne : other.address ≠ info.address := by
          intro same
          exact hother (List.mem_map.mpr ⟨info, mem, same.symm⟩)
        simp only [hne, decide_false]
        exact ih once mem

/-! ## Registries of entries -/

/-- The last entry of a list for an address. -/
def lastFor? (entries : List RegistryEntry) (a : Address) : Option RegistryEntry :=
  (entries.filter (·.LeadsTo a)).getLast?

/-- An error is that of the first entry whose URL leads to no address. -/
inductive FailsFirst (error : RegistryError) : List RegistryEntry → Prop where
  | intro {before : List RegistryEntry} {e : RegistryEntry} (after : List RegistryEntry)
      (led : ∀ earlier ∈ before, ∃ a, earlier.LeadsTo a)
      (failed : Enode.address e.enode = .error error) : FailsFirst error (before ++ e :: after)

/-- What a registry knows of each address is what the last of some entries for it says, and it knows
each address once. -/
structure Holds (entries : List RegistryEntry) (r : Registry) : Prop where
  last : ∀ a, r.get? a = (lastFor? entries a).map (·.infoOn a)
  once : r.addresses.Nodup
  known : ∀ a, a ∈ r.addresses ↔ ∃ e ∈ entries, e.LeadsTo a

theorem lastFor?_concat (entries : List RegistryEntry) (e : RegistryEntry) (a : Address) :
    lastFor? (entries ++ [e]) a = if e.LeadsTo a then some e else lastFor? entries a := by
  by_cases h : e.LeadsTo a
  · simp [lastFor?, List.filter_append, h]
  · simp [lastFor?, List.filter_append, h]

theorem leadsTo_of_lastFor? (h : lastFor? entries a = some e) : e.LeadsTo a := by
  have mem := List.mem_of_getLast? h
  exact of_decide_eq_true (List.mem_filter.mp mem).2

theorem holds_nil : Holds [] {} where
  last _ := rfl
  once := List.nodup_nil
  known a := by simp [addresses]

/-- One more entry replaces the one that its address had, if any. -/
theorem Holds.insert (h : Holds entries r) (leads : e.LeadsTo a) :
    Holds (entries ++ [e]) (r.insert (e.infoOn a)) := by
  have hnext : ∀ b, e.LeadsTo b ↔ b = a := by
    intro b
    constructor
    · intro leads'
      exact Except.ok.inj (leads'.symm.trans leads)
    · rintro rfl
      exact leads
  refine ⟨fun b => ?_, nodup_addresses_insert h.once _, fun b => ?_⟩
  · have haddress : (e.infoOn a).address = a := rfl
    rw [get?_insert, lastFor?_concat, haddress, h.last]
    by_cases hb : b = a
    · subst hb
      rw [if_pos rfl, if_pos leads]
      rfl
    · rw [if_neg (Ne.symm hb), if_neg fun leads' => hb ((hnext b).mp leads')]
  · have hmem : b ∈ (r.insert (e.infoOn a)).addresses ↔ b ∈ r.addresses ∨ b = a :=
      mem_addresses_insert
    simp only [hmem, h.known, List.mem_append, List.mem_singleton, or_and_right, exists_or,
      exists_eq_left, hnext]

/-! ## All entries -/

/-- A registry with one more entry, if its URL leads to an address. -/
def enter (r : Registry) (e : RegistryEntry) : Except RegistryError Registry := do
  let a ← Enode.address e.enode
  return r.insert (e.infoOn a)

theorem ofEntries_append (before after : List RegistryEntry) :
    ofEntries (before ++ after) = ofEntries before >>= fun r => after.foldlM enter r :=
  List.foldlM_append

/-- Once the entries before it are in the registry, the next one is entered. -/
theorem ofEntries_append_cons {before : List RegistryEntry} (made : ofEntries before = .ok r)
    (e : RegistryEntry) (after : List RegistryEntry) :
    ofEntries (before ++ e :: after) = r.enter e >>= fun r => after.foldlM enter r := by
  rw [ofEntries_append, made]
  show (e :: after).foldlM enter r = _
  rw [List.foldlM_cons]

theorem enter_of_leadsTo (r : Registry) (leads : e.LeadsTo a) :
    r.enter e = .ok (r.insert (e.infoOn a)) := by
  rw [enter, show Enode.address e.enode = .ok a from leads]
  rfl

theorem enter_of_error (r : Registry) {error : RegistryError}
    (failed : Enode.address e.enode = .error error) : r.enter e = .error error := by
  rw [enter, failed]
  rfl

/-- Either all entries are in the registry, or one of them makes it fail. -/
theorem ofEntries_cases (entries : List RegistryEntry) :
    (∃ r, ofEntries entries = .ok r ∧ Holds entries r ∧ ∀ e ∈ entries, ∃ a, e.LeadsTo a) ∨
      ∃ error, ofEntries entries = .error error ∧ FailsFirst error entries := by
  -- from the end: the last entry is the one that replaces another
  induction entries using List.reverseRecOn with
  | nil => exact .inl ⟨{}, rfl, holds_nil, by simp⟩
  | append_singleton entries e ih =>
      rcases ih with ⟨r, made, holds, led⟩ | ⟨error, failed, first⟩
      · rw [ofEntries_append_cons made]
        cases hlast : Enode.address e.enode with
        | error error =>
            refine .inr ⟨error, ?_, .intro [] led hlast⟩
            rw [enter_of_error r hlast]
            rfl
        | ok a =>
            refine .inl ⟨r.insert (e.infoOn a), ?_, holds.insert hlast, ?_⟩
            · rw [enter_of_leadsTo r hlast]
              rfl
            · intro e' mem
              rcases List.mem_append.mp mem with mem | mem
              · exact led e' mem
              · cases List.mem_singleton.mp mem
                exact ⟨a, hlast⟩
      · refine .inr ⟨error, by rw [ofEntries_append, failed]; rfl, ?_⟩
        obtain ⟨after, led, faulty⟩ := first
        rw [List.append_assoc, List.cons_append]
        exact .intro (after ++ [e]) led faulty

theorem exists_ofEntries_iff : (∃ r, ofEntries entries = .ok r) ↔
    ∀ e ∈ entries, ∃ a, e.LeadsTo a := by
  constructor
  · rintro ⟨r, made⟩
    rcases ofEntries_cases entries with ⟨r', -, -, led⟩ | ⟨error, failed, -⟩
    · exact led
    · cases made.symm.trans failed
  · intro led
    rcases ofEntries_cases entries with ⟨r, made, -, -⟩ | ⟨error, -, ⟨after, -, failed⟩⟩
    · exact ⟨r, made⟩
    · obtain ⟨a, leads⟩ := led _ (List.mem_append_right _ List.mem_cons_self)
      cases failed.symm.trans leads

theorem ofEntries_eq_error_iff {error : RegistryError} :
    ofEntries entries = .error error ↔ FailsFirst error entries := by
  constructor
  · intro failed
    rcases ofEntries_cases entries with ⟨r, made, -, -⟩ | ⟨error', failed', first⟩
    · cases made.symm.trans failed
    · cases failed.symm.trans failed'
      exact first
  · rintro ⟨after, led, failed⟩
    obtain ⟨r, made⟩ := exists_ofEntries_iff.mpr led
    rw [ofEntries_append_cons made, enter_of_error r failed]
    rfl

theorem holds_of_ofEntries (made : ofEntries entries = .ok r) : Holds entries r := by
  rcases ofEntries_cases entries with ⟨r', made', holds, -⟩ | ⟨error, failed, -⟩
  · cases made.symm.trans made'
    exact holds
  · cases made.symm.trans failed

/-- The addresses to which the URLs of entries lead. -/
def derived (entries : List RegistryEntry) : List Address :=
  entries.filterMap fun e => (Enode.address e.enode).toOption

theorem mem_derived : a ∈ derived entries ↔ ∃ e ∈ entries, e.LeadsTo a := by
  have hread : ∀ e : RegistryEntry, (Enode.address e.enode).toOption = some a ↔ e.LeadsTo a := by
    intro e
    unfold RegistryEntry.LeadsTo
    cases Enode.address e.enode <;> simp [Except.toOption]
  simp only [derived, List.mem_filterMap, hread]

theorem Holds.size_eq (h : Holds entries r) : r.size = (derived entries).toFinset.card := by
  have hsame : r.addresses.toFinset = (derived entries).toFinset := by
    ext a
    rw [List.mem_toFinset, List.mem_toFinset, h.known, mem_derived]
  rw [← hsame, List.toFinset_card_of_nodup h.once]
  exact (List.length_map _).symm

/-- What is in the registry is found under its address, to which its URL leads. -/
theorem Holds.stored (h : Holds entries r) (mem : info ∈ r.entries) :
    r.get? info.address = some info ∧
      ∃ url, info.enode = some url ∧ Enode.address url = .ok info.address := by
  have found := get?_of_mem h.once mem
  have hlast := h.last info.address
  rw [found] at hlast
  obtain ⟨e, last, hinfo⟩ := Option.map_eq_some_iff.mp hlast.symm
  refine ⟨found, e.enode, ?_, leadsTo_of_lastFor? last⟩
  rw [← hinfo]
  rfl

/-- **A registry keeps the last entry of each node.** A list of entries makes a registry exactly if
the URL of each leads to an address, and otherwise the error is that of the first one that does not.
A registry that is made knows of each address what the last entry for it says, and nothing of an
address without an entry. It has as many entries as addresses are derived, and each stands under its
own address, to which its URL leads. -/
theorem ofEntries_keeps_last (entries : List RegistryEntry) :
    ((∃ r, ofEntries entries = .ok r) ↔ ∀ e ∈ entries, ∃ a, Enode.address e.enode = .ok a) ∧
    (∀ error, ofEntries entries = .error error ↔ FailsFirst error entries) ∧
    ∀ r, ofEntries entries = .ok r →
      (∀ a, r.get? a = (lastFor? entries a).map (·.infoOn a)) ∧
      r.size = (derived entries).toFinset.card ∧
      ∀ info ∈ r.entries, r.get? info.address = some info ∧
        ∃ url, info.enode = some url ∧ Enode.address url = .ok info.address := by
  refine ⟨exists_ofEntries_iff, fun error => ofEntries_eq_error_iff, fun r made => ?_⟩
  have holds := holds_of_ofEntries made
  exact ⟨holds.last, holds.size_eq, fun info => holds.stored⟩

example : ofEntries [⟨"Alpha", "enode://zz@10.0.0.1:30303"⟩, ⟨"Bravo", "enr://abc"⟩] =
    .error (.enode .notHex "enode://zz@10.0.0.1:30303") := by
  decide +kernel

end Registry

end IstanbulMonitor
