import IstanbulMonitor.Json.Decode
import Mathlib.Data.List.Forall2
import Mathlib.Data.List.Perm.Basic

/-!
# What blanks and the order of members do not change

`Source.stripped` is a source without its blanks. It denotes the same value, whether it is read in
full (`Source.value?_stripped`) or as a record (`Source.record?_stripped`). The members of an object
that have one of some names are all members with these names, each of them once
(`knownMembers?_eq`); so their order counts for nothing, and neither do members with other names.
-/

set_option autoImplicit false

namespace IstanbulMonitor.Json

/-! ## Sources without blanks -/

mutual

/-- A source without its blanks. -/
def Source.stripped : Source → Source
  | .null => .null
  | .bool b => .bool b
  | .number n => .number n
  | .string body => .string body
  | .emptyArray _ => .emptyArray []
  | .array items => .array (strippedItems items)
  | .emptyObject _ => .emptyObject []
  | .object entries => .object (strippedEntries entries)
termination_by structural s => s

/-- The items of an array without blanks. -/
def strippedItems : List Item → List Item
  | [] => []
  | item :: items => item.stripped :: strippedItems items
termination_by structural items => items

/-- An item without blanks. -/
def Item.stripped : Item → Item
  | .mk _ value _ => .mk [] value.stripped []
termination_by structural item => item

/-- The members of an object without blanks. -/
def strippedEntries : List Entry → List Entry
  | [] => []
  | entry :: entries => entry.stripped :: strippedEntries entries
termination_by structural entries => entries

/-- A member without blanks. -/
def Entry.stripped : Entry → Entry
  | .mk _ name _ item => .mk [] name [] item.stripped
termination_by structural entry => entry

end

theorem Item.value_stripped (item : Item) : item.stripped.value = item.value.stripped := by
  cases item
  rfl

mutual

/-- Blanks do not change what a source denotes. -/
theorem Source.value?_stripped (depth : Nat) : (s : Source) →
    s.stripped.value? depth = s.value? depth
  | .null => rfl
  | .bool _ => rfl
  | .number _ => rfl
  | .string _ => rfl
  | .emptyArray _ => rfl
  | .array items => by
      rw [Source.stripped, Source.value?, Source.value?, itemsValues?_stripped (depth - 1) items]
  | .emptyObject _ => rfl
  | .object entries => by
      rw [Source.stripped, Source.value?, Source.value?,
        entriesValues?_stripped (depth - 1) entries]
termination_by structural s => s

theorem itemsValues?_stripped (depth : Nat) : (items : List Item) →
    itemsValues? depth (strippedItems items) = itemsValues? depth items
  | [] => rfl
  | item :: items => by
      rw [strippedItems, itemsValues?, itemsValues?, itemValue?_stripped depth item,
        itemsValues?_stripped depth items]
termination_by structural items => items

theorem itemValue?_stripped (depth : Nat) : (item : Item) →
    itemValue? depth item.stripped = itemValue? depth item
  | .mk _ value _ => Source.value?_stripped depth value
termination_by structural item => item

theorem entriesValues?_stripped (depth : Nat) : (entries : List Entry) →
    entriesValues? depth (strippedEntries entries) = entriesValues? depth entries
  | [] => rfl
  | entry :: entries => by
      rw [strippedEntries, entriesValues?, entriesValues?, entryValue?_stripped depth entry,
        entriesValues?_stripped depth entries]
termination_by structural entries => entries

theorem entryValue?_stripped (depth : Nat) : (entry : Entry) →
    entryValue? depth entry.stripped = entryValue? depth entry
  | .mk _ name _ item => by
      rw [Entry.stripped, entryValue?, entryValue?, itemValue?_stripped depth item]
termination_by structural entry => entry

end

/-! ## Members -/

/-- A member without the blanks of its value. -/
def bare (p : String × Source) : String × Source := (p.1, p.2.stripped)

theorem Entry.parts?_stripped (entry : Entry) : entry.stripped.parts? = entry.parts?.map bare := by
  obtain ⟨before, name, after, item⟩ := entry
  simp only [Entry.stripped, Entry.parts?, Item.value_stripped, Option.map_map]
  rfl

/-- The members of an object, if each of their names denotes a string. -/
def namedMembers? (entries : List Entry) : Option (List (String × Source)) :=
  entries.mapM Entry.parts?

theorem namedMembers?_cons (entry : Entry) (entries : List Entry) :
    namedMembers? (entry :: entries) =
      entry.parts?.bind fun p => (namedMembers? entries).bind fun members => some (p :: members) :=
  List.mapM_cons

theorem mem_namedMembers? {entries : List Entry} {members : List (String × Source)}
    (named : namedMembers? entries = some members) {p : String × Source} :
    p ∈ members ↔ ∃ entry ∈ entries, entry.parts? = some p := by
  induction entries generalizing members with
  | nil =>
    cases named
    simp
  | cons entry entries ih =>
    rw [namedMembers?_cons] at named
    obtain ⟨q, hq, named⟩ := Option.bind_eq_some_iff.mp named
    obtain ⟨rest, hrest, named⟩ := Option.bind_eq_some_iff.mp named
    cases named
    rw [List.mem_cons, ih hrest]
    constructor
    · rintro (rfl | ⟨other, mem, hp⟩)
      · exact ⟨entry, List.mem_cons_self, hq⟩
      · exact ⟨other, List.mem_cons_of_mem entry mem, hp⟩
    · rintro ⟨other, mem, hp⟩
      rcases List.mem_cons.mp mem with rfl | mem
      · exact .inl (Option.some.inj (hp.symm.trans hq))
      · exact .inr ⟨other, mem, hp⟩

/-- The members with one of the given names are found if all names denote strings, and if each of
the given ones is there once at most. -/
theorem knownMembers?_eq (names : List String) (entries : List Entry) :
    knownMembers? names entries = (namedMembers? entries).bind fun members =>
      if ((members.filter (·.1 ∈ names)).map Prod.fst).Nodup then
        some (members.filter (·.1 ∈ names))
      else none := by
  induction entries with
  | nil => rfl
  | cons entry entries ih =>
    rw [knownMembers?, ih, namedMembers?_cons]
    cases entry.parts? with
    | none => rfl
    | some p =>
      obtain ⟨name, value⟩ := p
      cases namedMembers? entries with
      | none => rfl
      | some members =>
        simp only [Option.bind_eq_bind, Option.bind_some]
        generalize hknown : members.filter (·.1 ∈ names) = known
        by_cases mem : name ∈ names
        · have hany : known.any (·.1 = name) = true ↔ name ∈ known.map Prod.fst := by
            simp [List.any_eq_true]
          by_cases distinct : (known.map Prod.fst).Nodup
          · by_cases twice : name ∈ known.map Prod.fst
            · simp [mem, hknown, distinct, hany.mpr twice, twice]
            · simp [mem, hknown, distinct, Bool.eq_false_iff.mpr (mt hany.mp twice), twice]
          · simp [mem, hknown, distinct]
        · by_cases distinct : (known.map Prod.fst).Nodup <;> simp [mem, hknown, distinct]

theorem namedMembers?_strippedEntries (entries : List Entry) :
    namedMembers? (strippedEntries entries) = (namedMembers? entries).map (List.map bare) := by
  induction entries with
  | nil => rfl
  | cons entry entries ih =>
    rw [strippedEntries, namedMembers?_cons, namedMembers?_cons, ih, Entry.parts?_stripped]
    cases entry.parts? with
    | none => rfl
    | some p => cases namedMembers? entries <;> rfl

theorem knownMembers?_strippedEntries (names : List String) (entries : List Entry) :
    knownMembers? names (strippedEntries entries) =
      (knownMembers? names entries).map (List.map bare) := by
  rw [knownMembers?_eq, knownMembers?_eq, namedMembers?_strippedEntries]
  cases namedMembers? entries with
  | none => rfl
  | some members =>
    have hfilter : (members.map bare).filter (·.1 ∈ names) =
        (members.filter (·.1 ∈ names)).map bare := List.filter_map
    have hnames : ((members.filter (·.1 ∈ names)).map bare).map Prod.fst =
        (members.filter (·.1 ∈ names)).map Prod.fst := by
      rw [List.map_map]
      rfl
    simp only [Option.map_some, Option.bind_some, hfilter, hnames]
    split <;> rfl

/-- What does not look at blanks makes the same of members without them. -/
theorem mapM_bare {α : Type} {f : String × Source → Option α} (blind : ∀ p, f (bare p) = f p)
    (members : List (String × Source)) : (members.map bare).mapM f = members.mapM f := by
  rw [List.mapM_map]
  exact congrArg (members.mapM ·) (funext blind)

/-- Blanks do not change what a record that is read in one pass denotes. -/
theorem Source.record?_stripped (depth : Nat) (names : List String) (s : Source) :
    s.stripped.record? depth names = s.record? depth names := by
  cases s with
  | array items => exact (Source.array items).value?_stripped depth
  | object entries =>
    simp only [Source.stripped, Source.record?, Source.fields?, knownMembers?_strippedEntries]
    cases knownMembers? names entries with
    | none => rfl
    | some members =>
      simp only [Option.map_some, Option.bind_eq_bind, Option.bind_some]
      rw [mapM_bare]
      intro p
      exact congrArg (Option.map _) (p.2.value?_stripped (depth - 1))
  | _ => rfl

/-- The order of the members is that in which they are written. -/
theorem namedMembers?_perm {entries entries' : List Entry} (perm : entries.Perm entries') :
    Option.Rel List.Perm (namedMembers? entries) (namedMembers? entries') := by
  induction perm with
  | nil => exact .some .nil
  | @cons entry entries entries' _ ih =>
    rw [namedMembers?_cons, namedMembers?_cons]
    cases entry.parts? with
    | none => exact .none
    | some p =>
      revert ih
      generalize namedMembers? entries = members
      generalize namedMembers? entries' = members'
      rintro (perm | _)
      · exact .some (perm.cons p)
      · exact .none
  | swap entry entry' entries =>
    simp only [namedMembers?_cons]
    cases entry.parts? with
    | none => cases entry'.parts? <;> exact .none
    | some p =>
      cases entry'.parts? with
      | none => exact .none
      | some p' =>
        cases namedMembers? entries with
        | none => exact .none
        | some members => exact .some (.swap p p' members)
  | @trans entries middle entries' _ _ ih ih' =>
    revert ih ih'
    generalize namedMembers? entries = members
    generalize namedMembers? middle = between
    generalize namedMembers? entries' = members'
    rintro (perm | _) (perm' | _)
    · exact .some (perm.trans perm')
    · exact .none

/-! ## Finding a member -/

section Find

variable {members members' : List (String × Source)} {name : String}

/-- If each name is there once, a member is found under its own name. -/
theorem find?_eq_some_iff (distinct : (members.map Prod.fst).Nodup) {p : String × Source} :
    members.find? (·.1 = name) = some p ↔ p ∈ members ∧ p.1 = name := by
  constructor
  · intro found
    exact ⟨List.mem_of_find?_eq_some found, by simpa using List.find?_some found⟩
  · rintro ⟨mem, rfl⟩
    induction members with
    | nil => exact absurd mem List.not_mem_nil
    | cons q members ih =>
      obtain ⟨hnew, hrest⟩ := List.nodup_cons.mp distinct
      rcases List.mem_cons.mp mem with rfl | mem
      · simp
      · have hne : q.1 ≠ p.1 := by
          intro h
          exact hnew (h ▸ List.mem_map_of_mem mem)
        simp [hne, ih hrest mem]

theorem find?_perm (perm : members.Perm members') (distinct : (members.map Prod.fst).Nodup) :
    members.find? (·.1 = name) = members'.find? (·.1 = name) := by
  ext p
  rw [find?_eq_some_iff distinct, find?_eq_some_iff ((perm.map Prod.fst).nodup_iff.mp distinct),
    perm.mem_iff]

end Find

end IstanbulMonitor.Json
