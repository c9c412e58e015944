import IstanbulMonitor.Json.Decode
import IstanbulMonitor.Proofs.Json.Rendering

/-!
# Records that are written member by member

An object whose members all have rules that are kept is read as a record (`fields_object`), and the
source of an object with known members is read in one pass as the object (`record?_sourceOf`).
A list of members fills a record (`Fill`) if it goes along the rules of the record, leaving some of
them out, with a value that is good by the rule of its name. An object of such members is a record
with just these fields, in whatever order they are given (`fields_of_fill`).
-/

set_option autoImplicit false

namespace IstanbulMonitor.Json

variable {name : String} {value : Json} {ms given : List (String × Json)}

/-! ## Members of distinct names -/

/-- If each name is there once, a value is looked up under its own name. -/
theorem lookup_eq_some_iff (distinct : (ms.map Prod.fst).Nodup) :
    lookup name ms = some value ↔ (name, value) ∈ ms := by
  induction ms with
  | nil => simp [lookup]
  | cons m ms ih =>
    obtain ⟨other, old⟩ := m
    obtain ⟨hnew, hrest⟩ := List.nodup_cons.mp distinct
    by_cases heq : name = other
    · subst heq
      -- no later member has this name
      have hnone : (name, value) ∉ ms := by
        intro mem
        apply hnew
        have hname : name ∈ ms.map Prod.fst := List.mem_map_of_mem mem
        exact hname
      simp [lookup, hnone, eq_comm]
    · simp [lookup, heq, ih hrest]

theorem lookup_perm (perm : given.Perm ms) (distinct : (ms.map Prod.fst).Nodup) :
    lookup name given = lookup name ms := by
  have hgiven : (given.map Prod.fst).Nodup := (perm.map Prod.fst).nodup_iff.mpr distinct
  ext value
  rw [lookup_eq_some_iff hgiven, lookup_eq_some_iff distinct, perm.mem_iff]

theorem object_members_ofMembers (ms : List (String × Json)) :
    .object (ofMembers ms).members = ofMembers ms := rfl

/-! ## Records -/

theorem fault?_of {α : Type} (name : String) {read : Decoder α} {value : Json} {a : α}
    (h : read value = .ok a) : (Rule.of name read).fault? value = none := by
  simp only [Rule.of, h]

/-- An object is read as a record if every member that has a rule is read by it. -/
theorem fields_object {rules : List Rule} {ms : List (String × Json)}
    (h : ∀ m ∈ ms, ∃ rule, rules.find? (·.name = m.1) = some rule ∧ rule.fault? m.2 = none) :
    fields rules (.object ms) = .ok ⟨ms, .missingField⟩ := by
  have hfault : firstFault rules ms = none := by
    induction ms with
    | nil => rfl
    | cons m ms ih =>
        obtain ⟨rule, hfind, hrule⟩ := h m List.mem_cons_self
        have hrest := ih fun m' hm' => h m' (List.mem_cons_of_mem m hm')
        simp only [firstFault, hfind, Option.bind_some, hrule, hrest]
  rw [fields, hfault]

/-- A value that is there is read as it is. -/
theorem optional_of_ok {α : Type} {read : Decoder α} {a : α} (h : read value = .ok a)
    (present : value ≠ .null) : optional read value = .ok (some a) := by
  cases value with
  | null => contradiction
  | _ => exact congrArg (Except.map some) h

/-- Any value but null is there. -/
theorem optional_readAny {value : Json} (h : value ≠ .null) :
    optional readAny value = .ok (some value) :=
  optional_of_ok rfl h

/-- An optional field is read as it was written: its member is left out if there is no value. -/
theorem Fields.withDefault_option {α : Type} {f : Fields} {read : Decoder (Option α)}
    {write : α → Json} {x : Option α} (found : lookup name f.members = x.map write)
    (good : ∀ a, read (write a) = .ok (some a)) : f.withDefault name read none = .ok x := by
  cases x with
  | none => simp only [Fields.withDefault, found, Option.map_none]
  | some a => simp only [Fields.withDefault, found, Option.map_some, good]

/-! ## Filling a record -/

/-- Members that go along the rules of a record, each with a value that is good by its rule. A rule
may be left without a member. -/
inductive Fill : List Rule → List (String × Json) → Prop where
  | nil : Fill [] []
  | cons {rule : Rule} {rules : List Rule} {value : Json} {ms : List (String × Json)}
      (good : rule.fault? value = none) (rest : Fill rules ms) :
      Fill (rule :: rules) ((rule.name, value) :: ms)
  | skip {rule : Rule} {rules : List Rule} {ms : List (String × Json)} (rest : Fill rules ms) :
      Fill (rule :: rules) ms

namespace Fill

variable {rules : List Rule}

theorem sublist (fill : Fill rules ms) : (ms.map Prod.fst).Sublist (rules.map (·.name)) := by
  induction fill with
  | nil => exact .slnil
  | cons _ _ ih => exact ih.cons_cons _
  | skip _ ih => exact ih.cons _

/-- The member of an optional field. -/
theorem option {α : Type} {rule : Rule} {write : α → Json} (rest : Fill rules ms) (x : Option α)
    (good : ∀ a, rule.fault? (write a) = none) :
    Fill (rule :: rules) ((x.map fun a => (rule.name, write a)).toList ++ ms) := by
  cases x with
  | none => exact rest.skip
  | some a => exact .cons (good a) rest

theorem distinct (fill : Fill rules ms) (h : (rules.map (·.name)).Nodup) :
    (ms.map Prod.fst).Nodup :=
  fill.sublist.nodup h

/-- A later member goes along a later rule. -/
theorem name_ne {rule : Rule} (rest : Fill rules ms) (fresh : rule.name ∉ rules.map (·.name))
    {m : String × Json} (mem : m ∈ ms) : rule.name ≠ m.1 := by
  intro heq
  apply fresh
  have hm : m.1 ∈ ms.map Prod.fst := List.mem_map_of_mem mem
  rw [← heq] at hm
  exact rest.sublist.subset hm

/-- No rule is broken: the rule of a name is the one that the member goes along. -/
theorem faultless (fill : Fill rules ms) (h : (rules.map (·.name)).Nodup) :
    ∀ m ∈ ms, ∃ rule, rules.find? (·.name = m.1) = some rule ∧ rule.fault? m.2 = none := by
  induction fill with
  | nil => simp
  | @cons rule rules value ms good rest ih =>
    obtain ⟨fresh, hrest⟩ := List.nodup_cons.mp h
    intro m mem
    rcases List.mem_cons.mp mem with rfl | mem
    · exact ⟨rule, by simp, good⟩
    · simpa [rest.name_ne fresh mem] using ih hrest m mem
  | @skip rule rules ms rest ih =>
    obtain ⟨fresh, hrest⟩ := List.nodup_cons.mp h
    intro m mem
    simpa [rest.name_ne fresh mem] using ih hrest m mem

end Fill

/-- Members that fill a record are its fields, in whatever order they are given. -/
theorem fields_of_fill {rules : List Rule} (fill : Fill rules ms)
    (distinct : (rules.map (·.name)).Nodup) (perm : given.Perm ms) :
    ∃ f, fields rules (ofMembers given) = .ok f ∧
      ∀ name, lookup name f.members = lookup name ms := by
  have hms := fill.distinct distinct
  have hgiven : (given.map Prod.fst).Nodup := (perm.map Prod.fst).nodup_iff.mpr hms
  have hperm : (ofMembers given).members.Perm ms := (perm_members_ofMembers hgiven).trans perm
  refine ⟨Fields.mk (ofMembers given).members .missingField, ?_, fun _ => lookup_perm hperm hms⟩
  apply fields_object
  intro m mem
  exact fill.faultless distinct m (hperm.mem_iff.mp mem)

/-! ## The text of a record -/

variable {depth : Nat}

theorem membersFit_iff : membersFit depth ms ↔ ∀ m ∈ ms, Fits depth m.2 := by
  induction ms with
  | nil => simp [membersFit]
  | cons m ms ih =>
    obtain ⟨name, value⟩ := m
    rw [membersFit, memberFits, ih, List.forall_mem_cons]

/-- The text of an object is read as its source, also if its members are in no order. -/
theorem read?_render_object (fit : membersFit depth ms) :
    Source.read? (Json.object ms).render = some (sourceOf (.object ms)) := by
  cases ms with
  | nil =>
    have hfits : Fits 1 (.object []) := ⟨by decide, .nil, trivial⟩
    exact read?_render hfits
  | cons m ms =>
    have htext : (sourceOf (.object (m :: ms))).text = (Json.object (m :: ms)).render := by
      simp only [Source.text, render, sourceOf, Source.chars, chars,
        entriesChars_entriesOf ms fit.2, entryChars_entryOf m fit.1, List.cons_append]
    rw [← htext]
    apply Source.read?_text
    exact ⟨List.cons_ne_nil _ _, wellFormed_entryOf m fit.1, wellFormed_entriesOf ms fit.2⟩

theorem parts?_entryOf (m : String × Json) : (entryOf m).parts? = some (m.1, sourceOf m.2) := by
  obtain ⟨name, value⟩ := m
  simp [entryOf, Entry.parts?, decodeBody_map_pieceOf, Item.value]

/-- The members of an object that have one of the given names, in source form. -/
def knownSources (names : List String) (ms : List (String × Json)) : List (String × Source) :=
  (ms.filter (·.1 ∈ names)).map fun m => (m.1, sourceOf m.2)

theorem knownSources_cons_of_mem {names : List String} {m : String × Json} (h : m.1 ∈ names)
    (ms : List (String × Json)) :
    knownSources names (m :: ms) = (m.1, sourceOf m.2) :: knownSources names ms := by
  simp [knownSources, h]

theorem knownSources_cons_of_notMem {names : List String} {m : String × Json} (h : m.1 ∉ names)
    (ms : List (String × Json)) : knownSources names (m :: ms) = knownSources names ms := by
  simp [knownSources, h]

theorem knownMembers?_entriesOf (names : List String) {ms : List (String × Json)}
    (distinct : (ms.map Prod.fst).Nodup) :
    knownMembers? names (entriesOf ms) = some (knownSources names ms) := by
  induction ms with
  | nil => rfl
  | cons m ms ih =>
      obtain ⟨hnew, hrest⟩ := List.nodup_cons.mp distinct
      -- no later member has the same name
      have hother : (knownSources names ms).any (·.1 = m.1) = false := by
        rw [List.any_eq_false]
        intro p hp hname
        obtain ⟨m', hm', rfl⟩ := List.mem_map.mp hp
        exact hnew (of_decide_eq_true hname ▸ List.mem_map_of_mem (List.mem_filter.mp hm').1)
      by_cases hknown : m.1 ∈ names
      · rw [knownSources_cons_of_mem hknown]
        simp only [entriesOf, knownMembers?, parts?_entryOf, ih hrest, hknown, hother,
          Option.bind_eq_bind, Option.bind_some, if_true, Bool.false_eq_true, if_false]
      · rw [knownSources_cons_of_notMem hknown]
        simp only [entriesOf, knownMembers?, parts?_entryOf, ih hrest, hknown,
          Option.bind_eq_bind, Option.bind_some, if_false]

theorem fields?_sourceOf (names : List String) {ms : List (String × Json)}
    (distinct : (ms.map Prod.fst).Nodup) :
    (sourceOf (.object ms)).fields? names = some (knownSources names ms) := by
  cases ms with
  | nil => rfl
  | cons m ms => exact knownMembers?_entriesOf names distinct

theorem mapM_knownSources {depth : Nat} {names : List String} {ms : List (String × Json)}
    (h : membersFit depth ms) (known : ∀ m ∈ ms, m.1 ∈ names) :
    ((knownSources names ms).mapM fun (name, value) => (value.value? depth).map (name, ·)) =
      some ms := by
  induction ms with
  | nil => rfl
  | cons m ms ih =>
      obtain ⟨name, value⟩ := m
      have hrest := ih h.2 fun m hm => known m (List.mem_cons_of_mem _ hm)
      have hvalue : (sourceOf value).value? depth = some value := value?_sourceOf value h.1
      rw [knownSources_cons_of_mem (known _ List.mem_cons_self), List.mapM_cons, hrest]
      simp only [hvalue, Option.map_some, Option.bind_eq_bind, Option.bind_some, pure]

/-- The source of an object with known members is read in one pass as the object of them. -/
theorem record?_sourceOf_object {names : List String} (known : ∀ m ∈ ms, m.1 ∈ names)
    (distinct : (ms.map Prod.fst).Nodup) (fit : membersFit depth ms) :
    (sourceOf (.object ms)).record? (depth + 1) names = some (ofMembers ms) := by
  have hfields := fields?_sourceOf names distinct
  have hvalues := mapM_knownSources fit known
  cases ms <;>
    · simp only [sourceOf] at hfields ⊢
      simp only [Source.record?, Nat.succ_ne_zero, if_false, hfields, Nat.add_sub_cancel, hvalues,
        Option.bind_eq_bind, Option.bind_some, pure]

/-- A record without unknown members is read in one pass as it was written. -/
theorem record?_sourceOf {depth : Nat} {names : List String} {ms : List (String × Json)}
    (h : Fits depth (.object ms)) (known : ∀ m ∈ ms, m.1 ∈ names) :
    (sourceOf (.object ms)).record? depth names = some (.object ms) := by
  obtain ⟨hdepth, hascending, hms⟩ := h
  have hrecord := record?_sourceOf_object known (nodup_of_ascending hascending) hms
  rwa [Nat.sub_add_cancel (Nat.pos_of_ne_zero hdepth), ofMembers_of_perm (.refl ms) hascending]
    at hrecord

end IstanbulMonitor.Json
