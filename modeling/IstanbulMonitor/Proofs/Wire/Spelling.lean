import IstanbulMonitor.Proofs.Json.Members
import IstanbulMonitor.Proofs.Json.Rendering
import IstanbulMonitor.Wire.Frame

/-!
# How a frame is written does not matter

A frame is an object, and what is made of it depends on the members with the five names of a frame
alone. They may stand in any order, with any blanks, and among members with any other names
(`Rewritten`); the answer is the same (`decode_rewritten`). Only the value of the result is kept
character for character. A name has to denote a string: with an escape that is half of a character
the frame is malformed, whatever the name may be (`decode_halfName`).
-/

set_option autoImplicit false

namespace IstanbulMonitor

namespace Json

/-- The members of an object in source form. -/
def Source.entries? : Source → Option (List Entry)
  | .object entries => some entries
  | .emptyObject _ => some []
  | _ => none

/-- A text that is an object with the given members, with blanks around it. -/
def IsObject (text : String) (entries : List Entry) : Prop :=
  ∃ item : Item, item.WellFormed ∧ item.value.entries? = some entries ∧
    text = String.ofList (itemChars item)

/-- Two members that differ in blanks only, and not within the value if that is to be kept. -/
structure Entry.Respaced (kept : String) (entry entry' : Entry) : Prop where
  stripped_eq : entry.stripped = entry'.stripped
  kept_eq : ∀ value, entry.parts? = some (kept, value) → entry'.parts? = some (kept, value)

theorem Source.stripped_eq_null {s : Source} : s.stripped = .null ↔ s = .null := by
  cases s <;> simp [Source.stripped]

end Json

namespace RemoteError

/-- Blanks in an error do not matter. -/
theorem ofSource?_stripped (depth : Nat) (s : Json.Source) :
    ofSource? depth s.stripped = ofSource? depth s := by
  rw [ofSource?, ofSource?, s.record?_stripped]

end RemoteError

namespace Frame

open Json

theorem sourceString?_stripped (s : Source) : sourceString? s.stripped = sourceString? s := by
  cases s <;> rfl

/-! ## Rewriting -/

/-- Two ways to write the members of a frame. -/
inductive Rewritten : List Entry → List Entry → Prop where
  /-- With other blanks, but not within the value of a result. -/
  | respaced {entries entries' : List Entry}
      (respaced : List.Forall₂ (Entry.Respaced "result") entries entries') :
      Rewritten entries entries'
  /-- In another order. -/
  | permuted {entries entries' : List Entry} (perm : entries.Perm entries') :
      Rewritten entries entries'
  /-- With one more member that has another name. -/
  | extended {entry : Entry} {name : String} {value : Source} (entries : List Entry)
      (parts : entry.parts? = some (name, value)) (unknown : name ∉ memberNames) :
      Rewritten entries (entry :: entries)
  | symm {entries entries' : List Entry} (h : Rewritten entries entries') :
      Rewritten entries' entries
  | trans {entries between entries' : List Entry} (h : Rewritten entries between)
      (h' : Rewritten between entries') : Rewritten entries entries'

/-- Two members that differ in blanks only, and not at all if they are results. -/
def SameMember (p p' : String × Source) : Prop := bare p = bare p' ∧ (p.1 = "result" → p = p')

theorem SameMember.name_eq {p p' : String × Source} (same : SameMember p p') : p.1 = p'.1 :=
  (Prod.mk.inj same.1).1

theorem SameMember.stripped_eq {p p' : String × Source} (same : SameMember p p') :
    p.2.stripped = p'.2.stripped :=
  (Prod.mk.inj same.1).2

/-- Two lists of members in which the same is found under each name. -/
def Alike (members members' : List (String × Source)) : Prop :=
  ∀ name, Option.Rel SameMember (members.find? (·.1 = name)) (members'.find? (·.1 = name))

variable {entries entries' : List Entry} {members members' : List (String × Source)}

theorem alike_of_forall₂ (same : List.Forall₂ SameMember members members') :
    Alike members members' := by
  intro name
  induction same with
  | nil => exact .none
  | @cons p p' members members' same _ ih =>
    rw [List.find?_cons, List.find?_cons, same.name_eq]
    cases decide (p'.1 = name) with
    | true => exact .some same
    | false => exact ih

theorem alike_of_perm (perm : members.Perm members') (distinct : (members.map Prod.fst).Nodup) :
    Alike members members' := by
  intro name
  rw [find?_perm perm distinct]
  cases members'.find? (·.1 = name) with
  | none => exact .none
  | some p => exact .some ⟨rfl, fun _ => rfl⟩

theorem namedMembers?_respaced
    (respaced : List.Forall₂ (Entry.Respaced "result") entries entries') :
    Option.Rel (List.Forall₂ SameMember) (namedMembers? entries) (namedMembers? entries') := by
  induction respaced with
  | nil => exact .some .nil
  | @cons entry entry' entries entries' respaced _ ih =>
    rw [namedMembers?_cons, namedMembers?_cons]
    have hparts : entry.parts?.map bare = entry'.parts?.map bare := by
      rw [← Entry.parts?_stripped, ← Entry.parts?_stripped, respaced.stripped_eq]
    have hkept := respaced.kept_eq
    revert ih hparts hkept
    generalize namedMembers? entries = members
    generalize namedMembers? entries' = members'
    rintro (same | _) hparts hkept
    · cases hp : entry.parts? with
      | none =>
        rw [hp] at hparts
        rw [Option.map_eq_none_iff.mp hparts.symm]
        exact .none
      | some p =>
        rw [hp] at hparts hkept
        obtain ⟨p', hp', hbare⟩ := Option.map_eq_some_iff.mp hparts.symm
        rw [hp']
        refine .some (.cons ⟨hbare.symm, ?_⟩ same)
        intro hresult
        have hkept := hkept p.2 (by rw [← hresult])
        rw [hp', ← hresult] at hkept
        exact (Option.some.inj hkept).symm
    · cases entry.parts? <;> cases entry'.parts? <;> exact .none

theorem names_eq_of_forall₂ (same : List.Forall₂ SameMember members members') :
    members.map Prod.fst = members'.map Prod.fst := by
  induction same with
  | nil => rfl
  | cons same _ ih => rw [List.map_cons, List.map_cons, ih, same.name_eq]

/-- Other blanks change nothing of what is found under the names of a frame. -/
theorem alike_of_respaced (respaced : List.Forall₂ (Entry.Respaced "result") entries entries') :
    Option.Rel Alike (knownMembers? memberNames entries) (knownMembers? memberNames entries') := by
  have hnamed := namedMembers?_respaced respaced
  rw [knownMembers?_eq, knownMembers?_eq]
  revert hnamed
  generalize namedMembers? entries = members
  generalize namedMembers? entries' = members'
  rintro (same | _)
  · next members members' =>
    have hknown : List.Forall₂ SameMember (members.filter (·.1 ∈ memberNames))
        (members'.filter (·.1 ∈ memberNames)) :=
      List.rel_filter (fun p p' h => by simp [h.name_eq]) same
    simp only [Option.bind_some, names_eq_of_forall₂ hknown]
    split
    · exact .some (alike_of_forall₂ hknown)
    · exact .none
  · exact .none

/-- Neither does another order. -/
theorem alike_of_permuted (perm : entries.Perm entries') :
    Option.Rel Alike (knownMembers? memberNames entries) (knownMembers? memberNames entries') := by
  have hnamed := namedMembers?_perm perm
  rw [knownMembers?_eq, knownMembers?_eq]
  revert hnamed
  generalize namedMembers? entries = members
  generalize namedMembers? entries' = members'
  rintro (perm | _)
  · next members members' =>
    have hknown := perm.filter (·.1 ∈ memberNames)
    simp only [Option.bind_some, ← (hknown.map Prod.fst).nodup_iff]
    split
    · next distinct => exact .some (alike_of_perm hknown distinct)
    · exact .none
  · exact .none

/-- A member with another name is not looked at. -/
theorem knownMembers?_extended {entry : Entry} {name : String} {value : Source}
    (parts : entry.parts? = some (name, value)) (unknown : name ∉ memberNames)
    (entries : List Entry) :
    knownMembers? memberNames (entry :: entries) = knownMembers? memberNames entries := by
  rw [knownMembers?, parts]
  simp only [unknown, if_false, Option.bind_eq_bind, Option.bind_some]
  exact Option.bind_fun_some _

/-! ## Reading the members -/

section Reading

variable {α : Type} {name : String} {read : Source → Option α}

theorem member?_of_none (absent : members.find? (·.1 = name) = none) :
    member? name read members = some none := by
  simp only [member?, absent]

theorem member?_of_null {p : String × Source} (found : members.find? (·.1 = name) = some p)
    (null : p.2 = .null) : member? name read members = some none := by
  obtain ⟨_, value⟩ := p
  obtain rfl : value = .null := null
  simp only [member?, found]

theorem member?_of_some {p : String × Source} (found : members.find? (·.1 = name) = some p)
    (value : p.2 ≠ .null) : member? name read members = (read p.2).map some := by
  obtain ⟨_, value⟩ := p
  simp only [member?, found]

/-- Readers that do not look at blanks find the same. -/
theorem Alike.member?_eq (alike : Alike members members')
    (blind : ∀ p p', p.1 = name → SameMember p p' → read p.2 = read p'.2) :
    member? name read members = member? name read members' := by
  have hfound := alike name
  cases found : members.find? (·.1 = name) with
  | none =>
    rw [found] at hfound
    generalize found' : members'.find? (·.1 = name) = other at hfound
    cases hfound
    rw [member?_of_none found, member?_of_none found']
  | some p =>
    rw [found] at hfound
    generalize found' : members'.find? (·.1 = name) = other at hfound
    rcases hfound with same | _
    · next p' =>
      have hname : p.1 = name := by simpa using List.find?_some found
      have hnull : p.2 = .null ↔ p'.2 = .null := by
        rw [← Source.stripped_eq_null, same.stripped_eq, Source.stripped_eq_null]
      by_cases null : p.2 = .null
      · rw [member?_of_null found null, member?_of_null found' (hnull.mp null)]
      · rw [member?_of_some found null, member?_of_some found' (mt hnull.mpr null),
          blind p p' hname same]

end Reading

/-- What is not changed by blanks is read alike. -/
theorem SameMember.read_eq {α : Type} {read : Source → Option α}
    (blind : ∀ s : Source, read s.stripped = read s) {p p' : String × Source}
    (same : SameMember p p') : read p.2 = read p'.2 := by
  rw [← blind p.2, same.stripped_eq, blind]

/-- Where the same is found under each name, the same frame is read. -/
theorem ofSource?_congr
    (same : Option.Rel Alike (knownMembers? memberNames entries)
      (knownMembers? memberNames entries')) :
    Members.ofSource? (.object entries) = Members.ofSource? (.object entries') := by
  simp only [Members.ofSource?, Source.fields?]
  revert same
  generalize knownMembers? memberNames entries = members
  generalize knownMembers? memberNames entries' = members'
  rintro (alike | _)
  · simp only [Option.bind_eq_bind, Option.bind_some]
    rw [alike.member?_eq fun p p' _ same => same.read_eq (Source.value?_stripped _),
      alike.member?_eq fun p p' _ same => same.read_eq sourceString?_stripped,
      alike.member?_eq fun p p' _ same => same.read_eq (Source.value?_stripped _),
      alike.member?_eq fun p p' hname same => by rw [same.2 hname],
      alike.member?_eq fun p p' _ same => same.read_eq (RemoteError.ofSource?_stripped _)]
  · rfl

theorem Rewritten.ofSource?_eq (h : Rewritten entries entries') :
    Members.ofSource? (.object entries) = Members.ofSource? (.object entries') := by
  induction h with
  | respaced respaced => exact ofSource?_congr (alike_of_respaced respaced)
  | permuted perm => exact ofSource?_congr (alike_of_permuted perm)
  | extended entries parts unknown =>
    simp only [Members.ofSource?, Source.fields?, knownMembers?_extended parts unknown]
  | symm _ ih => exact ih.symm
  | trans _ _ ih ih' => exact ih.trans ih'

/-! ## Decoding -/

theorem ofSource?_of_entries? {s : Source} (h : s.entries? = some entries) :
    Members.ofSource? s = Members.ofSource? (.object entries) := by
  cases s <;> cases h <;> rfl

/-- An object is decoded by its members. -/
theorem decode_object {text : String} (object : IsObject text entries) :
    decode text = match Members.ofSource? (.object entries) with
      | some m => m.classify
      | none => .error .malformed := by
  obtain ⟨item, wellFormed, hentries, rfl⟩ := object
  have read : (Source.read? (String.ofList (itemChars item))).bind Members.ofSource? =
      Members.ofSource? (.object entries) := by
    rw [Source.read?_itemChars wellFormed, Option.bind_some, ofSource?_of_entries? hentries]
  rw [decode]
  generalize (Source.read? _).bind Members.ofSource? = members at read ⊢
  cases read
  cases Members.ofSource? (.object entries) <;> rfl

/-- What is read of the members of a frame, one after another. -/
theorem ofSource?_eq_some_iff {m : Members} :
    Members.ofSource? (.object entries) = some m ↔
      ∃ members, knownMembers? memberNames entries = some members ∧
        member? "id" (·.value? 126) members = some m.id ∧
        member? "method" sourceString? members = some m.method ∧
        member? "params" (·.value? 126) members = some m.params ∧
        member? "result" (fun value => some value.text) members = some m.result ∧
        member? "error" (RemoteError.ofSource? 126) members = some m.error := by
  obtain ⟨id, method, params, result, error⟩ := m
  simp only [Members.ofSource?, Source.fields?, maxDepth, Option.bind_eq_bind,
    Option.bind_eq_some_iff, Option.pure_def, Option.some.injEq, Members.mk.injEq]
  constructor
  · rintro ⟨members, known, _, hid, _, hmethod, _, hparams, _, hresult, _, herror, rfl, rfl, rfl,
      rfl, rfl⟩
    exact ⟨members, known, hid, hmethod, hparams, hresult, herror⟩
  · rintro ⟨members, known, hid, hmethod, hparams, hresult, herror⟩
    exact ⟨members, known, _, hid, _, hmethod, _, hparams, _, hresult, _, herror, rfl, rfl, rfl,
      rfl, rfl⟩

/-- A member with one of the five names is found in a frame that is read. -/
theorem find?_known (known : knownMembers? memberNames entries = some members) {entry : Entry}
    {name : String} {value : Source} (mem : entry ∈ entries)
    (parts : entry.parts? = some (name, value)) (hname : name ∈ memberNames) :
    members.find? (·.1 = name) = some (name, value) := by
  rw [knownMembers?_eq] at known
  obtain ⟨named, hnamed, known⟩ := Option.bind_eq_some_iff.mp known
  split at known
  · next distinct =>
    cases known
    refine (find?_eq_some_iff distinct).mpr ⟨?_, rfl⟩
    exact List.mem_filter.mpr ⟨(mem_namedMembers? hnamed).mpr ⟨entry, mem, parts⟩, by simpa⟩
  · cases known

/-- The text of a result is what its response is answered with. -/
theorem result_eq_text {m : Members} {entry : Entry} {value : Source}
    (read : Members.ofSource? (.object entries) = some m) (mem : entry ∈ entries)
    (parts : entry.parts? = some ("result", value)) : m.result.getD "null" = value.text := by
  obtain ⟨members, known, -, -, -, hresult, -⟩ := ofSource?_eq_some_iff.mp read
  have found := find?_known known mem parts (by decide)
  by_cases null : value = .null
  · rw [member?_of_null found null] at hresult
    rw [← Option.some.inj hresult, null]
    rfl
  · rw [member?_of_some found null] at hresult
    rw [← Option.some.inj hresult]
    rfl

/-- A response that succeeds has the result that was read. -/
theorem outcome_of_classify {m : Members} {id : UInt64} {text : String}
    (answered : m.classify = .ok (.response id (.ok text))) : text = m.result.getD "null" := by
  obtain ⟨_ | value, _ | method, params, result, error⟩ := m
  · cases error <;> cases answered
  · simp only [Members.classify] at answered
    split at answered <;> cases answered
  · simp only [Members.classify, bind, Except.bind, pure, Except.pure] at answered
    cases hid : callId value with
    | error e =>
      rw [hid] at answered
      cases answered
    | ok n =>
      rw [hid] at answered
      cases error <;> cases answered
      rfl
  · simp only [Members.classify, bind, Except.bind, pure, Except.pure] at answered
    cases hid : callId value <;> (rw [hid] at answered; cases answered)

/-- A frame with a name that denotes no string is not read. -/
theorem ofSource?_of_nameless {entry : Entry} (mem : entry ∈ entries)
    (nameless : entry.parts? = none) : Members.ofSource? (.object entries) = none := by
  have hnamed : namedMembers? entries = none := by
    induction entries with
    | nil => exact absurd mem List.not_mem_nil
    | cons first entries ih =>
      rw [namedMembers?_cons]
      rcases List.mem_cons.mp mem with rfl | mem
      · rw [nameless]
        rfl
      · rw [ih mem]
        exact Option.bind_fun_none _
  simp only [Members.ofSource?, Source.fields?, knownMembers?_eq, hnamed]
  rfl

/-! ## The main theorem -/

/-- **How a frame is written does not matter.** Of two texts that write the same frame in different
ways the same is made. If that is a response that succeeds, and the frame has a result, then it is
answered with the text of that result, character for character. A frame with a name that denotes no
string is malformed. -/
theorem decode_rewritten {text text' : String} (object : IsObject text entries)
    (object' : IsObject text' entries') (rewritten : Rewritten entries entries') :
    decode text = decode text' ∧
      (∀ id outcome, decode text = .ok (.response id (.ok outcome)) → ∀ entry ∈ entries, ∀ value,
        entry.parts? = some ("result", value) → outcome = value.text) ∧
      ∀ entry ∈ entries, entry.parts? = none → decode text = .error .malformed := by
  refine ⟨?_, ?_, ?_⟩
  · rw [decode_object object, decode_object object', rewritten.ofSource?_eq]
  · intro id outcome answered entry mem value parts
    rw [decode_object object] at answered
    cases read : Members.ofSource? (.object entries) with
    | none =>
      rw [read] at answered
      cases answered
    | some m =>
      rw [read] at answered
      rw [outcome_of_classify answered, result_eq_text read mem parts]
  · intro entry mem nameless
    rw [decode_object object, ofSource?_of_nameless mem nameless]

/-- A member with a blank, or with none, wherever one may stand. -/
def spaced (blank : Blank) (name : String) (value : Source) : Entry :=
  .mk blank (name.toList.map pieceOf) blank (.mk blank value blank)

theorem parts?_spaced (blank : Blank) (name : String) (value : Source) :
    (spaced blank name value).parts? = some (name, value) := by
  simp [spaced, Entry.parts?, decodeBody_map_pieceOf, Item.value]

theorem wellFormed_spaced {blank : Blank} (hblank : IsBlank blank) (name : String) {value : Source}
    (h : value.WellFormed) : (spaced blank name value).WellFormed :=
  ⟨hblank, wellFormed_map_pieceOf _, hblank, hblank, h, hblank⟩

theorem respaced_spaced (kept : String) (blank blank' : Blank) (name : String) (value : Source) :
    (spaced blank name value).Respaced kept (spaced blank' name value) where
  stripped_eq := rfl
  kept_eq := by
    rw [parts?_spaced, parts?_spaced]
    exact fun _ h => h

theorem isBlank_space : IsBlank [' '] := by
  intro c mem
  cases List.mem_singleton.mp mem
  rfl

/-- The number one. -/
def oneSource : Source := sourceOf (.nat 1)

/-- A list with a blank and an escape that need not be there. -/
def listSource : Source :=
  .array [.mk [] oneSource [], .mk [' '] (.string [.unit '0' '0' '4' '1']) []]

theorem wellFormed_oneSource : oneSource.WellFormed := wellFormed_numeral_int 1

theorem wellFormed_listSource : listSource.WellFormed := by
  refine ⟨List.cons_ne_nil _ _, ⟨isBlank_nil, wellFormed_oneSource, isBlank_nil⟩,
    ⟨isBlank_space, ?_, isBlank_nil⟩, trivial⟩
  intro p mem
  cases List.mem_singleton.mp mem
  exact ⟨rfl, rfl, rfl, rfl⟩

/-- The id and the text of a response that succeeds. -/
def success? : Except FrameError Frame → Option (UInt64 × String)
  | .ok (.response id (.ok text)) => some (id, text)
  | _ => none

/-- The members stand in the other order, with blanks, and with one more between them. The result
keeps its blank and its escape. -/
theorem decode_respaced :
    let text := "\x7b\"id\":1,\"result\":[1, \"\\u0041\"]\x7d"
    let text' :=
      "\x7b \"result\" : [1, \"\\u0041\"] , \"jsonrpc\" : \"2.0\" , \"id\" : 1 \x7d"
    let entries := [spaced [] "id" oneSource, spaced [] "result" listSource]
    let entries' := [spaced [' '] "result" listSource,
      spaced [' '] "jsonrpc" (.string ("2.0".toList.map pieceOf)), spaced [' '] "id" oneSource]
    IsObject text entries ∧ IsObject text' entries' ∧ Rewritten entries entries' ∧
      decode text = decode text' ∧
      success? (decode text') = some (1, "[1, \"\\u0041\"]") := by
  intro text text' entries entries'
  have object : IsObject text entries := by
    refine ⟨.mk [] (.object entries) [], ⟨isBlank_nil, ⟨List.cons_ne_nil _ _, ?_, ?_, trivial⟩,
      isBlank_nil⟩, rfl, by decide +kernel⟩
    · exact wellFormed_spaced isBlank_nil "id" wellFormed_oneSource
    · exact wellFormed_spaced isBlank_nil "result" wellFormed_listSource
  have object' : IsObject text' entries' := by
    refine ⟨.mk [] (.object entries') [], ⟨isBlank_nil, ⟨List.cons_ne_nil _ _, ?_, ?_, ?_, trivial⟩,
      isBlank_nil⟩, rfl, by decide +kernel⟩
    · exact wellFormed_spaced isBlank_space "result" wellFormed_listSource
    · exact wellFormed_spaced isBlank_space "jsonrpc" (wellFormed_map_pieceOf _)
    · exact wellFormed_spaced isBlank_space "id" wellFormed_oneSource
  have extended : Rewritten entries
      (spaced [' '] "jsonrpc" (.string ("2.0".toList.map pieceOf)) :: entries) :=
    .extended entries (parts?_spaced _ _ _) (by decide)
  have permuted : Rewritten (spaced [' '] "jsonrpc" (.string ("2.0".toList.map pieceOf)) :: entries)
      [spaced [] "result" listSource, spaced [' '] "jsonrpc" (.string ("2.0".toList.map pieceOf)),
        spaced [] "id" oneSource] :=
    .permuted ((List.Perm.swap _ _ _).cons _ |>.trans (.swap _ _ _))
  have respaced : Rewritten
      [spaced [] "result" listSource, spaced [' '] "jsonrpc" (.string ("2.0".toList.map pieceOf)),
        spaced [] "id" oneSource] entries' :=
    .respaced (.cons (respaced_spaced _ _ _ _ _) (.cons (respaced_spaced _ _ _ _ _)
      (.cons (respaced_spaced _ _ _ _ _) .nil)))
  have rewritten := extended.trans (permuted.trans respaced)
  exact ⟨object, object', rewritten, (decode_rewritten object object' rewritten).1,
    by decide +kernel⟩

/-- One more member with another name may change what is made of a frame: its name may denote no
string, since it is half of a character. -/
theorem decode_halfName :
    ¬ ∀ (text text' : String) (entries : List Entry) (entry : Entry), IsObject text entries →
      IsObject text' (entry :: entries) →
      (entry :: entries).Pairwise (fun e e' => e.parts?.map Prod.fst ≠ e'.parts?.map Prod.fst) →
      (∀ name ∈ memberNames, ∀ value, entry.parts? ≠ some (name, value)) →
      decode text = decode text' := by
  intro claim
  let entries := [spaced [] "id" oneSource, spaced [] "result" oneSource]
  let entry : Entry := .mk [] [.unit 'd' '8' '0' '0'] [] (.mk [] oneSource [])
  have hid := wellFormed_spaced isBlank_nil "id" wellFormed_oneSource
  have hresult := wellFormed_spaced isBlank_nil "result" wellFormed_oneSource
  have hentry : entry.WellFormed := by
    refine ⟨isBlank_nil, ?_, isBlank_nil, isBlank_nil, wellFormed_oneSource, isBlank_nil⟩
    intro p mem
    cases List.mem_singleton.mp mem
    exact ⟨rfl, rfl, rfl, rfl⟩
  have same := claim "\x7b\"id\":1,\"result\":1\x7d"
    "\x7b\"\\ud800\":1,\"id\":1,\"result\":1\x7d" entries entry
    ⟨.mk [] (.object entries) [],
      ⟨isBlank_nil, ⟨List.cons_ne_nil _ _, hid, hresult, trivial⟩, isBlank_nil⟩, rfl,
      by decide +kernel⟩
    ⟨.mk [] (.object (entry :: entries)) [],
      ⟨isBlank_nil, ⟨List.cons_ne_nil _ _, hentry, hid, hresult, trivial⟩, isBlank_nil⟩, rfl,
      by decide +kernel⟩
    (by decide +kernel) (fun name _ value h => by cases h)
  exact absurd (congrArg success? same) (by decide +kernel)

end Frame

end IstanbulMonitor
