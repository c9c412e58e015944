import IstanbulMonitor.Proofs.Session.Verdicts
import IstanbulMonitor.Proofs.Wire.Frame
import IstanbulMonitor.Proofs.Wire.Spelling

/-!
# Which answers reach their calls

A text answers a call if it is an object with the id of the call and without a method
(`Frame.Answers`). It is read as a response to that call, or not at all: the parameters, which a
response has no use for, and the error have to be readable before the id counts
(`Frame.decode_answers`). So a pending call is answered with the result, or with an error that has a
code and a message, and every other text that answers it is skipped (`Session.reaches_run`). A node
that gives its error as a string leaves the call to time out (`Session.unanswered_errorString`).
-/

set_option autoImplicit false

namespace IstanbulMonitor

namespace Frame

open Json

/-! ## Answers in source form -/

/-- The value under a name. Null stands for its absence. -/
def valueOf (name : String) (members : List (String × Source)) : Source :=
  ((members.find? (·.1 = name)).map Prod.snd).getD .null

/-- A text that answers the call with an id: an object whose names are distinct strings, with that
id, and without a method. -/
structure Answers (id : UInt64) (text : String) (members : List (String × Source)) : Prop where
  object : ∃ entries, IsObject text entries ∧ namedMembers? entries = some members
  distinct : (members.map Prod.fst).Nodup
  id_eq : (valueOf "id" members).value? 126 = some (.word id)
  method_eq : valueOf "method" members = .null

variable {members : List (String × Source)} {α : Type} {name : String} {read : Source → Option α}

theorem valueOf_filter {names : List String} (known : name ∈ names) :
    valueOf name (members.filter (·.1 ∈ names)) = valueOf name members := by
  have hfind : (members.filter (·.1 ∈ names)).find? (·.1 = name) =
      members.find? (·.1 = name) := by
    rw [List.find?_filter]
    refine congrArg (List.find? · members) (funext fun p => ?_)
    by_cases hp : p.1 = name <;> simp [hp, known]
  rw [valueOf, hfind, valueOf]

theorem member?_of_valueOf_null (null : valueOf name members = .null) :
    member? name read members = some none := by
  cases found : members.find? (·.1 = name) with
  | none => exact member?_of_none found
  | some p =>
    rw [valueOf, found] at null
    exact member?_of_null found null

theorem member?_of_valueOf (value : valueOf name members ≠ .null) :
    member? name read members = (read (valueOf name members)).map some := by
  cases found : members.find? (·.1 = name) with
  | none =>
    rw [valueOf, found] at value
    exact absurd rfl value
  | some p =>
    have hp : valueOf name members = p.2 := by
      rw [valueOf, found]
      rfl
    rw [hp] at value ⊢
    exact member?_of_some found value

/-- What the members of an answer report. The parameters and the error have to be readable, and an
error counts before a result. -/
def outcomeOf? (members : List (String × Source)) : Option Outcome :=
  match (valueOf "params" members).value? 126, valueOf "error" members with
  | none, _ => none
  | some _, .null => some (.ok (valueOf "result" members).text)
  | some _, error => (RemoteError.ofSource? 126 error).map .error

theorem outcomeOf?_of_unread (unread : (valueOf "params" members).value? 126 = none) :
    outcomeOf? members = none := by
  simp only [outcomeOf?, unread]

theorem outcomeOf?_of_null (readable : ((valueOf "params" members).value? 126).isSome)
    (null : valueOf "error" members = .null) :
    outcomeOf? members = some (.ok (valueOf "result" members).text) := by
  obtain ⟨params, hparams⟩ := Option.isSome_iff_exists.mp readable
  simp only [outcomeOf?, hparams, null]

theorem outcomeOf?_of_error (readable : ((valueOf "params" members).value? 126).isSome)
    (error : valueOf "error" members ≠ .null) :
    outcomeOf? members = (RemoteError.ofSource? 126 (valueOf "error" members)).map .error := by
  obtain ⟨params, hparams⟩ := Option.isSome_iff_exists.mp readable
  simp only [outcomeOf?, hparams]

/-- A value that is read, if it is not null. -/
theorem exists_member? (readable : valueOf name members ≠ .null →
    (read (valueOf name members)).isSome) : ∃ a, member? name read members = some a := by
  by_cases null : valueOf name members = .null
  · exact ⟨none, member?_of_valueOf_null null⟩
  · obtain ⟨a, ha⟩ := Option.isSome_iff_exists.mp (readable null)
    refine ⟨some a, ?_⟩
    rw [member?_of_valueOf null, ha]
    rfl

/-- A result is kept as its text. -/
theorem exists_member?_text (members : List (String × Source)) :
    ∃ result, member? "result" (fun value => some value.text) members = some result ∧
      result.getD "null" = (valueOf "result" members).text := by
  by_cases null : valueOf "result" members = .null
  · refine ⟨none, member?_of_valueOf_null null, ?_⟩
    rw [null]
    rfl
  · exact ⟨_, member?_of_valueOf null, rfl⟩

/-- Only what is readable is read. -/
theorem isSome_of_member? {a : Option α} (hread : member? name read members = some a)
    (value : valueOf name members ≠ .null) : (read (valueOf name members)).isSome := by
  rw [member?_of_valueOf value] at hread
  obtain ⟨b, hb, -⟩ := Option.map_eq_some_iff.mp hread
  rw [hb]
  rfl

section Known

variable {entries : List Entry} {id : UInt64}
  (known : knownMembers? memberNames entries = some members)
include known

/-- Parameters that cannot be read keep the frame from being read. -/
theorem ofSource?_of_unread_params (unread : (valueOf "params" members).value? 126 = none) :
    Members.ofSource? (.object entries) = none := by
  refine Option.eq_none_iff_forall_ne_some.mpr fun m read => ?_
  obtain ⟨_, known', -, -, hparams, -, -⟩ := ofSource?_eq_some_iff.mp read
  cases known.symm.trans known'
  have readable := isSome_of_member? hparams (by
    intro null
    rw [null] at unread
    cases unread)
  rw [unread] at readable
  cases readable

/-- So does an error that cannot be read. -/
theorem ofSource?_of_unread_error (value : valueOf "error" members ≠ .null)
    (unread : RemoteError.ofSource? 126 (valueOf "error" members) = none) :
    Members.ofSource? (.object entries) = none := by
  refine Option.eq_none_iff_forall_ne_some.mpr fun m read => ?_
  obtain ⟨_, known', -, -, -, -, herror⟩ := ofSource?_eq_some_iff.mp read
  cases known.symm.trans known'
  have readable := isSome_of_member? herror value
  rw [unread] at readable
  cases readable

/-- A frame with the id of a call and without a method is read up to its error. -/
theorem exists_ofSource? (hid : (valueOf "id" members).value? 126 = some (.word id))
    (hmethod : valueOf "method" members = .null)
    (readable : ((valueOf "params" members).value? 126).isSome) {error : Option RemoteError}
    (herror : member? "error" (RemoteError.ofSource? 126) members = some error) :
    ∃ params result, Members.ofSource? (.object entries) =
        some ⟨some (.word id), none, params, result, error⟩ ∧
      result.getD "null" = (valueOf "result" members).text := by
  have value : valueOf "id" members ≠ .null := by
    intro null
    rw [null] at hid
    cases hid
  have hidRead : member? "id" (·.value? 126) members = some (some (.word id)) := by
    rw [member?_of_valueOf value, hid]
    rfl
  obtain ⟨params, hparams⟩ : ∃ params, member? "params" (·.value? 126) members = some params :=
    exists_member? fun _ => readable
  obtain ⟨result, hresult, htext⟩ := exists_member?_text members
  exact ⟨params, result, ofSource?_eq_some_iff.mpr ⟨members, known, hidRead,
    member?_of_valueOf_null hmethod, hparams, hresult, herror⟩, htext⟩

end Known

/-- An answer is read as a response to its call, or not at all. -/
theorem decode_answers {id : UInt64} {text : String} (answers : Answers id text members) :
    decode text = match outcomeOf? members with
      | some outcome => .ok (.response id outcome)
      | none => .error .malformed := by
  obtain ⟨⟨entries, object, named⟩, distinct, hid, hmethod⟩ := answers
  have known : knownMembers? memberNames entries =
      some (members.filter (·.1 ∈ memberNames)) := by
    rw [knownMembers?_eq, named, Option.bind_some,
      if_pos (distinct.sublist (List.filter_sublist.map _))]
  have hvalue : ∀ {name}, name ∈ memberNames →
      valueOf name (members.filter (·.1 ∈ memberNames)) = valueOf name members := valueOf_filter
  -- what the members with the five names report is what all of them do
  have houtcome : outcomeOf? (members.filter (·.1 ∈ memberNames)) = outcomeOf? members := by
    unfold outcomeOf?
    rw [hvalue (by decide), hvalue (by decide), hvalue (by decide)]
  rw [← hvalue (by decide)] at hid hmethod
  rw [decode_object object, ← houtcome]
  generalize members.filter (·.1 ∈ memberNames) = found at known hid hmethod
  cases hparams : (valueOf "params" found).value? 126 with
  | none => rw [ofSource?_of_unread_params known hparams, outcomeOf?_of_unread hparams]
  | some value =>
    have readable : ((valueOf "params" found).value? 126).isSome := by
      rw [hparams]
      rfl
    by_cases null : valueOf "error" found = .null
    · obtain ⟨params, result, read, htext⟩ :=
        exists_ofSource? known hid hmethod readable (member?_of_valueOf_null null)
      rw [read, outcomeOf?_of_null readable null, ← htext]
      exact classify_response (callId_word id) params result none
    · rw [outcomeOf?_of_error readable null]
      cases herror : RemoteError.ofSource? 126 (valueOf "error" found) with
      | none =>
        rw [ofSource?_of_unread_error known null herror]
        rfl
      | some e =>
        have given : member? "error" (RemoteError.ofSource? 126) found = some (some e) := by
          rw [member?_of_valueOf null, herror]
          rfl
        obtain ⟨params, result, read, -⟩ := exists_ofSource? known hid hmethod readable given
        rw [read]
        exact classify_response (callId_word id) params result (some e)

/-- The members of an object in the source form in which they are written. -/
def writtenMembers (ms : List (String × Json)) : List (String × Source) :=
  ms.map fun m => (m.1, sourceOf m.2)

theorem namedMembers?_entriesOf (ms : List (String × Json)) :
    namedMembers? (entriesOf ms) = some (writtenMembers ms) := by
  induction ms with
  | nil => rfl
  | cons m ms ih =>
    rw [entriesOf, namedMembers?_cons, parts?_entryOf, ih]
    rfl

theorem isObject_render {ms : List (String × Json)} (h : Fits maxDepth (.object ms)) :
    IsObject (Json.object ms).render (entriesOf ms) := by
  refine ⟨.mk [] (sourceOf (.object ms)) [], ⟨isBlank_nil, wellFormed_sourceOf _ h, isBlank_nil⟩,
    ?_, ?_⟩
  · cases ms <;> rfl
  · rw [← text_sourceOf h, itemChars, List.append_nil]
    rfl

theorem valueOf_writtenMembers (name : String) (ms : List (String × Json)) :
    valueOf name (writtenMembers ms) = ((lookup name ms).map sourceOf).getD .null := by
  induction ms with
  | nil => rfl
  | cons m ms ih =>
    rw [valueOf, writtenMembers, List.map_cons, List.find?_cons, lookup]
    by_cases hname : m.1 = name
    · simp [hname]
    · simp only [hname, Ne.symm hname, decide_false, if_false]
      exact ih

/-- An object with the id of a call and without a method answers the call as it is written. -/
theorem answers_render {ms : List (String × Json)} (h : Fits maxDepth (.object ms)) {id : UInt64}
    (hid : lookup "id" ms = some (.word id)) (hmethod : lookup "method" ms = none) :
    Answers id (Json.object ms).render (writtenMembers ms) where
  object := ⟨_, isObject_render h, namedMembers?_entriesOf ms⟩
  distinct := by
    have hnames : (writtenMembers ms).map Prod.fst = ms.map Prod.fst := by
      rw [writtenMembers, List.map_map]
      rfl
    rw [hnames]
    exact nodup_of_ascending h.2.1
  id_eq := by
    rw [valueOf_writtenMembers, hid]
    exact value?_sourceOf _ (show IsWord id.toNat from isWord_toNat id)
  method_eq := by
    rw [valueOf_writtenMembers, hmethod]
    rfl

end Frame

/-! ## Pending calls -/

/-- A call that was pending is answered: its entry is gone, and its caller finds the outcome in its
mailbox. The other calls are left as they were. -/
structure Ledger.Answered (l l' : Ledger) (id : UInt64) (outcome : Outcome) : Prop where
  gone : ¬ l'.IsPending id
  waits : ∃ c ∈ l'.callers, c.id = id
  told : ∀ c ∈ l'.callers, c.id = id → c.mail = some (outcome.mapError .remote)
  pending : ∀ other, other ≠ id → (l'.IsPending other ↔ l.IsPending other)
  callers : ∀ c, c.id ≠ id → (c ∈ l'.callers ↔ c ∈ l.callers)

/-- Taking the entry of a call out and filling the mailbox of its caller answers it. -/
theorem Ledger.answered_post {l : Ledger} {id : UInt64} (outcome : Outcome)
    (subscriptions : List (String × UInt64)) (waits : ∃ c ∈ l.callers, c.id = id) :
    l.Answered (((l.strike id).keep subscriptions).post [id] (outcome.mapError .remote)) id
      outcome where
  gone pending := ((isPending_strike id).mp pending).2 rfl
  waits := by
    obtain ⟨c, mem, rfl⟩ := waits
    exact ⟨_, mem_callers_post.mpr ⟨c, mem, rfl⟩, by simp⟩
  told c mem hid := by
    obtain ⟨b, -, rfl⟩ := mem_callers_post.mp mem
    by_cases hb : b.id = id
    · simp [hb]
    · simp only [List.mem_singleton, hb, if_false] at hid
  pending other hne := (isPending_strike other).trans (and_iff_left hne)
  callers c hne := by
    constructor
    · intro mem
      obtain ⟨b, hb, rfl⟩ := mem_callers_post.mp mem
      by_cases hid : b.id = id
      · simp [hid] at hne
      · simp only [List.mem_singleton, hid, if_false]
        exact hb
    · intro mem
      exact mem_callers_post.mpr ⟨c, mem, by simp [hne]⟩

/-- The response to a pending call answers it. -/
theorem Ledger.Change.answered {l l' : Ledger} {e : SessionEvent} {id : UInt64} {outcome : Outcome}
    (hchange : l.Change e l') (response : e.response? = some (id, outcome))
    (isOpen : l.termination = none) (manned : l.Manned) (pending : l.IsPending id) :
    l.Answered l' id outcome := by
  cases hchange with
  | rest noCall idle fewer =>
    rcases idle id outcome response with closed | gone
    · rw [isOpen] at closed
      cases closed
    · exact absurd pending gone
  | @resolve _ other reported subscriptions response' pending' known =>
    obtain ⟨rfl, rfl⟩ := Prod.mk.inj (Option.some.inj (response.symm.trans response'))
    exact Ledger.answered_post outcome subscriptions (manned.manned id pending)
  | conclude noCall noResponse =>
    rw [response] at noResponse
    cases noResponse
  | fail noCall noResponse =>
    rw [response] at noResponse
    cases noResponse
  | terminate noCall noResponse =>
    rw [response] at noResponse
    cases noResponse
  | _ => cases response

namespace Session

open Json IstanbulMonitor.Frame

variable {s : Session} {id : UInt64} {text : String} {members : List (String × Source)}

/-- What becomes of a text that answers a pending call. -/
structure Reaches (s : Session) (id : UInt64) (text : String)
    (members : List (String × Source)) : Prop where
  /-- Without an error the call is answered with the text of the result; that is null if there is
  none. -/
  result : ((valueOf "params" members).value? 126).isSome → valueOf "error" members = .null →
    s.ledger.Answered (s.dispatch text).ledger id (.ok (valueOf "result" members).text)
  /-- With an error that has a code and a message it is answered with this error. -/
  error : ((valueOf "params" members).value? 126).isSome → valueOf "error" members ≠ .null →
    ∀ e, RemoteError.ofSource? 126 (valueOf "error" members) = some e →
      s.ledger.Answered (s.dispatch text).ledger id (.error e)
  /-- With an error of another form, or with parameters that are not read, it is not answered: the
  text is skipped with a warning. -/
  lost : ((valueOf "params" members).value? 126 = none ∨ valueOf "error" members ≠ .null ∧
      RemoteError.ofSource? 126 (valueOf "error" members) = none) →
    s.dispatch text = s.warn .undecodableFrame

/-- An open session takes in what a text reports to a pending call. -/
theorem answered_dispatch (isOpen : s.termination = none) (manned : s.ledger.Manned)
    (pending : s.ledger.IsPending id) (answers : Answers id text members) {outcome : Outcome}
    (reported : outcomeOf? members = some outcome) :
    s.ledger.Answered (s.dispatch text).ledger id outcome := by
  refine (change_dispatch text).answered ?_ isOpen manned pending
  simp only [SessionEvent.response?, decode_answers answers, reported]

theorem dispatch_of_unread (isOpen : s.termination = none) (answers : Answers id text members)
    (unread : outcomeOf? members = none) : s.dispatch text = s.warn .undecodableFrame := by
  have hopen : s.isClosed = false := by
    rw [isClosed, isOpen]
    rfl
  simp only [dispatch, hopen, Bool.false_eq_true, if_false, decode_answers answers, unread]

/-- **Which answers reach their calls.** A text that answers a pending call is an object with its
id. Whatever other members it has, in whatever order and with whatever blanks, the call is answered
with the result or with the error, if the error is an object with a code and a message, or an array
of these. If it is anything else, or if there are parameters that cannot be read, the text is
skipped, and the call stays pending. It is assumed that no object starts with the member name that
is kept for raw texts. -/
theorem reaches_run (buffer : Nat) (events : List SessionEvent)
    (pending : ((fresh buffer).run events).ledger.IsPending id)
    (answers : Answers id text members) : Reaches ((fresh buffer).run events) id text members := by
  -- a session that is over has no pending calls
  obtain ⟨isOpen, manned⟩ : ((fresh buffer).run events).termination = none ∧
      ((fresh buffer).run events).ledger.Manned := by
    rcases open_or_over_run buffer events with running | ⟨cause, lost, gone⟩
    · exact running
    · obtain ⟨call, mem, -⟩ := pending
      rw [show ((fresh buffer).run events).ledger.calls = [] from gone.calls] at mem
      exact absurd mem List.not_mem_nil
  refine ⟨?_, ?_, ?_⟩
  · intro readable null
    exact answered_dispatch isOpen manned pending answers (outcomeOf?_of_null readable null)
  · intro readable value e herror
    refine answered_dispatch isOpen manned pending answers ?_
    rw [outcomeOf?_of_error readable value, herror]
    rfl
  · intro unread
    refine dispatch_of_unread isOpen answers ?_
    cases hparams : (valueOf "params" members).value? 126 with
    | none => exact outcomeOf?_of_unread hparams
    | some params =>
      rcases unread with unread | ⟨value, unread⟩
      · rw [hparams] at unread
        cases unread
      · rw [outcomeOf?_of_error (by rw [hparams]; rfl) value, unread]
        rfl

/-- An error of any form answers the first call as it is written. -/
theorem answers_error {error : Json} (h : Fits 126 error) :
    let ms := [("error", error), ("id", .word 1)]
    Answers 1 (Json.object ms).render (writtenMembers ms) := by
  intro ms
  have names : (ms.map Prod.fst).Pairwise (· < ·) := by
    show (["error", "id"] : List String).Pairwise (· < ·)
    decide
  have fits : Fits maxDepth (.object ms) := ⟨by decide, names, h, isWord_toNat 1, trivial⟩
  exact answers_render fits rfl rfl

/-- A session with one call, whose frame is on its way. -/
def asking : List SessionEvent := [.called "m" .structured (.ofSeconds 1), .accepted 1]

theorem isPending_asking : ((fresh 1).run asking).ledger.IsPending 1 :=
  ⟨⟨1, "m", false⟩, List.mem_singleton_self _, rfl⟩

/-- An error with a code and a message reaches its call. -/
theorem reaches_errorObject :
    let e : RemoteError := ⟨-32000, "boom", none⟩
    let ms := [("error", e.toJson), ("id", .word 1)]
    let s := (fresh 1).run asking
    s.ledger.IsPending 1 ∧ Answers 1 (Json.object ms).render (writtenMembers ms) ∧
      Reaches s 1 (Json.object ms).render (writtenMembers ms) ∧
      s.ledger.Answered (s.dispatch (Json.object ms).render).ledger 1 (.error e) := by
  intro e ms s
  have carried : e.Carried 125 := ⟨by decide, fun value mem => by cases mem⟩
  have answers : Answers 1 (Json.object ms).render (writtenMembers ms) :=
    answers_error carried.fits
  have reaches := reaches_run 1 asking isPending_asking answers
  have value : valueOf "error" (writtenMembers ms) = sourceOf e.toJson := rfl
  have read : RemoteError.ofSource? 126 (valueOf "error" (writtenMembers ms)) = some e :=
    carried.ofSource?_sourceOf
  refine ⟨isPending_asking, answers, reaches, reaches.error rfl ?_ e read⟩
  rw [value, RemoteError.toJson_eq]
  exact Source.noConfusion

/-- An error that is a string does not: the call stays pending until it times out. -/
theorem unanswered_errorString :
    let ms := [("error", Json.string "boom"), ("id", .word 1)]
    let s := (fresh 1).run asking
    s.ledger.IsPending 1 ∧ Answers 1 (Json.object ms).render (writtenMembers ms) ∧
      valueOf "error" (writtenMembers ms) ≠ .null ∧
      (s.dispatch (Json.object ms).render).ledger.IsPending 1 ∧
      (s.run [.textArrived (Json.object ms).render, .expired 1]).ended.map
        (fun a => (a.1, outcome a.2)) = [(1, "timeout")] := by
  intro ms s
  have answers : Answers 1 (Json.object ms).render (writtenMembers ms) := answers_error trivial
  have value : valueOf "error" (writtenMembers ms) ≠ .null := Source.noConfusion
  have skipped : s.dispatch (Json.object ms).render = s.warn .undecodableFrame :=
    dispatch_of_unread rfl answers rfl
  refine ⟨isPending_asking, answers, value, ?_, ?_⟩
  · rw [skipped]
    exact isPending_asking
  · show ((s.dispatch (Json.object ms).render).step (.expired 1)).ended.map
      (fun a => (a.1, outcome a.2)) = [(1, "timeout")]
    rw [skipped]
    decide +kernel

end Session

end IstanbulMonitor
