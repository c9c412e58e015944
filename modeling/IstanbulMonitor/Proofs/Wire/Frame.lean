import IstanbulMonitor.Proofs.Json.Records
import IstanbulMonitor.Wire.Frame

/-!
# Frames are read back as they were written

Each kind of frame is an object that is written by `Json.render` and read in source form. What the
reader finds under the name of a member is the source of the value that was written there
(`Frame.member?_sourceOf`), and the members that are there tell the kinds apart. So every frame is
read back as it was written (`Frame.decode_encoded`), and none is taken for one of another kind.
-/

set_option autoImplicit false

namespace IstanbulMonitor

namespace RemoteError

open Json

/-- The members that an error is written as, in the order of their names. -/
def memberList (e : RemoteError) : List (String × Json) :=
  ("code", .number (.int e.code)) ::
    ((e.data.map fun value => ("data", value)).toList ++ [("message", .string e.message)])

theorem ascending_memberList (e : RemoteError) :
    (e.memberList.map Prod.fst).Pairwise (· < ·) := by
  obtain ⟨code, message, data⟩ := e
  cases data with
  | none => exact (by decide : (["code", "message"] : List String).Pairwise (· < ·))
  | some value => exact (by decide : (["code", "data", "message"] : List String).Pairwise (· < ·))

theorem toJson_eq (e : RemoteError) : e.toJson = .object e.memberList := by
  refine ofMembers_of_perm ?_ e.ascending_memberList
  exact List.Perm.cons _ List.perm_append_comm

/-- An error that the codec carries: its code has 64 bits, and its data, if there are any, are not
null and fit. -/
structure Carried (depth : Nat) (e : RemoteError) : Prop where
  code : -0x8000000000000000 ≤ e.code ∧ e.code ≤ 0x7fffffffffffffff
  data : ∀ value ∈ e.data, Fits depth value ∧ value ≠ .null

variable {e : RemoteError} {depth : Nat}

theorem Carried.fits (h : e.Carried depth) : Fits (depth + 1) e.toJson := by
  have hcode : IsWord e.code := ⟨h.code.1, Int.lt_of_le_of_lt h.code.2 (by decide)⟩
  rw [toJson_eq]
  refine ⟨Nat.succ_ne_zero depth, e.ascending_memberList, ?_⟩
  obtain ⟨code, message, data⟩ := e
  cases data with
  | none => exact ⟨hcode, trivial, trivial⟩
  | some value => exact ⟨hcode, (h.data value rfl).1, trivial, trivial⟩

/-- An error that is carried is read back from its object. -/
theorem Carried.ofJson_toJson (h : e.Carried depth) : ofJson e.toJson = .ok e := by
  obtain ⟨code, message, data⟩ := e
  have hcode : readCode (.number (.int code)) = .ok code := by
    rw [readCode, readInt, if_pos h.code]
  have hmessage : readString (.string message) = .ok message := rfl
  have hdata : ∀ value ∈ data, optional readAny value = .ok (some value) :=
    fun value hvalue => optional_readAny (h.data value hvalue).2
  have hfields : fields rules (.object (memberList ⟨code, message, data⟩)) =
      .ok ⟨memberList ⟨code, message, data⟩, .missingField⟩ := by
    refine fields_object ?_
    intro m hm
    simp only [memberList, List.mem_cons, List.mem_append, Option.mem_toList,
      Option.map_eq_some_iff, List.not_mem_nil, or_false] at hm
    rcases hm with rfl | ⟨value, hvalue, rfl⟩ | rfl
    · exact ⟨_, rfl, fault?_of "code" hcode⟩
    · exact ⟨_, rfl, fault?_of "data" (hdata value hvalue)⟩
    · exact ⟨_, rfl, fault?_of "message" hmessage⟩
  rw [toJson_eq, ofJson, hfields]
  cases data with
  | none =>
      simp +decide only [memberList, Option.map_none, Option.toList_none, List.nil_append,
        Fields.required, Fields.withDefault, lookup, if_true, if_false, hcode, hmessage, bind,
        Except.bind, pure, Except.pure]
  | some value =>
      simp +decide only [memberList, Option.map_some, Option.toList_some, List.cons_append,
        List.nil_append, Fields.required, Fields.withDefault, lookup, if_true, if_false, hcode,
        hdata value rfl, hmessage, bind, Except.bind, pure, Except.pure]

/-- So it is in source form. -/
theorem Carried.ofSource?_sourceOf (h : e.Carried depth) :
    ofSource? (depth + 1) (sourceOf e.toJson) = some e := by
  have hread : (sourceOf e.toJson).record? (depth + 1) (rules.map (·.name)) = some e.toJson := by
    have hfits := h.fits
    rw [toJson_eq] at hfits ⊢
    refine record?_sourceOf hfits ?_
    obtain ⟨code, message, data⟩ := e
    cases data <;> simp [memberList, rules, Rule.of]
  rw [ofSource?, hread, Option.bind_eq_bind, Option.bind_some, h.ofJson_toJson]
  rfl

end RemoteError

namespace Frame

open Json

/-- What a member is read as, given the value that was written. -/
def written? {α : Type} (read : Source → Option α) : Option Json → Option (Option α)
  | none => some none
  | some .null => some none
  | some value => (read (sourceOf value)).map some

theorem member?_sourceOf {α : Type} {name : String} {names : List String}
    (known : name ∈ names) (read : Source → Option α) (ms : List (String × Json)) :
    member? name read (knownSources names ms) = written? read (lookup name ms) := by
  induction ms with
  | nil => rfl
  | cons m ms ih =>
      obtain ⟨other, value⟩ := m
      by_cases hname : other = name
      · subst hname
        have hfind : (knownSources names ((other, value) :: ms)).find? (·.1 = other) =
            some (other, sourceOf value) := by
          rw [knownSources_cons_of_mem known]
          simp
        simp only [member?, hfind, lookup, if_true]
        cases value with
        | null => rfl
        | bool b => rfl
        | number n => rfl
        | string t => rfl
        | array es => cases es <;> rfl
        | object ms => cases ms <;> rfl
      · rw [lookup, if_neg (Ne.symm hname), ← ih]
        by_cases hother : other ∈ names
        · rw [knownSources_cons_of_mem hother]
          simp only [member?, List.find?_cons, hname, decide_false]
        · rw [knownSources_cons_of_notMem hother]

/-- The members of a frame, each read from what was written under its name. -/
theorem ofSource?_sourceOf {ms : List (String × Json)} (h : (ms.map Prod.fst).Nodup) :
    Members.ofSource? (sourceOf (.object ms)) = do
      return {
        id := ← written? (·.value? 126) (lookup "id" ms)
        method := ← written? sourceString? (lookup "method" ms)
        params := ← written? (·.value? 126) (lookup "params" ms)
        result := ← written? (fun value => some value.text) (lookup "result" ms)
        error := ← written? (RemoteError.ofSource? 126) (lookup "error" ms) } := by
  have hread : ∀ {α : Type} {name : String}, name ∈ memberNames → ∀ read : Source → Option α,
      member? name read (knownSources memberNames ms) = written? read (lookup name ms) :=
    fun known read => member?_sourceOf known read ms
  simp only [Members.ofSource?, fields?_sourceOf memberNames h, Option.bind_eq_bind,
    Option.bind_some]
  rw [hread (by decide), hread (by decide), hread (by decide), hread (by decide),
    hread (by decide)]
  rfl

theorem written?_none {α : Type} (read : Source → Option α) :
    written? read none = some none := rfl

theorem written?_value {v : Json} (h : Fits 126 v) (hne : v ≠ .null) :
    written? (·.value? 126) (some v) = some (some v) := by
  have hvalue := value?_sourceOf v h
  cases v with
  | null => exact absurd rfl hne
  | _ => simp only [written?, hvalue, Option.map_some]

theorem written?_string (s : String) :
    written? sourceString? (some (.string s)) = some (some s) := by
  simp [written?, sourceOf, sourceString?, decodeBody_map_pieceOf]

theorem isWord_toNat (n : UInt64) : IsWord n.toNat := by
  have hn := n.toNat_lt
  constructor <;> omega

theorem written?_word (id : UInt64) :
    written? (·.value? 126) (some (.word id)) = some (some (.word id)) :=
  written?_value (show IsWord id.toNat from isWord_toNat id) (by simp [Json.word, Json.nat])

theorem callId_word (id : UInt64) : callId (.word id) = .ok id := by
  rw [callId, word?_word]

/-- Members with a method and the id of a call are those of a request. -/
theorem classify_request {value : Json} {id : UInt64} (hid : callId value = .ok id)
    (method : String) (params : Option Json) (result : Option String)
    (error : Option RemoteError) :
    Members.classify ⟨some value, some method, params, result, error⟩ =
      .ok (.request id method (paramList params)) := by
  simp only [Members.classify, hid, bind, Except.bind, pure, Except.pure]

/-- Members with the id of a call and without a method are those of a response. An error counts
before a result. -/
theorem classify_response {value : Json} {id : UInt64} (hid : callId value = .ok id)
    (params : Option Json) (result : Option String) (error : Option RemoteError) :
    Members.classify ⟨some value, none, params, result, error⟩ =
      .ok (.response id (match error with
        | some e => .error e
        | none => .ok (result.getD "null"))) := by
  cases error <;> simp only [Members.classify, hid, bind, Except.bind, pure, Except.pure]

/-- The text of an object is classified by what was written under the five names. -/
theorem decode_ofMembers {given ms : List (String × Json)} (perm : given.Perm ms)
    (h : Fits maxDepth (.object ms)) {m : Members}
    (hid : written? (·.value? 126) (lookup "id" ms) = some m.id)
    (hmethod : written? sourceString? (lookup "method" ms) = some m.method)
    (hparams : written? (·.value? 126) (lookup "params" ms) = some m.params)
    (hresult : written? (fun value => some value.text) (lookup "result" ms) = some m.result)
    (herror : written? (RemoteError.ofSource? 126) (lookup "error" ms) = some m.error) :
    decode (Json.ofMembers given).render = m.classify := by
  have hmembers := ofSource?_sourceOf (nodup_of_ascending h.2.1)
  rw [hid, hmethod, hparams, hresult, herror] at hmembers
  rw [ofMembers_of_perm perm h.2.1, decode, read?_render h, Option.bind_some, hmembers]
  rfl

theorem decode_encodeRequest (id : UInt64) (method : String) {params : List Json}
    (h : elementsFit 125 params) :
    decode (encodeRequest id method params) = .ok (.request id method params) := by
  let members : Members := ⟨some (.word id), some method, some (.array params), none, none⟩
  have hperm :
      [version, ("id", .word id), ("method", .string method), ("params", .array params)].Perm
        [("id", .word id), version, ("method", .string method), ("params", .array params)] :=
    .swap _ _ _
  have hascending : (["id", "jsonrpc", "method", "params"] : List String).Pairwise (· < ·) := by
    decide
  have hparams : Fits 126 (.array params) := ⟨by decide, h⟩
  have hread : decode (encodeRequest id method params) = members.classify :=
    decode_ofMembers hperm
      ⟨by decide, hascending, isWord_toNat id, trivial, trivial, hparams, trivial⟩
      (written?_word id) (written?_string method) (written?_value hparams (by simp))
      (written?_none _) (written?_none _)
  rw [hread]
  exact classify_request (callId_word id) method (some (.array params)) none none

/-- A result is kept as the text that was written; null is what a missing result stands for. -/
theorem exists_written?_text {depth : Nat} {v : Json} (h : Fits depth v) :
    ∃ result, written? (fun value => some value.text) (some v) = some result ∧
      result.getD "null" = v.render := by
  have htext := text_sourceOf h
  cases v with
  | null => exact ⟨none, rfl, rfl⟩
  | _ => exact ⟨_, rfl, htext⟩

theorem decode_encodeResponse (id : UInt64) {result : Json} (h : Fits 126 result) :
    decode (encodeResponse id result) = .ok (.response id (.ok result.render)) := by
  have hperm : [version, ("id", .word id), ("result", result)].Perm
      [("id", .word id), version, ("result", result)] := .swap _ _ _
  have hascending : (["id", "jsonrpc", "result"] : List String).Pairwise (· < ·) := by decide
  obtain ⟨text, hwritten, htext⟩ := exists_written?_text h
  let members : Members := ⟨some (.word id), none, none, text, none⟩
  have hread : decode (encodeResponse id result) = members.classify :=
    decode_ofMembers hperm ⟨by decide, hascending, isWord_toNat id, trivial, h, trivial⟩
      (written?_word id) (written?_none _) (written?_none _) hwritten (written?_none _)
  rw [hread, classify_response (callId_word id), htext]

theorem decode_encodeError (id : UInt64) {e : RemoteError} (h : e.Carried 125) :
    decode (encodeError id e) = .ok (.response id (.error e)) := by
  let members : Members := ⟨some (.word id), none, none, none, some e⟩
  have hperm : [version, ("id", .word id), ("error", e.toJson)].Perm
      [("error", e.toJson), ("id", .word id), version] := (List.reverse_perm _).symm
  have hascending : (["error", "id", "jsonrpc"] : List String).Pairwise (· < ·) := by decide
  have hwritten : written? (RemoteError.ofSource? 126) (some e.toJson) = some (some e) := by
    have hread := h.ofSource?_sourceOf
    rw [RemoteError.toJson_eq] at hread ⊢
    simp only [written?, hread, Option.map_some]
  have hread : decode (encodeError id e) = members.classify :=
    decode_ofMembers hperm ⟨by decide, hascending, h.fits, isWord_toNat id, trivial, trivial⟩
      (written?_word id) (written?_none _) (written?_none _) (written?_none _) hwritten
  rw [hread, classify_response (callId_word id)]

theorem event?_of_string {key : String} (hkey : key ≠ "") (payload : Json) :
    event? (some (.object [("result", payload), ("subscription", .string key)])) =
      some (key, payload) := by
  simp +decide [event?, lookup, subscriptionKey?, hkey, ofOption]

theorem decode_encodeNotification {key : String} (hkey : key ≠ "") {payload : Json}
    (h : Fits 125 payload) :
    decode (encodeNotification key payload) = .ok (.notification key payload) := by
  have hascending : (["jsonrpc", "method", "params"] : List String).Pairwise (· < ·) := by decide
  have hnames : (["result", "subscription"] : List String).Pairwise (· < ·) := by decide
  let params : Json := .object [("result", payload), ("subscription", .string key)]
  have hparams : Fits 126 params := ⟨by decide, hnames, h, trivial, trivial⟩
  have hinner : Json.ofMembers [("subscription", .string key), ("result", payload)] = params :=
    ofMembers_of_perm (.swap _ _ _) hnames
  let members : Members := ⟨none, some "eth_subscription", some params, none, none⟩
  let outer := [version, ("method", .string "eth_subscription"), ("params", params)]
  have hread : decode (Json.ofMembers outer).render = members.classify :=
    decode_ofMembers (.refl outer) ⟨by decide, hascending, trivial, trivial, hparams, trivial⟩
      (written?_none _) (written?_string _) (written?_value hparams (by simp [params]))
      (written?_none _) (written?_none _)
  rw [encodeNotification, hinner, hread]
  simp only [members, params, Members.classify, event?_of_string hkey]

/-! ## The main theorem -/

/-- Every frame is read back as it was written, as long as its numbers are integers of 64 bits and
it is nested no deeper than the reader goes: requests and notifications with their values, a
response with the text of its result, which is read as the result, and a failed one with its
error. It is assumed that no object starts with the member name that is kept for raw texts. -/
theorem decode_encoded :
    (∀ (id : UInt64) (method : String) (params : List Json), (∀ p ∈ params, Fits 125 p) →
      decode (encodeRequest id method params) = .ok (.request id method params)) ∧
    (∀ (id : UInt64) (result : Json), Fits 126 result →
      decode (encodeResponse id result) = .ok (.response id (.ok result.render)) ∧
        Json.parse? result.render = some result) ∧
    (∀ (id : UInt64) (e : RemoteError), e.Carried 125 →
      decode (encodeError id e) = .ok (.response id (.error e))) ∧
    (∀ (key : String) (payload : Json), key ≠ "" → Fits 125 payload →
      decode (encodeNotification key payload) = .ok (.notification key payload)) := by
  refine ⟨?_, ?_, ?_, ?_⟩
  · intro id method params h
    exact decode_encodeRequest id method (elementsFit_iff.mpr h)
  · intro id result h
    exact ⟨decode_encodeResponse id h, parse?_render (Fits.mono result (by decide) h)⟩
  · intro id e h
    exact decode_encodeError id h
  · intro key payload hkey h
    exact decode_encodeNotification hkey h

/-- A value with integers at both ends of their range, and characters that have to be escaped. -/
def awkward : Json :=
  .object [("", .array [.null, .object []]), ("\x07\"\\", .number (.int (-0x8000000000000000))),
    ("😀", .number (.int 0xffffffffffffffff))]

/-- It comes through in each kind of frame. -/
theorem decode_awkward :
    decode (encodeRequest 0xffffffffffffffff "\x00/\n" [awkward, .array []]) =
        .ok (.request 0xffffffffffffffff "\x00/\n" [awkward, .array []]) ∧
      decode (encodeResponse 0 awkward) = .ok (.response 0 (.ok awkward.render)) ∧
      Json.parse? awkward.render = some awkward ∧
      decode (encodeError 1 ⟨-0x8000000000000000, "\t", some awkward⟩) =
        .ok (.response 1 (.error ⟨-0x8000000000000000, "\t", some awkward⟩)) ∧
      decode (encodeNotification "null" .null) = .ok (.notification "null" .null) := by
  have hword : IsWord (-0x8000000000000000) ∧ IsWord 0xffffffffffffffff := by
    unfold IsWord
    decide
  have hfits : Fits 125 awkward := by
    refine ⟨by decide, ?_, ⟨by decide, trivial, ⟨by decide, by decide, trivial⟩, trivial⟩, hword.1,
      hword.2, trivial⟩
    show (["", "\x07\"\\", "😀"] : List String).Pairwise (· < ·)
    decide
  have hparams : ∀ p ∈ [awkward, .array []], Fits 125 p := by
    intro p hp
    simp only [List.mem_cons, List.not_mem_nil, or_false] at hp
    rcases hp with rfl | rfl
    · exact hfits
    · exact ⟨by decide, trivial⟩
  have hcarried : RemoteError.Carried 125 ⟨-0x8000000000000000, "\t", some awkward⟩ :=
    { code := by decide
      data := by
        intro value hvalue
        cases hvalue
        exact ⟨hfits, by simp [awkward]⟩ }
  obtain ⟨hrequest, hresponse, herror, hnotification⟩ := decode_encoded
  obtain ⟨hresult, hparse⟩ := hresponse 0 awkward (Fits.mono _ (by decide) hfits)
  exact ⟨hrequest _ _ _ hparams, hresult, hparse, herror _ _ hcarried,
    hnotification "null" .null (by decide) trivial⟩

end Frame

end IstanbulMonitor
