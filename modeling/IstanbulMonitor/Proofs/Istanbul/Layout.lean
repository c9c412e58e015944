import IstanbulMonitor.Istanbul.Extra
import IstanbulMonitor.Proofs.Rlp.Framing
import Mathlib.Data.List.Forall2

/-!
# The extra-data reads back

What `Extra.encodeWith` writes is read by `Extra.decode` with the seals that it was written with
(`Extra.decode_encodeWith`). Hence extra-data reads back as it was, and the forms that the seals
sign read back without the seals that they leave out (`Extra.decode_written`). The size is that of
any byte string in memory: below `2 ^ 64`, so that every length can be written down.
-/

set_option autoImplicit false

namespace IstanbulMonitor

/-- A list is read if each of its elements is, and the results stand in the order of the list. -/
theorem mapM_eq_ok_iff {α β ε : Type} {f : α → Except ε β} {xs : List α} {ys : List β} :
    xs.mapM f = .ok ys ↔ List.Forall₂ (fun x y => f x = .ok y) xs ys := by
  induction xs generalizing ys with
  | nil =>
    rw [List.mapM_nil, List.forall₂_nil_left_iff]
    constructor
    · rintro ⟨⟩
      rfl
    · rintro rfl
      rfl
  | cons x xs ih =>
    rw [List.mapM_cons, List.forall₂_cons_left_iff]
    constructor
    · intro h
      cases hx : f x with
      | error e =>
        rw [hx] at h
        cases h
      | ok y =>
        cases hxs : xs.mapM f with
        | error e =>
          rw [hx, hxs] at h
          cases h
        | ok ys' =>
          rw [hx, hxs] at h
          cases h
          exact ⟨y, ys', rfl, ih.mp hxs, rfl⟩
    · rintro ⟨y, ys', hx, hxs, rfl⟩
      rw [hx, ih.mpr hxs]
      rfl

/-- A list is not read if one of its elements is not. -/
theorem exists_mapM_eq_error {α β ε : Type} {f : α → Except ε β} {xs : List α} {x : α} {e : ε}
    (mem : x ∈ xs) (hx : f x = .error e) : ∃ e', xs.mapM f = .error e' := by
  cases hxs : xs.mapM f with
  | error e' => exact ⟨e', rfl⟩
  | ok ys =>
    exfalso
    have hread := mapM_eq_ok_iff.mp hxs
    clear hxs
    induction hread with
    | nil => cases mem
    | cons hy _ ih =>
      rcases List.mem_cons.mp mem with rfl | mem
      · rw [hx] at hy
        cases hy
      · exact ih mem

/-- Reading what was written, element by element, gives the elements. -/
theorem mapM_map_eq_ok {α β ε : Type} {f : α → β} {g : β → Except ε α} {xs : List α}
    (h : ∀ x ∈ xs, g (f x) = .ok x) : (xs.map f).mapM g = .ok xs := by
  rw [mapM_eq_ok_iff, List.forall₂_map_left_iff, List.forall₂_same]
  exact h

theorem FixedBytes.ofStart_toList {n : Nat} (x : FixedBytes n) : ofStart n x.toList = x := by
  obtain ⟨bytes, rfl⟩ := x
  simp [ofStart]

namespace Extra

/-! ## What the reader accepts -/

/-- What has to hold of a byte string for its contents to be read: the vanity is there, the rest is
one whole list of three items, and each of the three is read. -/
structure Reads (bytes : Bytes) (x : Extra) : Prop where
  long : vanityLength ≤ bytes.length
  vanity : x.vanity = .ofStart 32 (bytes.take vanityLength)
  whole : ∃ e, Rlp.extent (bytes.drop vanityLength) = .ok e ∧
    e.total = (bytes.drop vanityLength).length
  framed : Rlp.isList (bytes.drop vanityLength) = true
  parts : ∃ validators proposerSeal committedSeals,
    Rlp.items (bytes.drop vanityLength) = [validators, proposerSeal, committedSeals] ∧
      (Rlp.items validators).mapM readAddress = .ok x.validators ∧
      Rlp.payload proposerSeal = .ok x.proposerSeal ∧
      (Rlp.items committedSeals).mapM Rlp.payload = .ok x.committedSeals

theorem decode_of_reads {bytes : Bytes} {x : Extra} (h : Reads bytes x) :
    decode bytes = .ok x := by
  obtain ⟨e, hextent, htotal⟩ := h.whole
  obtain ⟨validators, proposerSeal, committedSeals, hitems, hvalidators, hproposer, hcommitted⟩ :=
    h.parts
  unfold decode
  rw [if_neg (Nat.not_lt.mpr h.long)]
  simp only [hextent, htotal, ne_eq, not_true_eq_false, if_false, h.framed, hitems, hvalidators,
    hproposer, hcommitted, ← h.vanity]
  rfl

variable (x : Extra) (proposerSeal : Bytes) (committedSeals : List Bytes)

/-! ## What the writer writes -/

theorem readAddress_data (a : Address) : readAddress (Rlp.data a.toList) = .ok a := by
  have hlen : a.toList.length = 20 := a.length_toList
  have hpayload : Rlp.fixedPayload 20 (Rlp.data a.toList) = .ok a.toList := by
    unfold Rlp.fixedPayload
    rw [Rlp.payload_data (by omega)]
    show (if a.toList.length < 20 then _ else _) = _
    rw [hlen]
    rfl
  unfold readAddress
  rw [hpayload]
  show Except.ok (FixedBytes.ofStart 20 a.toList) = _
  rw [FixedBytes.ofStart_toList]

/-- The three items after the vanity. -/
def body : List Bytes :=
  [Rlp.list (x.validators.map fun a => Rlp.data a.toList),
   Rlp.data proposerSeal,
   Rlp.list (committedSeals.map Rlp.data)]

theorem encodeWith_eq_append :
    x.encodeWith proposerSeal committedSeals =
      x.vanity.toList ++ Rlp.list (x.body proposerSeal committedSeals) := rfl

theorem length_body :
    (x.body proposerSeal committedSeals).flatten.length =
      (Rlp.list (x.validators.map fun a => Rlp.data a.toList)).length +
        ((Rlp.data proposerSeal).length + (Rlp.list (committedSeals.map Rlp.data)).length) := by
  simp [body]

/-- The extra-data is longer than what is framed in it. -/
theorem length_body_lt :
    (x.body proposerSeal committedSeals).flatten.length <
      (x.encodeWith proposerSeal committedSeals).length := by
  have := Rlp.length_lt_list (x.body proposerSeal committedSeals)
  rw [encodeWith_eq_append, List.length_append]
  omega

/-- Leaving seals out makes the body no longer. -/
theorem length_body_filtered_le (keep : Bool) :
    (x.body (if keep then proposerSeal else []) []).flatten.length ≤
      (x.body proposerSeal committedSeals).flatten.length := by
  have hproposer : (Rlp.data (if keep then proposerSeal else [])).length ≤
      (Rlp.data proposerSeal).length := by
    cases keep with
    | true => exact Nat.le_refl _
    | false => exact Rlp.length_data_pos proposerSeal
  have hcommitted : (Rlp.list ([].map Rlp.data)).length ≤
      (Rlp.list (committedSeals.map Rlp.data)).length :=
    Nat.lt_of_le_of_lt (Nat.zero_le _) (Rlp.length_lt_list (committedSeals.map Rlp.data))
  rw [length_body, length_body]
  omega

variable {x proposerSeal committedSeals}

theorem items_validators
    (hlen : (x.validators.map fun a => Rlp.data a.toList).flatten.length < 2 ^ 64) :
    Rlp.items (Rlp.list (x.validators.map fun a => Rlp.data a.toList)) =
      x.validators.map fun a => Rlp.data a.toList := by
  have hmap : (x.validators.map fun a => Rlp.data a.toList) =
      (x.validators.map (·.toList)).map Rlp.data := by
    rw [List.map_map]
    rfl
  rw [hmap] at hlen ⊢
  exact Rlp.items_list_data hlen

/-- What was written with some seals is read with these seals. -/
theorem decode_encodeWith
    (small : (x.body proposerSeal committedSeals).flatten.length < 2 ^ 64) :
    decode (x.encodeWith proposerSeal committedSeals) =
      .ok { x with proposerSeal, committedSeals } := by
  have hvanity : x.vanity.toList.length = vanityLength := x.vanity.length_toList
  have hsum := x.length_body proposerSeal committedSeals
  -- every part of the body is shorter than the whole
  have hvalidators := Rlp.length_lt_list (x.validators.map fun a => Rlp.data a.toList)
  have hseal := Rlp.length_le_data proposerSeal
  have hcommitted := Rlp.length_lt_list (committedSeals.map Rlp.data)
  have hdrop : (x.encodeWith proposerSeal committedSeals).drop vanityLength =
      Rlp.list (x.body proposerSeal committedSeals) := by
    rw [encodeWith_eq_append, ← hvanity, List.drop_left]
  apply decode_of_reads
  constructor
  case long =>
    rw [encodeWith_eq_append, List.length_append, hvanity]
    exact Nat.le_add_right _ _
  case vanity =>
    rw [encodeWith_eq_append, ← hvanity, List.take_left]
    exact x.vanity.ofStart_toList.symm
  case whole =>
    rw [hdrop]
    exact ⟨_, Rlp.extent_list small, List.length_append.symm⟩
  case framed =>
    rw [hdrop]
    exact Rlp.isList_list _ small
  case parts =>
    -- the first and the last item are lists of data, the one between them is data
    rw [hdrop]
    refine ⟨_, _, _, Rlp.items_list (fun item hitem => ?_) small, ?_, ?_, ?_⟩
    · rcases List.mem_cons.mp hitem with rfl | hitem
      · exact Rlp.isItem_list (by omega)
      rcases List.mem_cons.mp hitem with rfl | hitem
      · exact Rlp.isItem_data (by omega)
      · cases List.mem_singleton.mp hitem
        exact Rlp.isItem_list (by omega)
    · rw [items_validators (by omega)]
      exact mapM_map_eq_ok fun a _ => readAddress_data a
    · exact Rlp.payload_data (by omega)
    · rw [Rlp.items_list_data (by omega)]
      refine mapM_map_eq_ok fun c hc => Rlp.payload_data ?_
      have := Rlp.length_le_of_mem_data hc
      omega

/-- Extra-data reads back as it was written. -/
theorem decode_encode {x : Extra} (small : x.encode.length < 2 ^ 64) : decode x.encode = .ok x :=
  decode_encodeWith (Nat.lt_trans (x.length_body_lt x.proposerSeal x.committedSeals) small)

/-- Extra-data reads back, and so do the forms that the seals sign: always without the committed
seals, and with the proposer's seal only if it is kept. -/
theorem decode_written (x : Extra) (small : x.encode.length < 2 ^ 64) :
    decode x.encode = .ok x ∧
      ∀ keep, decode (x.filtered keep) =
        .ok { x with
          proposerSeal := if keep then x.proposerSeal else []
          committedSeals := [] } := by
  refine ⟨decode_encode small, fun keep => ?_⟩
  have hbody := x.length_body_lt x.proposerSeal x.committedSeals
  have hle := x.length_body_filtered_le x.proposerSeal x.committedSeals keep
  exact decode_encodeWith (Nat.lt_of_le_of_lt hle (Nat.lt_trans hbody small))

/-- Extra-data with a header of every kind: lists with short and long length fields, the empty
string, single bytes on both sides of `0x80`, and strings of 56 and 256 bytes. -/
def everySize : Extra where
  vanity := .ofNat 32 0xff
  validators := [.zero, .ofNat 20 1, .ofNat 20 0x80]
  proposerSeal := List.replicate 56 0xc0
  committedSeals := [[], [0x7f], [0x80], List.replicate 55 0, List.replicate 256 0x81]

theorem decode_everySize :
    everySize.encode.length < 2 ^ 64 ∧ decode everySize.encode = .ok everySize ∧
      decode (everySize.filtered true) = .ok { everySize with committedSeals := [] } ∧
      decode (everySize.filtered false) =
        .ok { everySize with proposerSeal := [], committedSeals := [] } := by
  have small : everySize.encode.length < 2 ^ 64 := by decide +kernel
  obtain ⟨whole, parts⟩ := decode_written everySize small
  exact ⟨small, whole, parts true, parts false⟩

end Extra

end IstanbulMonitor
