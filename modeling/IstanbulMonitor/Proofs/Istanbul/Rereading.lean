import IstanbulMonitor.Proofs.Istanbul.Layout
import IstanbulMonitor.Proofs.Rlp.Canonical

/-!
# What is read of extra-data

Extra-data that is read is written again from what was read of it, with three exceptions: the tails
that the body, the validator list and the committed list may carry behind their items are not read,
and a data item in the place of one of the two lists reads as the empty list
(`Extra.encode_eq_iff`). So bytes that are read are not always the ones that are written for their
contents (`Extra.decode_malleable`).
-/

set_option autoImplicit false

namespace IstanbulMonitor

/-- What was read element by element is written element by element, if each element is. -/
theorem map_eq_of_mapM {α β ε : Type} {read : α → Except ε β} {write : β → α} {xs : List α}
    {ys : List β} (h : xs.mapM read = .ok ys)
    (each : ∀ x ∈ xs, ∀ y, read x = .ok y → write y = x) : ys.map write = xs := by
  have hread := mapM_eq_ok_iff.mp h
  clear h
  induction hread with
  | nil => rfl
  | cons hy _ ih =>
    rw [List.map_cons, each _ List.mem_cons_self _ hy,
      ih fun x hx => each x (List.mem_cons_of_mem _ hx)]

theorem FixedBytes.toList_ofStart {n : Nat} {bytes : Bytes} (h : bytes.length = n) :
    (ofStart n bytes).toList = bytes := by
  subst h
  simp [ofStart]

namespace Extra

variable {bytes item : Bytes} {x : Extra}

/-! ## What the reader has seen -/

/-- Contents are returned only if everything that they need was read. -/
theorem reads_of_decode (h : decode bytes = .ok x) : Reads bytes x := by
  unfold decode at h
  split at h
  · cases h
  · next hlong =>
    dsimp only at h
    split at h
    · cases h
    · next e hextent =>
      split at h
      · cases h
      · next htotal =>
        split at h
        · next validators proposerSeal committedSeals hlist hitems =>
          cases hvalidators : (Rlp.items validators).mapM readAddress with
          | error fault =>
            rw [hvalidators] at h
            cases h
          | ok addresses =>
            cases hproposer : Rlp.payload proposerSeal with
            | error fault =>
              rw [hvalidators, hproposer] at h
              cases h
            | ok proposer =>
              cases hcommitted : (Rlp.items committedSeals).mapM Rlp.payload with
              | error fault =>
                rw [hvalidators, hproposer, hcommitted] at h
                cases h
              | ok committed =>
                rw [hvalidators, hproposer, hcommitted] at h
                cases h
                exact ⟨Nat.le_of_not_lt hlong, rfl, ⟨e, hextent, not_not.mp htotal⟩, hlist,
                  _, _, _, hitems, hvalidators, hproposer, hcommitted⟩
        · cases h

/-- The body is one item. -/
theorem Reads.isItem_body (h : Reads bytes x) : Rlp.IsItem (bytes.drop vanityLength) := by
  obtain ⟨e, hextent, htotal⟩ := h.whole
  have hitem := Rlp.isItem_take hextent
  rwa [htotal, List.take_length] at hitem

/-- A data item is the one that is written for the address read from it. -/
theorem data_of_readAddress {a : Address} (h : Rlp.IsItem item) (read : readAddress item = .ok a) :
    Rlp.data a.toList = item := by
  cases hfixed : Rlp.fixedPayload 20 item with
  | error fault =>
    rw [readAddress, hfixed] at read
    cases read
  | ok body =>
    obtain ⟨hpayload, hlength⟩ := Rlp.payload_of_fixedPayload hfixed
    rw [readAddress, hfixed] at read
    cases read
    rw [FixedBytes.toList_ofStart hlength]
    exact Rlp.data_of_payload h hpayload

/-! ## Writing again -/

/-- The three parts of the body, without what follows the items of a list. -/
def reread (validators proposerSeal committedSeals : Bytes) : List Bytes :=
  [Rlp.list (Rlp.items validators), proposerSeal, Rlp.list (Rlp.items committedSeals)]

/-- Contents are written with the items that they were read from. -/
theorem Reads.encode_eq (h : Reads bytes x) :
    ∃ validators proposerSeal committedSeals,
      Rlp.items (bytes.drop vanityLength) = [validators, proposerSeal, committedSeals] ∧
        x.encode = bytes.take vanityLength ++
          Rlp.list (reread validators proposerSeal committedSeals) := by
  obtain ⟨validators, proposerSeal, committedSeals, hitems, hvalidators, hproposer, hcommitted⟩ :=
    h.parts
  refine ⟨validators, proposerSeal, committedSeals, hitems, ?_⟩
  have hvanity : x.vanity.toList = bytes.take vanityLength := by
    rw [h.vanity]
    exact FixedBytes.toList_ofStart (List.length_take_of_le h.long)
  have haddresses : (x.validators.map fun a => Rlp.data a.toList) = Rlp.items validators :=
    map_eq_of_mapM hvalidators fun item hitem a => data_of_readAddress (Rlp.isItem_of_mem_items hitem)
  have hmem : proposerSeal ∈ Rlp.items (bytes.drop vanityLength) := by
    rw [hitems]
    exact List.mem_cons_of_mem _ List.mem_cons_self
  have hseal : Rlp.data x.proposerSeal = proposerSeal :=
    Rlp.data_of_payload (Rlp.isItem_of_mem_items hmem) hproposer
  have hseals : x.committedSeals.map Rlp.data = Rlp.items committedSeals :=
    map_eq_of_mapM hcommitted fun item hitem _ =>
      Rlp.data_of_payload (Rlp.isItem_of_mem_items hitem)
  rw [encode, encodeWith_eq_append, Extra.body, hvanity, haddresses, hseal, hseals]
  rfl

/-- A list is the body again exactly if the body and its two lists are made up by their items. -/
theorem list_reread_iff {whole validators middle committed : Bytes}
    (item : Rlp.IsItem whole) (items : Rlp.items whole = [validators, middle, committed]) :
    Rlp.list (reread validators middle committed) = whole ↔
      ∀ part ∈ [whole, validators, committed], Rlp.Exhausted part := by
  have hparts : ∀ part ∈ [validators, middle, committed], Rlp.IsItem part :=
    fun part hpart => Rlp.isItem_of_mem_items (items ▸ hpart)
  have hvalidators := hparts validators (by simp)
  have hcommitted := hparts committed (by simp)
  constructor
  · intro heq
    have hmiddle := hparts middle (by simp)
    have hreread : ∀ part ∈ reread validators middle committed, Rlp.IsItem part := by
      simp only [reread, List.forall_mem_cons]
      exact ⟨Rlp.isItem_list_items hvalidators, hmiddle, Rlp.isItem_list_items hcommitted,
        fun _ h => absurd h List.not_mem_nil⟩
    -- the items of what is written are those of the body, one by one
    have hsame := Rlp.items_of_list_eq item hreread heq
    rw [items] at hsame
    have hwhole : Rlp.list (Rlp.items whole) = whole := by
      rw [items, hsame, heq]
    simp only [reread, List.cons.injEq, true_and, and_true] at hsame
    simp only [List.forall_mem_cons, ← Rlp.list_items_iff item,
      ← Rlp.list_items_iff hvalidators, ← Rlp.list_items_iff hcommitted]
    exact ⟨hwhole, hsame.1.symm, hsame.2.symm, fun _ h => absurd h List.not_mem_nil⟩
  · intro h
    simp only [List.forall_mem_cons, ← Rlp.list_items_iff item,
      ← Rlp.list_items_iff hvalidators, ← Rlp.list_items_iff hcommitted] at h
    obtain ⟨hwhole, hfirst, hlast, -⟩ := h
    rw [reread, hfirst, hlast, ← items, hwhole]

/-- **What is read of extra-data.** The body has three items. What was read is written as the
vanity and a body of these items, without the tails of the two lists in it. These are the bytes that
were read exactly if the body, the validator list and the committed list are lists without a tail
behind their items. -/
theorem encode_eq_iff (h : decode bytes = .ok x) :
    ∃ validators proposerSeal committedSeals,
      Rlp.items (bytes.drop vanityLength) = [validators, proposerSeal, committedSeals] ∧
        x.encode = bytes.take vanityLength ++
          Rlp.list (reread validators proposerSeal committedSeals) ∧
        (x.encode = bytes ↔
          ∀ part ∈ [bytes.drop vanityLength, validators, committedSeals], Rlp.Exhausted part) := by
  have hreads := reads_of_decode h
  obtain ⟨validators, proposerSeal, committedSeals, hitems, hencode⟩ := hreads.encode_eq
  refine ⟨validators, proposerSeal, committedSeals, hitems, hencode, ?_⟩
  rw [← list_reread_iff hreads.isItem_body hitems, hencode]
  have hsplit := List.take_append_drop vanityLength bytes
  constructor
  · intro heq
    exact List.append_cancel_left (heq.trans hsplit.symm)
  · intro heq
    rw [heq, hsplit]

/-- Without validators and proposer's seal, and with one committed seal of 65 bytes. -/
def oneSeal : Extra where
  vanity := .zero
  validators := []
  proposerSeal := []
  committedSeals := [List.replicate 65 0x71]

theorem oneSeal_rewritten :
    decode oneSeal.encode = .ok oneSeal ∧
      ∃ validators proposerSeal committedSeals,
        Rlp.items (oneSeal.encode.drop vanityLength) = [validators, proposerSeal, committedSeals] ∧
          oneSeal.encode = oneSeal.encode.take vanityLength ++
            Rlp.list (reread validators proposerSeal committedSeals) ∧
          (oneSeal.encode = oneSeal.encode ↔
            ∀ part ∈ [oneSeal.encode.drop vanityLength, validators, committedSeals],
              Rlp.Exhausted part) := by
  have read : decode oneSeal.encode = .ok oneSeal := by decide +kernel
  exact ⟨read, encode_eq_iff read⟩

/-- The contents of `oneSeal`, with a second seal in the committed list that ends after the first of
its 65 bytes. -/
def endsEarly : Bytes :=
  List.replicate 32 0 ++ [0xf8, 0x4a, 0xc0, 0x80, 0xf8, 0x46, 0xb8, 0x41] ++
    List.replicate 65 0x71 ++ [0xb8, 0x41, 0]

/-- The contents of `oneSeal`, with a fourth item in the body that ends too early. -/
def surplus : Bytes :=
  List.replicate 32 0 ++ [0xf8, 0x48, 0xc0, 0x80, 0xf8, 0x43, 0xb8, 0x41] ++
    List.replicate 65 0x71 ++ [0xc5]

/-- The contents of `oneSeal`, with an address where the list of the validators should be. -/
def unlisted : Bytes :=
  List.replicate 32 0 ++ [0xf8, 0x5b, 0x94] ++ List.replicate 20 0x11 ++
    [0x80, 0xf8, 0x43, 0xb8, 0x41] ++ List.replicate 65 0x71

/-- Other bytes than those that are written for them read as the same contents. -/
theorem decode_malleable :
    (decode endsEarly = .ok oneSeal ∧ oneSeal.encode ≠ endsEarly) ∧
      (decode surplus = .ok oneSeal ∧ oneSeal.encode ≠ surplus) ∧
      (decode unlisted = .ok oneSeal ∧ oneSeal.encode ≠ unlisted) := by
  decide +kernel

end Extra

end IstanbulMonitor
