import IstanbulMonitor.Proofs.Istanbul.Layout

/-!
# Extra-data that is cut short or padded

The header of an item says where the item ends. If an item is cut anywhere, inside the header, at
the border of an item in it or inside one, then its header announces more than there is, or is
itself cut (`Rlp.IsItem.extent_cut`). The body of extra-data is one item that has to fill what
follows the vanity, so extra-data is read only whole: no proper prefix of what is written is read,
and nothing that goes on after it (`Extra.decode_whole_only`).
-/

set_option autoImplicit false

namespace IstanbulMonitor

namespace Rlp

variable {bytes piece item : Bytes} {e : Extent}

/-! ## Items that are cut -/

/-- A length field that is cut is too short, and what comes after it does not count. -/
theorem longExtent_cut {digits : Nat} (whole : longExtent digits bytes = .ok e)
    (cut : piece <+: bytes) :
    longExtent digits piece = .ok e ∨ longExtent digits piece = .error .tooShort := by
  obtain ⟨rest, rfl⟩ := cut
  cases piece with
  | nil => exact Or.inr rfl
  | cons first piece =>
    rw [List.cons_append] at whole
    by_cases hzero : first = 0
    · simp [longExtent, hzero] at whole
    by_cases hroom : (first :: piece).length < digits
    · refine Or.inr ?_
      simp only [longExtent, if_neg hzero, if_pos hroom]
    · -- all digits are there, so the same ones are read
      have htake : (first :: (piece ++ rest)).take digits = (first :: piece).take digits := by
        rw [← List.cons_append]
        exact List.take_append_of_le_length (Nat.le_of_not_lt hroom)
      have hlonger : ¬ (first :: (piece ++ rest)).length < digits := by
        simp only [List.length_cons, List.length_append] at hroom ⊢
        omega
      refine Or.inl ?_
      simp only [longExtent, if_neg hzero, if_neg hlonger, htake] at whole
      simp only [longExtent, if_neg hzero, if_neg hroom]
      exact whole

/-- The header at the start of a byte string that is cut is the same header, or it is cut too. -/
theorem announced_cut (whole : announced bytes = .ok e) (cut : piece <+: bytes) :
    announced piece = .ok e ∨ announced piece = .error .tooShort := by
  cases piece with
  | nil => exact Or.inr rfl
  | cons b piece =>
    obtain ⟨rest, rfl⟩ := cut
    have tail : piece <+: piece ++ rest := List.prefix_append piece rest
    rw [List.cons_append] at whole
    simp only [announced] at whole ⊢
    -- a short header is its first byte, which is there
    split at whole
    · next h => simp only [if_pos h]; exact Or.inl whole
    next h₁ =>
    split at whole
    · next h => simp only [if_neg h₁, if_pos h]; exact Or.inl whole
    next h₂ =>
    split at whole
    · next h =>
      simp only [if_neg h₁, if_neg h₂, if_pos h]
      exact longExtent_cut whole tail
    next h₃ =>
    split at whole
    · next h => simp only [if_neg h₁, if_neg h₂, if_neg h₃, if_pos h]; exact Or.inl whole
    · next h₄ =>
      simp only [if_neg h₁, if_neg h₂, if_neg h₃, if_neg h₄]
      exact longExtent_cut whole tail

/-- Wherever an item is cut, there is less than its header announces. -/
theorem IsItem.extent_cut (h : IsItem item) (cut : piece <+: item) (ne : piece ≠ item) :
    extent piece = .error .tooShort := by
  obtain ⟨e, htotal, -, hannounced⟩ := h
  have hwhole := hannounced []
  rw [List.append_nil] at hwhole
  have hshorter : piece.length < item.length :=
    Nat.lt_of_le_of_ne cut.length_le fun hlength => ne (cut.eq_of_length hlength)
  unfold extent
  rcases announced_cut hwhole cut with hsame | hcut
  · rw [hsame]
    refine if_neg ?_
    rw [htotal]
    exact Nat.not_le_of_gt hshorter
  · rw [hcut]
    rfl

end Rlp

namespace Extra

variable {bytes body : Bytes} {x : Extra}

/-! ## What the reader refuses -/

/-- With the whole vanity, extra-data is not too short. -/
theorem not_short (vanity : FixedBytes 32) (body : Bytes) :
    ¬ (vanity.toList ++ body).length < vanityLength := by
  have hvanity : vanity.toList.length = vanityLength := vanity.length_toList
  rw [List.length_append, hvanity]
  exact Nat.not_lt.mpr (Nat.le_add_right _ _)

theorem drop_vanity (vanity : FixedBytes 32) (body : Bytes) :
    (vanity.toList ++ body).drop vanityLength = body := by
  have hvanity : vanity.toList.length = vanityLength := vanity.length_toList
  rw [← hvanity, List.drop_left]

/-- Behind the vanity a body is refused for the fault of its extent. -/
theorem decode_of_extent_error {fault : Rlp.Fault} (vanity : FixedBytes 32)
    (faulty : Rlp.extent body = .error fault) :
    decode (vanity.toList ++ body) = .error (malformed fault) := by
  simp only [decode, if_neg (not_short vanity body), drop_vanity, faulty]

/-- A body that goes on after its first item is refused. -/
theorem decode_of_isItem_append (vanity : FixedBytes 32) (item : Rlp.IsItem body) {tail : Bytes}
    (more : tail ≠ []) :
    decode (vanity.toList ++ (body ++ tail)) =
      .error (.malformedExtra s!"{tail.length} trailing bytes") := by
  obtain ⟨e, hextent, htotal⟩ := item.extent_append tail
  have hpos : 0 < tail.length := List.length_pos_of_ne_nil more
  have hlength : (body ++ tail).length = e.total + tail.length := by
    rw [htotal, List.length_append]
  have hne : e.total ≠ (body ++ tail).length := by omega
  have hrest : (body ++ tail).length - e.total = tail.length := by omega
  simp only [decode, if_neg (not_short vanity (body ++ tail)), drop_vanity, hextent, if_pos hne,
    hrest]

/-! ## The main theorem -/

/-- What is left of extra-data that is cut ends in the vanity, or in the body. -/
theorem cut_cases {vanity piece : Bytes} (cut : piece <+: vanity ++ body) :
    piece.length < vanity.length ∨ ∃ part, part <+: body ∧ piece = vanity ++ part := by
  by_cases hshort : piece.length < vanity.length
  · exact Or.inl hshort
  · obtain ⟨part, rfl⟩ : vanity <+: piece :=
      List.prefix_of_prefix_length_le (List.prefix_append vanity body) cut (Nat.not_lt.mp hshort)
    exact Or.inr ⟨part, (List.prefix_append_right_inj vanity).mp cut, rfl⟩

/-- **The framing is exact.** Extra-data is read as it was written if all of it is there and nothing
more. Any proper prefix is refused, for its length if not even the vanity is whole and else because
its body is too short; and whatever follows the whole is refused as so many trailing bytes. So bytes
that are cut off, or put behind, never make other contents of it. The size is that of any byte
string in memory. -/
theorem decode_whole_only (x : Extra) (small : x.encode.length < 2 ^ 64) :
    decode x.encode = .ok x ∧
      (∀ piece, piece <+: x.encode → piece ≠ x.encode →
        decode piece = .error (if piece.length < vanityLength then .extraTooShort piece.length
          else .malformedExtra "RlpIsTooShort")) ∧
      ∀ tail, tail ≠ [] →
        decode (x.encode ++ tail) = .error (.malformedExtra s!"{tail.length} trailing bytes") := by
  have hvanity : x.vanity.toList.length = vanityLength := x.vanity.length_toList
  have hsplit := x.encodeWith_eq_append x.proposerSeal x.committedSeals
  have item : Rlp.IsItem (Rlp.list (x.body x.proposerSeal x.committedSeals)) :=
    Rlp.isItem_list (Nat.lt_trans (x.length_body_lt x.proposerSeal x.committedSeals) small)
  refine ⟨decode_encode small, ?_, ?_⟩
  · intro piece cut ne
    rw [encode, hsplit] at cut ne
    rcases cut_cases cut with hshort | ⟨part, hpart, rfl⟩
    · rw [hvanity] at hshort
      simp only [decode, if_pos hshort]
    · have hne : part ≠ Rlp.list (x.body x.proposerSeal x.committedSeals) := by
        rintro rfl
        exact ne rfl
      rw [decode_of_extent_error x.vanity (item.extent_cut hpart hne),
        if_neg (not_short x.vanity part)]
      rfl
  · intro tail more
    rw [encode, hsplit, List.append_assoc]
    exact decode_of_isItem_append x.vanity item more

/-- Extra-data with headers of every kind, cut after any number of its bytes, and with one byte more
than it has. -/
theorem decode_whole_only_everySize :
    everySize.encode.length < 2 ^ 64 ∧
      (∀ n < everySize.encode.length, decode (everySize.encode.take n) =
        .error (if n < 32 then .extraTooShort n else .malformedExtra "RlpIsTooShort")) ∧
      decode (everySize.encode ++ [0]) = .error (.malformedExtra "1 trailing bytes") := by
  have small : everySize.encode.length < 2 ^ 64 := by decide +kernel
  obtain ⟨-, short, long⟩ := decode_whole_only everySize small
  refine ⟨small, fun n hn => ?_, long [0] (List.cons_ne_nil _ _)⟩
  have hlength : (everySize.encode.take n).length = n := List.length_take_of_le (Nat.le_of_lt hn)
  have hne : everySize.encode.take n ≠ everySize.encode := by
    intro h
    rw [h] at hlength
    exact absurd hlength (Nat.ne_of_gt hn)
  have hcut := short _ (List.take_prefix n everySize.encode) hne
  rwa [hlength] at hcut

end Extra

end IstanbulMonitor
