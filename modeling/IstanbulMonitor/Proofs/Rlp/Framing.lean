import IstanbulMonitor.Proofs.Bytes.Numerals
import IstanbulMonitor.Rlp.Decode
import IstanbulMonitor.Rlp.Encode
import Mathlib.Algebra.Order.BigOperators.Group.List

/-!
# Reading back what was written

The header of an item is read back from it, whatever follows (`Rlp.announced_header`), so a payload
of items is cut where they were put together (`Rlp.items_list`), and the bytes of a data item come
back (`Rlp.payload_data`). Lengths stay below `2 ^ 64`: a header has room for a length field of
eight bytes.
-/

set_option autoImplicit false

namespace IstanbulMonitor.Rlp

variable {base len : Nat}

/-! ## Headers -/

theorem header_of_le (h : len ≤ 55) : header base len = [UInt8.ofNat (base + len)] :=
  if_pos h

theorem header_of_lt (h : 55 < len) :
    header base len = UInt8.ofNat (base + 55 + Bytes.width len) :: Bytes.minimal len := by
  rw [← Bytes.length_minimal]
  exact if_neg (Nat.not_le.mpr h)

/-- A length field has at most eight bytes. -/
theorem width_le_eight (hlen : len < 2 ^ 64) : Bytes.width len ≤ 8 :=
  (Bytes.width_le_iff len 8).mpr hlen

theorem width_pos (h : 55 < len) : 0 < Bytes.width len := by
  apply Nat.pos_of_ne_zero
  intro hzero
  have := (Bytes.width_le_iff len 0).mp (Nat.le_of_eq hzero)
  omega

/-- A length field is read back: it is shortest, so it does not start with zero. -/
theorem longExtent_minimal (h : 55 < len) (rest : Bytes) :
    longExtent (Bytes.width len) (Bytes.minimal len ++ rest) = .ok ⟨1 + Bytes.width len, len⟩ := by
  have hwidth := Bytes.length_minimal len
  have hpos := width_pos h
  cases hdigits : Bytes.minimal len with
  | nil =>
    rw [hdigits, List.length_nil] at hwidth
    omega
  | cons first digits =>
    have hfirst : first ≠ 0 := by
      intro hzero
      apply Bytes.head?_minimal len
      rw [hdigits, hzero]
      rfl
    rw [hdigits] at hwidth
    have htake : (first :: digits ++ rest).take (Bytes.width len) = first :: digits := by
      rw [← hwidth, List.take_left]
    have hnat : Bytes.toNat (first :: digits) = len := by
      rw [← hdigits, Bytes.toNat_minimal]
    have hroom : ¬ (first :: (digits ++ rest)).length < Bytes.width len := by
      rw [← hwidth]
      simp
    rw [List.cons_append] at htake ⊢
    simp only [longExtent, if_neg hfirst, if_neg hroom, htake, hnat, if_neg (Nat.not_le.mpr h)]

/-- A header announces the length it was written for. -/
theorem announced_header (hbase : base = 0x80 ∨ base = 0xc0) (hlen : len < 2 ^ 64)
    (rest : Bytes) :
    announced (header base len ++ rest) = .ok ⟨(header base len).length, len⟩ := by
  by_cases h : len ≤ 55
  -- the first byte lies in the range that its base and the kind of header have to themselves
  · rw [header_of_le h, List.singleton_append, announced]
    rcases hbase with rfl | rfl
    · rw [UInt8.toNat_ofNat_of_lt' (show 0x80 + len < 256 by omega)]
      simp [show ¬ 0x80 + len ≤ 0x7f by omega, show 0x80 + len ≤ 0xb7 by omega]
    · rw [UInt8.toNat_ofNat_of_lt' (show 0xc0 + len < 256 by omega)]
      simp [show ¬ 0xc0 + len ≤ 0x7f by omega, show ¬ 0xc0 + len ≤ 0xb7 by omega,
        show ¬ 0xc0 + len ≤ 0xbf by omega, show 0xc0 + len ≤ 0xf7 by omega]
  · have h := Nat.lt_of_not_le h
    have hpos := width_pos h
    have hwidth := width_le_eight hlen
    have hlong := longExtent_minimal h rest
    rw [header_of_lt h, List.cons_append, announced, List.length_cons, Bytes.length_minimal]
    rcases hbase with rfl | rfl
    · rw [UInt8.toNat_ofNat_of_lt' (show 0x80 + 55 + Bytes.width len < 256 by omega)]
      simp [show ¬ 0x80 + 55 + Bytes.width len ≤ 0x7f by omega,
        show ¬ 0x80 + 55 + Bytes.width len ≤ 0xb7 by omega,
        show 0x80 + 55 + Bytes.width len ≤ 0xbf by omega,
        show 0x80 + 55 + Bytes.width len - 0xb7 = Bytes.width len by omega, hlong, Nat.add_comm]
    · rw [UInt8.toNat_ofNat_of_lt' (show 0xc0 + 55 + Bytes.width len < 256 by omega)]
      simp [show ¬ 0xc0 + 55 + Bytes.width len ≤ 0x7f by omega,
        show ¬ 0xc0 + 55 + Bytes.width len ≤ 0xb7 by omega,
        show ¬ 0xc0 + 55 + Bytes.width len ≤ 0xbf by omega,
        show ¬ 0xc0 + 55 + Bytes.width len ≤ 0xf7 by omega,
        show 0xc0 + 55 + Bytes.width len - 0xf7 = Bytes.width len by omega, hlong, Nat.add_comm]

/-! ## Items -/

/-- A byte string that is one item: what follows it does not change what its header announces, and
that is its own length. -/
def IsItem (item : Bytes) : Prop :=
  ∃ e : Extent, e.total = item.length ∧ 0 < e.total ∧ ∀ rest, announced (item ++ rest) = .ok e

theorem length_header_pos (base len : Nat) : 0 < (header base len).length := by
  unfold header
  split <;> exact Nat.succ_pos _

theorem isItem_header (hbase : base = 0x80 ∨ base = 0xc0) {payload : Bytes}
    (hlen : payload.length < 2 ^ 64) : IsItem (header base payload.length ++ payload) := by
  refine ⟨⟨(header base payload.length).length, payload.length⟩, ?_, ?_, ?_⟩
  · rw [List.length_append]
    rfl
  · have := length_header_pos base payload.length
    show 0 < (header base payload.length).length + payload.length
    omega
  · intro rest
    rw [List.append_assoc]
    exact announced_header hbase hlen (payload ++ rest)

/-- A data item is its own single byte, or a header and the bytes. -/
theorem data_cases (bytes : Bytes) :
    (∃ b, b < 0x80 ∧ bytes = [b] ∧ data bytes = [b]) ∨
      (∀ b, bytes = [b] → ¬ b < 0x80) ∧ data bytes = header 0x80 bytes.length ++ bytes := by
  match bytes with
  | [] => exact Or.inr ⟨fun b h => (List.cons_ne_nil b [] h.symm).elim, rfl⟩
  | [b] =>
    by_cases hb : b < 0x80
    · exact Or.inl ⟨b, hb, rfl, if_pos hb⟩
    · refine Or.inr ⟨?_, if_neg hb⟩
      rintro c hc
      cases hc
      exact hb
  | b :: c :: rest =>
    refine Or.inr ⟨?_, rfl⟩
    intro d hd
    cases hd

theorem isItem_data {bytes : Bytes} (hlen : bytes.length < 2 ^ 64) : IsItem (data bytes) := by
  rcases data_cases bytes with ⟨b, hb, -, hdata⟩ | ⟨-, hdata⟩
  · rw [hdata]
    refine ⟨⟨0, 1⟩, rfl, Nat.one_pos, fun rest => ?_⟩
    have hb : b.toNat ≤ 0x7f := by
      have : b.toNat < 0x80 := UInt8.lt_iff_toNat_lt.mp hb
      omega
    exact if_pos hb
  · rw [hdata]
    exact isItem_header (Or.inl rfl) hlen

theorem isItem_list {contents : List Bytes} (hlen : contents.flatten.length < 2 ^ 64) :
    IsItem (list contents) :=
  isItem_header (Or.inr rfl) hlen

/-- Written data is at least as long as the bytes. -/
theorem length_le_data (bytes : Bytes) : bytes.length ≤ (data bytes).length := by
  rcases data_cases bytes with ⟨b, -, hbytes, hdata⟩ | ⟨-, hdata⟩
  · rw [hbytes] at hdata ⊢
    rw [hdata]
  · rw [hdata, List.length_append]
    omega

theorem length_data_pos (bytes : Bytes) : 0 < (data bytes).length := by
  rcases data_cases bytes with ⟨b, -, -, hdata⟩ | ⟨-, hdata⟩
  · rw [hdata]
    exact Nat.one_pos
  · rw [hdata, List.length_append]
    have := length_header_pos 0x80 bytes.length
    omega

/-- A written list is longer than its payload. -/
theorem length_lt_list (contents : List Bytes) :
    contents.flatten.length < (list contents).length := by
  have := length_header_pos 0xc0 contents.flatten.length
  show _ < (header 0xc0 contents.flatten.length ++ contents.flatten).length
  rw [List.length_append]
  omega

/-! ## Cutting a payload -/

theorem IsItem.extent_append {item : Bytes} (h : IsItem item) (rest : Bytes) :
    ∃ e, extent (item ++ rest) = .ok e ∧ e.total = item.length := by
  obtain ⟨e, htotal, -, hannounced⟩ := h
  refine ⟨e, ?_, htotal⟩
  have hfits : e.total ≤ (item ++ rest).length := by
    rw [htotal, List.length_append]
    omega
  unfold extent
  rw [hannounced rest]
  exact if_pos hfits

theorem itemsWithin_flatten {contents : List Bytes} (h : ∀ item ∈ contents, IsItem item)
    {fuel : Nat} (hfuel : contents.length ≤ fuel) :
    itemsWithin fuel contents.flatten = contents := by
  induction contents generalizing fuel with
  | nil =>
    cases fuel with
    | zero => rfl
    | succ fuel => rfl
  | cons item contents ih =>
    cases fuel with
    | zero => exact absurd hfuel (Nat.not_succ_le_zero _)
    | succ fuel =>
      obtain ⟨e, hextent, htotal⟩ :=
        (h item List.mem_cons_self).extent_append contents.flatten
      rw [List.flatten_cons, itemsWithin, hextent]
      simp only [htotal, List.take_left, List.drop_left]
      rw [ih (fun other hother => h other (List.mem_cons_of_mem _ hother))
        (Nat.le_of_succ_le_succ hfuel)]

theorem cut_flatten {contents : List Bytes} (h : ∀ item ∈ contents, IsItem item) :
    cut contents.flatten = contents := by
  apply itemsWithin_flatten h
  -- every item has a byte, so the payload has as many bytes as items
  have hpos : ∀ n ∈ contents.map List.length, 1 ≤ n := by
    intro n hn
    obtain ⟨item, hitem, rfl⟩ := List.mem_map.mp hn
    obtain ⟨e, htotal, hlt, -⟩ := h item hitem
    omega
  rw [List.length_flatten]
  simpa using List.length_le_sum_of_one_le _ hpos

theorem isList_list (contents : List Bytes) (hlen : contents.flatten.length < 2 ^ 64) :
    isList (list contents) = true := by
  have hwidth := width_le_eight hlen
  show isList (header 0xc0 contents.flatten.length ++ contents.flatten) = true
  by_cases h : contents.flatten.length ≤ 55
  · rw [header_of_le h, List.singleton_append, isList, decide_eq_true_eq, UInt8.le_iff_toNat_le,
      UInt8.toNat_ofNat_of_lt' (show 0xc0 + contents.flatten.length < 256 by omega)]
    exact Nat.le_add_right _ _
  · rw [header_of_lt (Nat.lt_of_not_le h), List.cons_append, isList, decide_eq_true_eq,
      UInt8.le_iff_toNat_le, UInt8.toNat_ofNat_of_lt'
        (show 0xc0 + 55 + Bytes.width contents.flatten.length < 256 by omega)]
    show 0xc0 ≤ 0xc0 + 55 + _
    omega

/-- A written list is one whole item. -/
theorem extent_list {contents : List Bytes} (hlen : contents.flatten.length < 2 ^ 64) :
    extent (list contents) =
      .ok ⟨(header 0xc0 contents.flatten.length).length, contents.flatten.length⟩ := by
  have hannounced : announced (list contents) =
      .ok ⟨(header 0xc0 contents.flatten.length).length, contents.flatten.length⟩ :=
    announced_header (Or.inr rfl) hlen contents.flatten
  unfold extent
  rw [hannounced]
  refine if_pos ?_
  show (header 0xc0 contents.flatten.length).length + contents.flatten.length ≤
    (header 0xc0 contents.flatten.length ++ contents.flatten).length
  rw [List.length_append]

/-- The items of a written list are the ones it was written with. -/
theorem items_list {contents : List Bytes} (h : ∀ item ∈ contents, IsItem item)
    (hlen : contents.flatten.length < 2 ^ 64) : items (list contents) = contents := by
  rw [items, if_pos (isList_list contents hlen), extent_list hlen]
  show cut (((header 0xc0 contents.flatten.length ++ contents.flatten).take
    ((header 0xc0 contents.flatten.length).length + contents.flatten.length)).drop
      (header 0xc0 contents.flatten.length).length) = contents
  rw [← List.length_append, List.take_length, List.drop_left, cut_flatten h]

/-! ## The bytes of a data item -/

theorem payload_header {bytes : Bytes} (hlen : bytes.length < 2 ^ 64)
    (big : ∀ b, bytes = [b] → ¬ b < 0x80) :
    payload (header 0x80 bytes.length ++ bytes) = .ok bytes := by
  by_cases h : bytes.length ≤ 55
  · rw [header_of_le h, List.singleton_append, payload,
      UInt8.toNat_ofNat_of_lt' (show 0x80 + bytes.length < 256 by omega)]
    -- one byte below 0x80 would have been written without a header
    have hone : ¬ (0x80 + bytes.length = 0x81 ∧ bytes.all (· < 0x80)) := by
      rintro ⟨hlength, hall⟩
      obtain ⟨b, rfl⟩ := List.length_eq_one_iff.mp (show bytes.length = 1 by omega)
      exact big b rfl (by simpa using hall)
    simp only [if_neg (show ¬ 0x80 + bytes.length ≤ 0x7f by omega),
      if_pos (show 0x80 + bytes.length ≤ 0xb7 by omega), Nat.add_sub_cancel_left,
      if_neg (Nat.lt_irrefl bytes.length), List.take_length, if_neg hone]
  · have h := Nat.lt_of_not_le h
    have hpos := width_pos h
    have hwidth := width_le_eight hlen
    rw [header_of_lt h, List.cons_append, payload,
      UInt8.toNat_ofNat_of_lt' (show 0x80 + 55 + Bytes.width bytes.length < 256 by omega)]
    have hlength := Bytes.length_minimal bytes.length
    have htake : (Bytes.minimal bytes.length ++ bytes).take (Bytes.width bytes.length) =
        Bytes.minimal bytes.length := by
      rw [← hlength, List.take_left]
    have hdrop : (Bytes.minimal bytes.length ++ bytes).drop (Bytes.width bytes.length) =
        bytes := by
      rw [← hlength, List.drop_left]
    have hroom : (Bytes.minimal bytes.length ++ bytes).length =
        Bytes.width bytes.length + bytes.length := by
      rw [List.length_append, hlength]
    simp only [if_neg (show ¬ 0x80 + 55 + Bytes.width bytes.length ≤ 0x7f by omega),
      if_neg (show ¬ 0x80 + 55 + Bytes.width bytes.length ≤ 0xb7 by omega),
      if_pos (show 0x80 + 55 + Bytes.width bytes.length ≤ 0xbf by omega),
      show 0x80 + 55 + Bytes.width bytes.length - 0xb7 = Bytes.width bytes.length by omega,
      htake, hdrop, hroom, Bytes.toNat_minimal, if_neg (Bytes.head?_minimal bytes.length),
      if_neg (Nat.lt_irrefl _), List.take_length]
    rw [if_neg (by omega)]

/-- The bytes of a written data item are the ones it was written with. -/
theorem payload_data {bytes : Bytes} (hlen : bytes.length < 2 ^ 64) :
    payload (data bytes) = .ok bytes := by
  rcases data_cases bytes with ⟨b, hb, rfl, hdata⟩ | ⟨big, hdata⟩
  · rw [hdata]
    have hb : b.toNat ≤ 0x7f := by
      have : b.toNat < 0x80 := UInt8.lt_iff_toNat_lt.mp hb
      omega
    exact if_pos hb
  · rw [hdata]
    exact payload_header hlen big

/-! ## Lists of data -/

/-- No byte string in a list of data is longer than the payload. -/
theorem length_le_of_mem_data {strings : List Bytes} {bytes : Bytes} (h : bytes ∈ strings) :
    bytes.length ≤ (strings.map data).flatten.length :=
  Nat.le_trans (length_le_data bytes)
    (List.sublist_flatten_of_mem (List.mem_map_of_mem h)).length_le

/-- A list of data has the data as its items. -/
theorem items_list_data {strings : List Bytes}
    (hlen : (strings.map data).flatten.length < 2 ^ 64) :
    items (list (strings.map data)) = strings.map data := by
  refine items_list (fun item hitem => ?_) hlen
  obtain ⟨bytes, hbytes, rfl⟩ := List.mem_map.mp hitem
  exact isItem_data (Nat.lt_of_le_of_lt (length_le_of_mem_data hbytes) hlen)

end IstanbulMonitor.Rlp
