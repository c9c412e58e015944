import IstanbulMonitor.Proofs.Rlp.Framing

/-!
# Reading accepts one spelling

A header is accepted in its shortest form only (`Rlp.announced_cases`), so the bytes of a data item
fix the item (`Rlp.data_of_payload`). A list is a header, the items that it is cut into, and a tail
that does not start with an item (`Rlp.cut_append`). The tail is all that the items do not tell of a
list: `Rlp.Exhausted` says that there is none, and then the list is the one that is written with its
items (`Rlp.list_items_iff`).
-/

set_option autoImplicit false

namespace IstanbulMonitor.Rlp

variable {bytes item : Bytes} {e : Extent} {base len : Nat}

/-! ## Headers -/

/-- The base of the header that an item starts with. -/
def baseOf (bytes : Bytes) : Nat := if isList bytes then 0xc0 else 0x80

theorem baseOf_cases (bytes : Bytes) : baseOf bytes = 0x80 ∨ baseOf bytes = 0xc0 := by
  unfold baseOf
  split
  · exact Or.inr rfl
  · exact Or.inl rfl

theorem baseOf_of_lt {b : UInt8} (tail : Bytes) (h : b.toNat < 0xc0) :
    baseOf (b :: tail) = 0x80 := by
  refine if_neg fun hlist => ?_
  have hle := UInt8.le_iff_toNat_le.mp (of_decide_eq_true hlist)
  exact absurd hle (Nat.not_le.mpr h)

theorem baseOf_of_le {b : UInt8} (tail : Bytes) (h : 0xc0 ≤ b.toNat) :
    baseOf (b :: tail) = 0xc0 := by
  have hle : 0xc0 ≤ b := UInt8.le_iff_toNat_le.mpr h
  exact if_pos (decide_eq_true hle)

/-- A length field is read only if it is the shortest one for its length. -/
theorem eq_of_longExtent {digits : Nat} {tail : Bytes} (pos : 0 < digits)
    (h : longExtent digits tail = .ok e) :
    55 < e.payload ∧ e.header = 1 + digits ∧ tail.take digits = Bytes.minimal e.payload ∧
      digits ≤ tail.length := by
  cases tail with
  | nil => cases h
  | cons first rest =>
    simp only [longExtent] at h
    split at h
    · cases h
    · next hfirst =>
      split at h
      · cases h
      · next hroom =>
        split at h
        · cases h
        · next hlong =>
          cases h
          obtain ⟨k, rfl⟩ : ∃ k, digits = k + 1 := ⟨digits - 1, by omega⟩
          have hhead : ((first :: rest).take (k + 1)).head? ≠ some 0 := by
            simpa using hfirst
          exact ⟨Nat.lt_of_not_le hlong, rfl, (Bytes.minimal_toNat hhead).symm,
            Nat.le_of_not_lt hroom⟩

/-- A byte string with a long header starts with the header that is written for its length. -/
theorem eq_header_of_longExtent {b : UInt8} {tail : Bytes} {digits : Nat} (pos : 0 < digits)
    (few : digits ≤ 8) (hb : b.toNat = base + 55 + digits) (h : longExtent digits tail = .ok e) :
    ∃ rest, b :: tail = header base e.payload ++ rest ∧
      e.header = (header base e.payload).length ∧ e.payload < 2 ^ 64 := by
  obtain ⟨hlong, hheader, hdigits, hroom⟩ := eq_of_longExtent pos h
  have hwidth : Bytes.width e.payload = digits := by
    rw [← Bytes.length_minimal, ← hdigits, List.length_take]
    omega
  have hfirst : b = UInt8.ofNat (base + 55 + Bytes.width e.payload) := by
    rw [hwidth, ← hb, UInt8.ofNat_toNat]
  refine ⟨tail.drop digits, ?_, ?_, ?_⟩
  · rw [header_of_lt hlong, ← hfirst, ← hdigits, List.cons_append, List.take_append_drop]
  · rw [header_of_lt hlong, List.length_cons, Bytes.length_minimal, hwidth, hheader, Nat.add_comm]
  · exact (Bytes.width_le_iff e.payload 8).mp (hwidth ▸ few)

/-- What starts with a header that is accepted is a byte below `0x80`, or it starts with the header
that is written for its length. -/
theorem announced_cases (h : announced bytes = .ok e) :
    (∃ b rest, b < 0x80 ∧ bytes = b :: rest ∧ e = ⟨0, 1⟩) ∨
      ∃ rest, bytes = header (baseOf bytes) e.payload ++ rest ∧
        e.header = (header (baseOf bytes) e.payload).length ∧ e.payload < 2 ^ 64 := by
  cases bytes with
  | nil => cases h
  | cons b tail =>
    have hb : b.toNat < 256 := b.toNat_lt
    -- a short header is its first byte alone
    have short : ∀ base, b.toNat = base + (b.toNat - base) → b.toNat - base ≤ 55 →
        ∃ rest, b :: tail = header base (b.toNat - base) ++ rest ∧
          1 = (header base (b.toNat - base)).length ∧ b.toNat - base < 2 ^ 64 := by
      intro base hbase hle
      refine ⟨tail, ?_, ?_, by omega⟩
      · rw [header_of_le hle, ← hbase, UInt8.ofNat_toNat]
        rfl
      · rw [header_of_le hle]
        rfl
    simp only [announced] at h
    split at h
    · next hbyte =>
      cases h
      refine Or.inl ⟨b, tail, ?_, rfl, rfl⟩
      rw [UInt8.lt_iff_toNat_lt]
      exact Nat.lt_succ_of_le hbyte
    · refine Or.inr ?_
      split at h
      · next hshort =>
        cases h
        rw [baseOf_of_lt tail (by omega)]
        exact short 0x80 (by omega) (by omega)
      · split at h
        · next hlong =>
          rw [baseOf_of_lt tail (by omega)]
          exact eq_header_of_longExtent (by omega) (by omega) (by omega) h
        · rw [baseOf_of_le tail (by omega)]
          split at h
          · next hshort =>
            cases h
            exact short 0xc0 (by omega) (by omega)
          · exact eq_header_of_longExtent (by omega) (by omega) (by omega) h

/-- A longer payload has no shorter header, of either kind. -/
theorem length_header_mono {base' len' : Nat} (h : len ≤ len') :
    (header base len).length ≤ (header base' len').length := by
  by_cases hlen : len ≤ 55
  · rw [header_of_le hlen]
    exact length_header_pos base' len'
  · rw [header_of_lt (Nat.lt_of_not_le hlen),
      header_of_lt (Nat.lt_of_lt_of_le (Nat.lt_of_not_le hlen) h), List.length_cons,
      List.length_cons, Bytes.length_minimal, Bytes.length_minimal]
    exact Nat.succ_le_succ
      ((Bytes.width_le_iff len _).mpr (Nat.lt_of_le_of_lt h (Bytes.lt_pow_width len')))

/-! ## Items -/

/-- What an accepted header announces is one whole item. -/
theorem isItem_take (h : extent bytes = .ok e) : IsItem (bytes.take e.total) := by
  unfold extent at h
  cases hannounced : announced bytes with
  | error fault =>
    rw [hannounced] at h
    cases h
  | ok e' =>
    rw [hannounced] at h
    change (if e'.total ≤ bytes.length then (.ok e' : Except Fault Extent)
      else .error .tooShort) = .ok e at h
    split at h
    · next hfits =>
      cases h
      rcases announced_cases hannounced with ⟨b, rest, hb, rfl, rfl⟩ | ⟨rest, hbytes, hheader, hlen⟩
      · have hitem : IsItem (data [b]) := isItem_data (Nat.one_lt_two_pow (by decide))
        rwa [data, if_pos hb] at hitem
      · -- the payload is the first part of what follows the header
        generalize hhead : header (baseOf bytes) e.payload = head at hbytes hheader
        have htotal : e.total = head.length + e.payload := by rw [← hheader]; rfl
        have hpayload : (rest.take e.payload).length = e.payload := by
          have hlength := congrArg List.length hbytes
          rw [List.length_append] at hlength
          rw [List.length_take]
          omega
        have htake : bytes.take e.total = head ++ rest.take e.payload := by
          rw [htotal, hbytes, List.take_length_add_append]
        have hitem := isItem_header (baseOf_cases bytes) (hpayload.symm ▸ hlen)
        rw [hpayload, hhead] at hitem
        rw [htake]
        exact hitem
    · cases h

/-- An item is a byte below `0x80`, or a header and its payload. -/
theorem IsItem.cases (h : IsItem item) :
    (∃ b, b < 0x80 ∧ item = [b]) ∨
      ∃ payload : Bytes, payload.length < 2 ^ 64 ∧
        item = header (baseOf item) payload.length ++ payload := by
  obtain ⟨e, htotal, -, hannounced⟩ := h
  have hannounced := hannounced []
  rw [List.append_nil] at hannounced
  rcases announced_cases hannounced with ⟨b, rest, hb, rfl, rfl⟩ | ⟨rest, hitem, hheader, hlen⟩
  · -- the item is as long as its first byte
    have hrest : rest = [] := List.eq_nil_of_length_eq_zero (Nat.succ.inj htotal.symm)
    exact Or.inl ⟨b, hb, by rw [hrest]⟩
  · have hlength := congrArg List.length hitem
    rw [List.length_append, ← hheader, ← htotal] at hlength
    have hrest : e.payload = rest.length := Nat.add_left_cancel hlength
    rw [hrest] at hitem hlen
    exact Or.inr ⟨rest, hlen, hitem⟩

theorem IsItem.isList_cases (h : IsItem item) (list : isList item = true) :
    ∃ contents : Bytes, contents.length < 2 ^ 64 ∧
      item = header 0xc0 contents.length ++ contents := by
  rcases h.cases with ⟨b, hb, rfl⟩ | ⟨contents, hlen, hitem⟩
  · -- a single byte is no list
    have hle := UInt8.le_iff_toNat_le.mp (of_decide_eq_true list)
    have hlt := UInt8.lt_iff_toNat_lt.mp hb
    exact absurd (Nat.lt_of_le_of_lt hle hlt) (by decide)
  · rw [baseOf, if_pos list] at hitem
    exact ⟨contents, hlen, hitem⟩

/-- A list is no data. -/
theorem payload_of_isList (list : isList item = true) : payload item = .error .expectedData := by
  cases item with
  | nil => cases list
  | cons b tail =>
    have hle : 0xc0 ≤ b.toNat := UInt8.le_iff_toNat_le.mp (of_decide_eq_true list)
    simp only [payload]
    rw [if_neg (by omega), if_neg (by omega), if_neg (by omega)]

/-- A data item is the one that is written for the bytes read from it. -/
theorem data_of_payload (h : IsItem item) {body : Bytes} (read : payload item = .ok body) :
    data body = item := by
  have notList : ¬ isList item = true := by
    intro list
    rw [payload_of_isList list] at read
    cases read
  rcases h.cases with ⟨b, hb, rfl⟩ | ⟨contents, hlen, hitem⟩
  · have hle : b.toNat ≤ 0x7f := Nat.le_of_lt_succ (UInt8.lt_iff_toNat_lt.mp hb)
    rw [payload, if_pos hle] at read
    cases read
    exact if_pos hb
  · rw [baseOf, if_neg notList] at hitem
    rcases data_cases contents with ⟨b, hb, rfl, -⟩ | ⟨big, hdata⟩
    · -- a byte below 0x80 is not read from behind a header
      have hrejected : payload (header 0x80 [b].length ++ [b]) = .error .badIndirection := by
        have hhead : header 0x80 [b].length ++ [b] = [0x81, b] := rfl
        rw [hhead, payload, show UInt8.toNat 0x81 = 129 from rfl]
        simp [hb]
      rw [hitem, hrejected] at read
      cases read
    · rw [hitem, payload_header hlen big] at read
      cases read
      rw [hdata, ← hitem]

theorem payload_of_fixedPayload {n : Nat} {body : Bytes} (h : fixedPayload n item = .ok body) :
    payload item = .ok body ∧ body.length = n := by
  cases hpayload : payload item with
  | error fault =>
    rw [fixedPayload, hpayload] at h
    cases h
  | ok read =>
    rw [fixedPayload, hpayload] at h
    change (if read.length < n then (.error .tooShort : Except Fault Bytes)
      else if n < read.length then .error .tooBig else .ok read) = .ok body at h
    split at h
    · cases h
    · split at h
      · cases h
      · cases h
        exact ⟨rfl, by omega⟩

/-! ## Lists -/

/-- A payload is made of its items and a tail that does not start with one. -/
theorem itemsWithin_append {fuel : Nat} (hfuel : bytes.length ≤ fuel) :
    (∃ tail fault, bytes = (itemsWithin fuel bytes).flatten ++ tail ∧
        extent tail = .error fault) ∧
      ∀ item ∈ itemsWithin fuel bytes, IsItem item := by
  induction fuel generalizing bytes with
  | zero =>
    obtain rfl : bytes = [] := List.eq_nil_of_length_eq_zero (Nat.le_zero.mp hfuel)
    exact ⟨⟨[], .tooShort, rfl, rfl⟩, fun item h => absurd h List.not_mem_nil⟩
  | succ fuel ih =>
    cases hextent : extent bytes with
    | error fault =>
      rw [itemsWithin, hextent]
      exact ⟨⟨bytes, fault, rfl, hextent⟩, fun item h => absurd h List.not_mem_nil⟩
    | ok e =>
      have first := isItem_take hextent
      -- an item has at least one byte, so the fuel lasts
      have hshorter : (bytes.drop e.total).length ≤ fuel := by
        obtain ⟨e', htotal, hpos, -⟩ := first
        rw [List.length_take] at htotal
        rw [List.length_drop]
        omega
      obtain ⟨⟨tail, fault, htail, hfault⟩, hitems⟩ := ih hshorter
      rw [itemsWithin, hextent]
      refine ⟨⟨tail, fault, ?_, hfault⟩, ?_⟩
      · simp only [List.flatten_cons, List.append_assoc]
        rw [← htail, List.take_append_drop]
      · intro item hitem
        rcases List.mem_cons.mp hitem with rfl | hitem
        · exact first
        · exact hitems item hitem

theorem cut_append (payload : Bytes) :
    (∃ tail fault, payload = (cut payload).flatten ++ tail ∧ extent tail = .error fault) ∧
      ∀ item ∈ cut payload, IsItem item :=
  itemsWithin_append (Nat.le_refl _)

/-- The items of a payload are no longer than the payload. -/
theorem length_flatten_cut_le (payload : Bytes) : (cut payload).flatten.length ≤ payload.length := by
  obtain ⟨⟨tail, fault, htail, -⟩, -⟩ := cut_append payload
  have hlength := congrArg List.length htail
  rw [List.length_append] at hlength
  omega

/-- The items of a list are what its payload is cut into. -/
theorem items_header {contents : Bytes} (hlen : contents.length < 2 ^ 64) :
    extent (header 0xc0 contents.length ++ contents) =
        .ok ⟨(header 0xc0 contents.length).length, contents.length⟩ ∧
      items (header 0xc0 contents.length ++ contents) = cut contents := by
  -- any bytes are the payload of the list that is written with them as its only part
  have hflatten : [contents].flatten = contents := List.append_nil contents
  have hlist : list [contents] = header 0xc0 contents.length ++ contents := by
    unfold list
    rw [hflatten]
  have hsmall : [contents].flatten.length < 2 ^ 64 := hflatten.symm ▸ hlen
  have hextent := extent_list hsmall
  have hisList := isList_list [contents] hsmall
  rw [hflatten, hlist] at hextent
  rw [hlist] at hisList
  refine ⟨hextent, ?_⟩
  rw [items, if_pos hisList, hextent]
  show cut (((header 0xc0 contents.length ++ contents).take
    ((header 0xc0 contents.length).length + contents.length)).drop
      (header 0xc0 contents.length).length) = cut contents
  rw [← List.length_append, List.take_length, List.drop_left]

/-- The items of a list are items. -/
theorem isItem_of_mem_items (h : item ∈ items bytes) : IsItem item := by
  unfold items at h
  split at h
  · cases hextent : extent bytes with
    | error fault =>
      rw [hextent] at h
      exact absurd h List.not_mem_nil
    | ok e =>
      rw [hextent] at h
      exact (cut_append _).2 item h
  · exact absurd h List.not_mem_nil

/-- The payload of a list that is an item has a length that can be written down. -/
theorem IsItem.length_flatten_lt {contents : List Bytes} (h : IsItem (list contents)) :
    contents.flatten.length < 2 ^ 64 := by
  have hlength : (list contents).length =
      (header 0xc0 contents.flatten.length).length + contents.flatten.length := List.length_append
  rcases h.cases with ⟨b, -, hitem⟩ | ⟨payload, hlen, hitem⟩
  · have hone := congrArg List.length hitem
    rw [hlength, List.length_singleton] at hone
    omega
  · have hsame := congrArg List.length hitem
    rw [hlength, List.length_append] at hsame
    by_contra hlarge
    have hheader : (header (baseOf (list contents)) payload.length).length ≤
        (header 0xc0 contents.flatten.length).length := length_header_mono (by omega)
    omega

/-- An item that is a list of items has these items. -/
theorem items_of_list_eq {contents : List Bytes} (h : IsItem item)
    (each : ∀ part ∈ contents, IsItem part) (eq : list contents = item) :
    items item = contents := by
  subst eq
  exact items_list each h.length_flatten_lt

/-- A list that its items make up: no tail is left behind them. -/
def Exhausted (item : Bytes) : Prop :=
  isList item = true ∧ ∃ e, extent item = .ok e ∧
    (items item).flatten = (item.take e.total).drop e.header

/-- The items of an item are a list that can be written. -/
theorem isItem_list_items (h : IsItem item) : IsItem (list (items item)) := by
  apply isItem_list
  by_cases hlist : isList item = true
  · obtain ⟨contents, hlen, rfl⟩ := h.isList_cases hlist
    rw [(items_header hlen).2]
    exact Nat.lt_of_le_of_lt (length_flatten_cut_le contents) hlen
  · rw [items, if_neg hlist]
    decide

/-- Written lists are the same only if their payloads are. -/
theorem header_append_inj {first second : Bytes} (hfirst : first.length < 2 ^ 64)
    (hsecond : second.length < 2 ^ 64)
    (h : header 0xc0 first.length ++ first = header 0xc0 second.length ++ second) :
    first = second := by
  have hannounced := announced_header (Or.inr rfl) hfirst first
  rw [h, announced_header (Or.inr rfl) hsecond second] at hannounced
  simp only [Except.ok.injEq, Extent.mk.injEq] at hannounced
  rw [hannounced.2] at h
  exact List.append_cancel_left h

/-- A list is written again from its items exactly if they make it up. What is no list has no items,
and so the empty list would be written for it. -/
theorem list_items_iff (h : IsItem item) : list (items item) = item ↔ Exhausted item := by
  by_cases hlist : isList item = true
  · obtain ⟨contents, hlen, rfl⟩ := h.isList_cases hlist
    obtain ⟨hextent, hitems⟩ := items_header hlen
    have hpayload : ((header 0xc0 contents.length ++ contents).take
        (Extent.total ⟨(header 0xc0 contents.length).length, contents.length⟩)).drop
          (header 0xc0 contents.length).length = contents := by
      rw [Extent.total, ← List.length_append, List.take_length, List.drop_left]
    rw [hitems]
    constructor
    · intro heq
      refine ⟨hlist, _, hextent, ?_⟩
      rw [hitems, hpayload]
      exact header_append_inj (Nat.lt_of_le_of_lt (length_flatten_cut_le contents) hlen) hlen heq
    · rintro ⟨-, e, he, hflatten⟩
      rw [hextent] at he
      cases he
      rw [hitems, hpayload] at hflatten
      unfold list
      rw [hflatten]
  · constructor
    · intro heq
      rw [items, if_neg hlist] at heq
      rw [← heq] at hlist
      exact absurd rfl hlist
    · exact fun exhausted => absurd exhausted.1 hlist

end IstanbulMonitor.Rlp
