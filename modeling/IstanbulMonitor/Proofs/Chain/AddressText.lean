import IstanbulMonitor.Proofs.Chain.Checksum
import IstanbulMonitor.Proofs.Chain.Spellings
import IstanbulMonitor.Text.Blank

/-!
# The texts of an address

Bytes are read from digits of any letter case and from nothing else: in lower case, the digits that
were read are the ones that are written (`Hex.decode?_eq_some_iff`). The checksum digits of an
address are such digits, and so are all their other spellings; an address is read from them, after a
mark or none, and every other text is refused (`Address.parse_iff_spells`).
-/

set_option autoImplicit false

namespace IstanbulMonitor

namespace Hex

/-- What has a value is a digit, up to its case. -/
theorem toLower_of_value? {c : Char} {d : Nat} (h : value? c = some d) :
    c.toLower = digit d ∧ d < 16 := by
  have hdigits : ∀ n < 103, ∀ d ∈ value? (Char.ofNat n),
      (Char.ofNat n).toLower = digit d ∧ d < 16 := by decide
  have hsmall : c.toNat < 103 := by
    have hle : c ≤ '9' ∨ c ≤ 'f' ∨ c ≤ 'F' := by
      unfold value? at h
      split at h
      · next hc => exact .inl hc.2
      · split at h
        · next hc => exact .inr (.inl hc.2)
        · split at h
          · next hc => exact .inr (.inr hc.2)
          · cases h
    have hcode : ∀ d : Char, c ≤ d → c.toNat ≤ d.toNat := fun d => UInt32.le_iff_toNat_le.mp
    rcases hle with hle | hle | hle
    · exact Nat.lt_of_le_of_lt (hcode '9' hle) (by decide)
    · exact Nat.lt_of_le_of_lt (hcode 'f' hle) (by decide)
    · exact Nat.lt_of_le_of_lt (hcode 'F' hle) (by decide)
  have hc := hdigits c.toNat hsmall d
  rw [Char.ofNat_toNat] at hc
  exact hc h

/-- Digits in lower case are those of the bytes that they denote. -/
theorem map_toLower_of_decode? : ∀ {cs : List Char} {bytes : Bytes},
    decode? cs = some bytes → cs.map Char.toLower = encode bytes
  | [], bytes, h => by
    cases h
    rfl
  | [_], bytes, h => by cases h
  | a :: b :: cs, bytes, h => by
    simp only [decode?, Option.bind_eq_bind, Option.bind_eq_some_iff, Option.some.injEq] at h
    obtain ⟨high, hhigh, low, hlow, rest, hrest, rfl⟩ := h
    obtain ⟨ha, hhigh⟩ := toLower_of_value? hhigh
    obtain ⟨hb, hlow⟩ := toLower_of_value? hlow
    have hbyte : (UInt8.ofNat (16 * high + low)).toNat = 16 * high + low := by
      rw [UInt8.toNat_ofNat']
      omega
    have hdiv : (16 * high + low) / 16 = high := by omega
    have hmod : (16 * high + low) % 16 = low := by omega
    rw [List.map_cons, List.map_cons, map_toLower_of_decode? hrest, encode, hbyte, hdiv, hmod, ha,
      hb]

/-- Bytes are read from their digits in any letter case, and from no other text. -/
theorem decode?_eq_some_iff {cs : List Char} {bytes : Bytes} :
    decode? cs = some bytes ↔ cs.map Char.toLower = encode bytes := by
  refine ⟨map_toLower_of_decode?, fun same => ?_⟩
  rw [← decode?_map_toLower, same, decode?_encode]

/-- The ways in which hex digits are marked. -/
def marks : List (List Char) := [['0', 'x'], ['0', 'X'], []]

/-- What is left of a text without its mark follows one of the marks. -/
theorem exists_mark (cs : List Char) : ∃ mark ∈ marks, cs = mark ++ unprefixed cs := by
  unfold unprefixed
  split
  · exact ⟨['0', 'x'], by decide, rfl⟩
  · exact ⟨['0', 'X'], by decide, rfl⟩
  · exact ⟨[], by decide, rfl⟩

/-- A mark before the digits of bytes is left out. -/
theorem unprefixed_append {mark digits : List Char} {bytes : Bytes} (marked : mark ∈ marks)
    (same : digits.map Char.toLower = encode bytes) : unprefixed (mark ++ digits) = digits := by
  simp only [marks, List.mem_cons, List.not_mem_nil, or_false] at marked
  rcases marked with rfl | rfl | rfl
  · rfl
  · rfl
  · exact unprefixed_of_map_toLower same

end Hex

/-- What is taken for a byte string of fixed length has its bytes. -/
theorem FixedBytes.toList_of_ofBytes? {n : Nat} {bytes : Bytes} {x : FixedBytes n}
    (h : ofBytes? bytes = some x) : x.toList = bytes := by
  unfold ofBytes? at h
  split at h
  · cases h
    rfl
  · cases h

namespace Address

variable {a : Address} {text : String}

/-! ## Checksum digits -/

/-- The checksum digits are the digits of the address, some of them in upper case. -/
theorem map_toLower_checksumDigits (a : Address) :
    a.checksumDigits.map Char.toLower = Hex.encode a.toList :=
  Hex.map_toLower_of_decode? a.decode?_checksumDigits

theorem length_checksumDigits (a : Address) : a.checksumDigits.length = 40 := by
  have h := congrArg List.length a.map_toLower_checksumDigits
  rwa [List.length_map, Hex.length_encode, a.length_toList] at h

theorem exists_value?_of_mem_checksumDigits {c : Char} (mem : c ∈ a.checksumDigits) :
    ∃ d, Hex.value? c = some d := by
  have hmem : c.toLower ∈ Hex.encode a.toList := by
    rw [← map_toLower_checksumDigits]
    exact List.mem_map_of_mem mem
  obtain ⟨d, hd, hc⟩ := Hex.exists_digit_of_mem_encode hmem
  refine ⟨d, ?_⟩
  rw [← Hex.value?_toLower, hc]
  exact Hex.value?_digit d hd

/-- In lower case the checksum text is the hex form. -/
theorem lower_checksum (a : Address) : Text.lower a.checksum = a.hex := by
  have hmark : ['0', 'x'].map Char.toLower = ['0', 'x'] := by decide
  have hmap : ('0' :: 'x' :: a.checksumDigits).map Char.toLower =
      '0' :: 'x' :: Hex.encode a.toList := by
    have hsplit : '0' :: 'x' :: a.checksumDigits = ['0', 'x'] ++ a.checksumDigits := rfl
    rw [hsplit, List.map_append, hmark, map_toLower_checksumDigits]
    rfl
  rw [Text.lower, checksum, String.toList_ofList, hmap]
  rfl

/-! ## What is read -/

/-- The texts of an address: its checksum digits in any letter case, after a mark or none. -/
inductive Spells (a : Address) : String → Prop where
  | recased {mark digits : List Char} (marked : mark ∈ Hex.marks)
      (same : digits.map Char.toLower = a.checksumDigits.map Char.toLower) :
      Spells a (String.ofList (mark ++ digits))

/-- Bytes of the right number make an address, and every other text is refused as it stands. -/
theorem parse_eq (text : String) :
    parse text =
      match (Hex.decode? (Hex.unprefixed text.toList)).bind FixedBytes.ofBytes? with
      | some a => .ok a
      | none => .error (.invalidHex text) := by
  unfold parse Hex.parse
  cases Hex.decode? (Hex.unprefixed text.toList) with
  | none => rfl
  | some bytes => rfl

theorem parse_eq_ok_iff :
    parse text = .ok a ↔ Hex.decode? (Hex.unprefixed text.toList) = some a.toList := by
  have hbytes : parse text = .ok a ↔
      (Hex.decode? (Hex.unprefixed text.toList)).bind FixedBytes.ofBytes? = some a := by
    rw [parse_eq]
    cases (Hex.decode? (Hex.unprefixed text.toList)).bind FixedBytes.ofBytes? <;> simp
  rw [hbytes, Option.bind_eq_some_iff]
  constructor
  · rintro ⟨bytes, hdecode, hread⟩
    rw [hdecode, FixedBytes.toList_of_ofBytes? hread]
  · intro hdecode
    exact ⟨a.toList, hdecode, a.ofBytes?_toList⟩

theorem parse_cases (text : String) :
    (∃ a, parse text = .ok a) ∨ parse text = .error (.invalidHex text) := by
  rw [parse_eq]
  cases (Hex.decode? (Hex.unprefixed text.toList)).bind FixedBytes.ofBytes? with
  | none => exact .inr rfl
  | some a => exact .inl ⟨a, rfl⟩

/-- An address is read from its texts only. -/
theorem spells_iff : a.Spells text ↔ parse text = .ok a := by
  rw [parse_eq_ok_iff, Hex.decode?_eq_some_iff]
  constructor
  · rintro ⟨marked, same⟩
    rw [map_toLower_checksumDigits] at same
    rw [String.toList_ofList, Hex.unprefixed_append marked same, same]
  · intro same
    obtain ⟨mark, marked, hsplit⟩ := Hex.exists_mark text.toList
    rw [← map_toLower_checksumDigits] at same
    rw [← text.ofList_toList, hsplit]
    exact .recased marked same

/-- **Addresses are read from their texts and from nothing else.** The checksum text of an address
is a mark and forty hex digits, which in lower case make up its hex form. The address is read from
every text of these digits in any letter case, after either mark or none, and the checksum text is
no other address's. Whatever is read as the address is such a text, and a text of no address is
refused with an error that keeps it. -/
theorem parse_iff_spells (a : Address) :
    (a.checksum = String.ofList ('0' :: 'x' :: a.checksumDigits) ∧
      a.checksumDigits.length = 40 ∧ (∀ c ∈ a.checksumDigits, ∃ d, Hex.value? c = some d) ∧
      a.checksumDigits.map Char.toLower = Hex.encode a.toList ∧
      Text.lower a.checksum = a.hex) ∧
    (∀ b : Address, a.checksum = b.checksum ↔ a = b) ∧
    (∀ text, parse text = .ok a ↔ a.Spells text) ∧
    ∀ text e, parse text = .error e ↔ e = .invalidHex text ∧ ∀ b : Address, ¬ b.Spells text := by
  refine ⟨⟨rfl, a.length_checksumDigits, fun c => exists_value?_of_mem_checksumDigits,
    a.map_toLower_checksumDigits, a.lower_checksum⟩, fun b => checksum_injective.eq_iff,
    fun text => spells_iff.symm, fun text e => ?_⟩
  constructor
  · intro failed
    obtain ⟨b, hread⟩ | hrefused := parse_cases text
    · rw [hread] at failed
      cases failed
    · rw [hrefused] at failed
      cases failed
      refine ⟨rfl, fun b spells => ?_⟩
      rw [spells_iff, hrefused] at spells
      cases spells
  · rintro ⟨rfl, unspelled⟩
    obtain ⟨b, hread⟩ | hrefused := parse_cases text
    · exact absurd (spells_iff.mpr hread) (unspelled b)
    · exact hrefused

end Address

end IstanbulMonitor
