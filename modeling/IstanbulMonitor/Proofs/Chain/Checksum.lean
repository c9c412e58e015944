import IstanbulMonitor.Chain.Address
import Mathlib.Data.List.Lex
import Mathlib.Data.String.Basic

/-!
# Checksum texts

The rule of EIP-55 goes digit by digit: a letter is a capital if the nibble at its place of the
digest of the lower-case digits is at least eight. `Address.mixedCase` is the text that this rule
gives, read from two tables of digits, and `Address.checksum_eq_mixedCase` states that it is the
checksum text. So its capitals are known (`Address.isUpper_checksumDigits`).

The case of a hex digit does not change its value, so the bytes of an address are read back from
its checksum digits whatever the digest is (`Address.decode?_checksumDigits`). Two addresses
therefore never share a checksum text (`Address.checksum_injective`). All characters of it are
ASCII, and so the order of the texts is the order of their bytes (`Address.checksumBytes_lt_iff`).
-/

set_option autoImplicit false

namespace IstanbulMonitor

namespace Hex

/-- Digits of the right values are read as the bytes, whatever their case. -/
theorem decode?_of_values {bytes : Bytes} {digits : List Char}
    (values : digits.map value? = (Address.nibbles bytes).map some) :
    decode? digits = some bytes := by
  induction bytes generalizing digits with
  | nil =>
    rw [List.map_eq_nil_iff.mp values]
    rfl
  | cons b bytes ih =>
    have hsplit : Address.nibbles (b :: bytes) =
        b.toNat / 16 :: b.toNat % 16 :: Address.nibbles bytes := rfl
    rw [hsplit, List.map_cons, List.map_cons] at values
    obtain ⟨high, rest, rfl, hhigh, values⟩ := List.map_eq_cons_iff.mp values
    obtain ⟨low, rest, rfl, hlow, values⟩ := List.map_eq_cons_iff.mp values
    have hbyte : 16 * (b.toNat / 16) + b.toNat % 16 = b.toNat := by omega
    simp only [decode?, hhigh, hlow, ih values, hbyte, Option.bind_eq_bind, Option.bind_some,
      UInt8.ofNat_toNat]

/-- The digits of bytes are those of their nibbles. -/
theorem encode_eq_map_digit (bytes : Bytes) : encode bytes = (Address.nibbles bytes).map digit := by
  induction bytes with
  | nil => rfl
  | cons b bytes ih => rw [encode, ih]; rfl

end Hex

namespace Address

/-! ## ASCII texts -/

/-- Characters of ASCII only. -/
def IsAscii (cs : List Char) : Prop := ∀ c ∈ cs, c.toNat < 128

/-- The byte of an ASCII character is its code. -/
theorem utf8EncodeChar_of_lt {c : Char} (h : c.toNat < 128) :
    String.utf8EncodeChar c = [UInt8.ofNat c.toNat] := by
  have hsize : c.utf8Size = 1 := by
    rw [Char.utf8Size, if_pos]
    exact UInt32.le_iff_toNat_le.mpr (Nat.le_of_lt_succ h)
  rw [String.utf8EncodeChar_eq_singleton hsize]
  rfl

theorem utf8_of_isAscii {cs : List Char} (h : IsAscii cs) :
    (String.ofList cs).toUTF8.data.toList = ascii cs := by
  rw [String.toUTF8_eq_toByteArray, String.toByteArray_ofList, List.utf8Encode,
    List.data_toByteArray, List.toList_toArray]
  induction cs with
  | nil => rfl
  | cons c cs ih =>
    rw [List.flatMap_cons, utf8EncodeChar_of_lt (h c List.mem_cons_self)]
    exact congrArg _ (ih fun d hd => h d (List.mem_cons_of_mem _ hd))

theorem ascii_lt_iff {cs ds : List Char} (hcs : IsAscii cs) (hds : IsAscii ds) :
    ascii cs < ascii ds ↔ cs < ds := by
  induction cs generalizing ds with
  | nil => cases ds <;> simp [ascii]
  | cons c cs ih =>
    cases ds with
    | nil => simp [ascii]
    | cons d ds =>
      have hc := hcs c List.mem_cons_self
      have hd := hds d List.mem_cons_self
      have rest := ih (fun e he => hcs e (List.mem_cons_of_mem _ he))
        fun e he => hds e (List.mem_cons_of_mem _ he)
      have hlt : UInt8.ofNat c.toNat < UInt8.ofNat d.toNat ↔ c < d := by
        rw [UInt8.lt_iff_toNat_lt, UInt8.toNat_ofNat', UInt8.toNat_ofNat', Char.lt_def,
          UInt32.lt_iff_toNat_lt]
        show c.toNat % 256 < d.toNat % 256 ↔ c.toNat < d.toNat
        omega
      have heq : UInt8.ofNat c.toNat = UInt8.ofNat d.toNat ↔ c = d := by
        rw [← UInt8.toNat_inj, UInt8.toNat_ofNat', UInt8.toNat_ofNat', ← Char.toNat_inj]
        omega
      show UInt8.ofNat c.toNat :: ascii cs < UInt8.ofNat d.toNat :: ascii ds ↔ _
      rw [List.cons_lt_cons_iff, List.cons_lt_cons_iff, hlt, heq, rest]

/-! ## The rule of the capitals -/

/-- The nibble at a place of a byte string, the upper half of each byte first. -/
def nibbleAt (bytes : Bytes) (i : Nat) : Nat :=
  if i % 2 = 0 then (bytes.getD (i / 2) 0).toNat / 16 else (bytes.getD (i / 2) 0).toNat % 16

/-- The digit of a value, which is a capital if it is a letter and its mark at least eight. -/
def mixedDigit (n mark : Nat) : Char :=
  (if 8 ≤ mark then "0123456789ABCDEF" else "0123456789abcdef").toList.getD n '0'

/-- The digits of an address in lower case. -/
def plainDigits (a : Address) : List Char :=
  (List.range 40).map fun i => mixedDigit (nibbleAt a.toList i) 0

/-- The digest of the text of these digits, whose nibbles mark the capitals. -/
def marking (a : Address) : Hash :=
  Keccak.keccak256 (String.ofList a.plainDigits).toUTF8.data.toList

/-- The digits of an address in mixed case: a letter is a capital exactly if the nibble of the
digest at its place is at least eight. -/
def mixedDigits (a : Address) : List Char :=
  (List.range 40).map fun i => mixedDigit (nibbleAt a.toList i) (nibbleAt a.marking.toList i)

/-- The text of an address by the rule of EIP-55. -/
def mixedCase (a : Address) : String := String.ofList ('0' :: 'x' :: a.mixedDigits)

theorem nibbles_eq_map (bytes : Bytes) :
    nibbles bytes = (List.range (2 * bytes.length)).map (nibbleAt bytes) := by
  induction bytes with
  | nil => rfl
  | cons b bytes ih =>
    -- the nibbles after the first two are those of the other bytes
    have later : (nibbleAt (b :: bytes) ∘ Nat.succ) ∘ Nat.succ = nibbleAt bytes := by
      funext i
      have hmod : (i + 2) % 2 = i % 2 := Nat.add_mod_right i 2
      have hdiv : (i + 2) / 2 = i / 2 + 1 := Nat.add_div_right i Nat.two_pos
      simp only [Function.comp_apply, nibbleAt, Nat.succ_eq_add_one, Nat.add_assoc,
        Nat.reduceAdd, hmod, hdiv, List.getD_cons_succ]
    rw [List.length_cons, Nat.mul_succ, List.range_succ_eq_map, List.range_succ_eq_map,
      List.map_cons, List.map_cons, List.map_cons, List.map_map, List.map_map, later, ← ih]
    rfl

theorem nibbleAt_lt (bytes : Bytes) (i : Nat) : nibbleAt bytes i < 16 := by
  have hb := (bytes.getD (i / 2) 0).toNat_lt
  unfold nibbleAt
  split <;> omega

theorem capitalise_digit {n : Nat} (h : n < 16) (mark : Nat) :
    capitalise (Hex.digit n) mark = mixedDigit n mark := by
  unfold capitalise mixedDigit
  by_cases hmark : 8 ≤ mark <;> simp only [hmark, and_true, and_false, if_true, if_false] <;>
    revert n <;> decide

/-- Capitals do not change the value of a digit. -/
theorem value?_mixedDigit {n : Nat} (h : n < 16) (mark : Nat) :
    Hex.value? (mixedDigit n mark) = some n := by
  unfold mixedDigit
  split <;> revert n <;> decide

theorem toNat_mixedDigit_lt {n : Nat} (h : n < 16) (mark : Nat) :
    (mixedDigit n mark).toNat < 128 := by
  unfold mixedDigit
  split <;> revert n <;> decide

/-- A numeral has no case. -/
theorem mixedDigit_of_lt_ten {n : Nat} (h : n < 10) (mark other : Nat) :
    mixedDigit n mark = mixedDigit n other := by
  unfold mixedDigit
  split <;> split <;> revert n <;> decide

theorem isUpper_mixedDigit {n : Nat} (h : n < 16) (mark : Nat) :
    (mixedDigit n mark).isUpper = true ↔ 10 ≤ n ∧ 8 ≤ mark := by
  unfold mixedDigit
  by_cases hmark : 8 ≤ mark <;> simp only [hmark, and_true, and_false, if_true, if_false] <;>
    revert n <;> decide

theorem marking_eq (a : Address) : a.marking = Keccak.keccak256 (ascii a.plainDigits) := by
  rw [marking, utf8_of_isAscii]
  intro c hc
  obtain ⟨i, -, rfl⟩ := List.mem_map.mp hc
  exact toNat_mixedDigit_lt (nibbleAt_lt a.toList i) 0

theorem encode_eq_plainDigits (a : Address) : Hex.encode a.toList = a.plainDigits := by
  rw [Hex.encode_eq_map_digit, nibbles_eq_map, a.length_toList, List.map_map, plainDigits]
  refine List.map_congr_left fun i _ => ?_
  rw [← capitalise_digit (nibbleAt_lt a.toList i)]
  exact (if_neg fun letter => absurd letter.2.2 (by decide)).symm

/-- The checksum digits are those of the rule. -/
theorem checksumDigits_eq_mixedDigits (a : Address) : a.checksumDigits = a.mixedDigits := by
  -- the digest has more nibbles than the address, so that every digit has its mark
  have marks : nibbles a.marking.toList =
      (List.range 40 ++ List.range' 40 24).map (nibbleAt a.marking.toList) := by
    rw [nibbles_eq_map, a.marking.length_toList]
    rfl
  have digits : a.plainDigits = (List.range 40).map fun i => Hex.digit (nibbleAt a.toList i) := by
    rw [← encode_eq_plainDigits, Hex.encode_eq_map_digit, nibbles_eq_map, a.length_toList,
      List.map_map]
    rfl
  show List.zipWith capitalise (Hex.encode a.toList)
    (nibbles (Keccak.keccak256 (ascii (Hex.encode a.toList))).toList) = a.mixedDigits
  rw [encode_eq_plainDigits, ← marking_eq, marks, digits, mixedDigits]
  apply List.ext_getElem
  · simp
  · intro i hi hj
    have hlt : i < 40 := by simpa using hj
    rw [List.getElem_zipWith, List.getElem_map, List.getElem_map, List.getElem_map,
      List.getElem_append_left (by simpa using hlt), List.getElem_range]
    exact capitalise_digit (nibbleAt_lt a.toList i) _

/-- **The checksum text.** It is the text that the rule of EIP-55 gives. -/
theorem checksum_eq_mixedCase (a : Address) : a.checksum = a.mixedCase := by
  rw [checksum, checksumDigits_eq_mixedDigits, mixedCase]

/-- A digit of the checksum text is a capital exactly if it is a letter and the nibble of the digest
at its place is at least eight. -/
theorem isUpper_checksumDigits (a : Address) {i : Nat} (hi : i < a.checksumDigits.length) :
    a.checksumDigits[i].isUpper = true ↔
      10 ≤ nibbleAt a.toList i ∧ 8 ≤ nibbleAt a.marking.toList i := by
  simp only [checksumDigits_eq_mixedDigits, mixedDigits, List.getElem_map, List.getElem_range]
  exact isUpper_mixedDigit (nibbleAt_lt a.toList i) _

-- a published text, with letters of both cases
example : checksum (FixedBytes.ofNat 20 0x5aaeb6053f3e94c9b9a09f33669435e7ef1beaed) =
    "0x5aAeb6053F3E94C9b9A09f33669435E7Ef1BeAed" := by
  decide +kernel

/-- Without letters there is nothing to capitalise. -/
theorem mixedCase_of_numerals {a : Address} (h : ∀ i < 40, nibbleAt a.toList i < 10) :
    a.mixedCase = a.hex := by
  have hdigits : a.mixedDigits = a.plainDigits := by
    refine List.map_congr_left fun i hi => ?_
    exact mixedDigit_of_lt_ten (h i (List.mem_range.mp hi)) _ 0
  rw [mixedCase, hdigits, ← encode_eq_plainDigits]
  rfl

/-! ## Reading the digits back -/

/-- The checksum digits of an address denote its bytes. -/
theorem decode?_checksumDigits (a : Address) :
    Hex.decode? a.checksumDigits = some a.toList := by
  apply Hex.decode?_of_values
  rw [checksumDigits_eq_mixedDigits, mixedDigits, nibbles_eq_map, a.length_toList, List.map_map,
    List.map_map]
  exact List.map_congr_left fun i _ => value?_mixedDigit (nibbleAt_lt a.toList i) _

/-- Addresses with one checksum text are one address. -/
theorem checksum_injective : Function.Injective checksum := by
  intro a b h
  have hdigits : a.checksumDigits = b.checksumDigits := by
    simpa only [checksum, String.ofList_inj, List.cons.injEq, true_and] using h
  have hbytes : a.toList = b.toList := by
    have := a.decode?_checksumDigits
    rwa [hdigits, b.decode?_checksumDigits, Option.some.injEq, eq_comm] at this
  have hread := a.ofBytes?_toList
  rw [hbytes, b.ofBytes?_toList, Option.some.injEq] at hread
  exact hread.symm

/-! ## The order of the texts -/

/-- The bytes of the checksum text, as the rule gives it. -/
def checksumBytes (a : Address) : Bytes := a.mixedCase.toUTF8.data.toList

theorem isAscii_checksumDigits (a : Address) : IsAscii a.checksumDigits := by
  intro c hc
  rw [checksumDigits_eq_mixedDigits, mixedDigits] at hc
  obtain ⟨i, -, rfl⟩ := List.mem_map.mp hc
  exact toNat_mixedDigit_lt (nibbleAt_lt a.toList i) _

theorem isAscii_checksum (a : Address) : IsAscii ('0' :: 'x' :: a.checksumDigits) := by
  intro c hc
  rcases List.mem_cons.mp hc with rfl | hc
  · decide
  rcases List.mem_cons.mp hc with rfl | hc
  · decide
  · exact a.isAscii_checksumDigits c hc

/-- Texts and their bytes have one order. -/
theorem checksumBytes_lt_iff {a b : Address} :
    a.checksumBytes < b.checksumBytes ↔ a.checksum < b.checksum := by
  rw [checksumBytes, checksumBytes, ← checksum_eq_mixedCase, ← checksum_eq_mixedCase, checksum,
    checksum, utf8_of_isAscii a.isAscii_checksum, utf8_of_isAscii b.isAscii_checksum,
    ascii_lt_iff a.isAscii_checksum b.isAscii_checksum,
    String.lt_iff_toList_lt, String.toList_ofList, String.toList_ofList]

end Address

end IstanbulMonitor
