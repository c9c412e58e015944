import IstanbulMonitor.Chain.Json
import IstanbulMonitor.Proofs.Bytes.Numerals
import Mathlib.Data.Nat.Digits.Defs

/-!
# Chain values in other spellings

`Radix.value?` is the number that digits denote, whatever their case (`Radix.value?_map_toLower`)
and whatever zeros stand before them (`Radix.value?_zeros`). The readers of quantities, of byte
strings and of words are brought to it, so that each of them reads back what is written for a
value. A quantity and a byte string may be spelled in further ways (`Quantity.Spells`,
`Bytes.Spells`), and all of these are read alike (`Quantity.Spells.ofJson_eq`,
`Bytes.Spells.ofJson_eq`).
-/

set_option autoImplicit false

namespace IstanbulMonitor

namespace Hex

variable {c : Char} {d : Nat}

/-- The case of a digit does not matter. -/
theorem value?_toLower (c : Char) : value? c.toLower = value? c := by
  by_cases hletter : c.val ≥ 65 ∧ c.val ≤ 90
  · have hletters : ∀ n < 91, 65 ≤ n →
        value? (Char.ofNat n).toLower = value? (Char.ofNat n) := by decide
    have hc := hletters c.toNat (Nat.lt_succ_of_le hletter.2) hletter.1
    rwa [Char.ofNat_toNat] at hc
  · have hsame : c.toLower = c := dif_neg hletter
    rw [hsame]

theorem value?_digitChar (h : d < 16) : value? d.digitChar = some d := by
  have hall : ∀ d < 16, value? (Nat.digitChar d) = some d := by decide
  exact hall d h

/-- No digit is a blank. -/
theorem isBlank_of_value? (h : value? c = some d) : Json.isBlank c = false := by
  rw [Bool.eq_false_iff]
  intro hblank
  simp only [Json.isBlank, Bool.or_eq_true, beq_iff_eq] at hblank
  rcases hblank with ((rfl | rfl) | rfl) | rfl <;> cases h

end Hex

/-! ## The number that digits denote -/

namespace Radix

variable {radix limit acc n d : Nat} {c : Char} {cs : List Char}

/-- The number that `acc` followed by digits denotes. -/
def value? (radix : Nat) : Nat → List Char → Option Nat
  | acc, [] => some acc
  | acc, c :: cs => (digit? radix c).bind fun d => value? radix (acc * radix + d) cs

theorem value?_cons_eq_some :
    value? radix acc (c :: cs) = some n ↔
      ∃ d, digit? radix c = some d ∧ value? radix (acc * radix + d) cs = some n :=
  Option.bind_eq_some_iff

theorem value?_concat (h : value? radix acc cs = some n) (hd : digit? radix c = some d) :
    value? radix acc (cs ++ [c]) = some (n * radix + d) := by
  induction cs generalizing acc with
  | nil =>
    cases h
    simp [value?, hd]
  | cons e cs ih =>
    obtain ⟨e', he, hrest⟩ := value?_cons_eq_some.mp h
    exact value?_cons_eq_some.mpr ⟨e', he, ih hrest⟩

/-- Digits in lower case denote the same. -/
theorem value?_map_toLower (cs : List Char) :
    value? radix acc (cs.map Char.toLower) = value? radix acc cs := by
  induction cs generalizing acc with
  | nil => rfl
  | cons c cs ih =>
    simp only [List.map_cons, value?, digit?, Hex.value?_toLower, ih]

/-- Zeros before digits add nothing. -/
theorem value?_zeros (pos : 0 < radix) (zeros : Nat) (cs : List Char) :
    value? radix 0 (List.replicate zeros '0' ++ cs) = value? radix 0 cs := by
  have hzero : digit? radix '0' = some 0 := by
    have hvalue : Hex.value? '0' = some 0 := rfl
    simp [digit?, hvalue, pos]
  induction zeros with
  | zero => rfl
  | succ zeros ih =>
    rw [List.replicate_succ, List.cons_append, value?, hzero, Option.bind_some, Nat.zero_mul,
      Nat.add_zero, ih]

/-- The digits of a number denote it. -/
theorem value?_toDigits (low : 1 < radix) (high : radix ≤ 16) (n : Nat) :
    value? radix 0 (Nat.toDigits radix n) = some n := by
  have hdigit : ∀ d < radix, digit? radix d.digitChar = some d := by
    intro d hd
    simp [digit?, Hex.value?_digitChar (Nat.lt_of_lt_of_le hd high), hd]
  induction n using Nat.strongRecOn with
  | ind n ih =>
    by_cases hlt : n < radix
    · rw [Nat.toDigits_of_lt_base hlt]
      simp [value?, hdigit n hlt]
    · -- the last digit is the remainder, and the digits before it are those of the quotient
      have hle : radix ≤ n := Nat.not_lt.mp hlt
      have hquotient := ih (n / radix) (Nat.div_lt_self (by omega) low)
      have hremainder := hdigit (n % radix) (Nat.mod_lt n (by omega))
      rw [Nat.toDigits_of_base_le low hle, value?_concat hquotient hremainder,
        Nat.div_add_mod' n radix]

/-- More digits never make a number less. -/
theorem le_of_value? (pos : 0 < radix) (h : value? radix acc cs = some n) : acc ≤ n := by
  induction cs generalizing acc with
  | nil => exact (Option.some.inj h).le
  | cons c cs ih =>
    obtain ⟨d, -, hrest⟩ := value?_cons_eq_some.mp h
    have hacc : acc ≤ acc * radix := Nat.le_mul_of_pos_right acc pos
    exact (hacc.trans (Nat.le_add_right _ d)).trans (ih hrest)

/-- Digits of a number below the limit never reach the limit. -/
theorem accumulate_eq_ok (pos : 0 < radix) (h : value? radix acc cs = some n) (hlt : n < limit) :
    accumulate radix limit acc cs = .ok n := by
  induction cs generalizing acc with
  | nil =>
    cases h
    rfl
  | cons c cs ih =>
    obtain ⟨d, hd, hrest⟩ := value?_cons_eq_some.mp h
    have hbelow : acc * radix + d < limit := Nat.lt_of_le_of_lt (le_of_value? pos hrest) hlt
    simp only [accumulate, hd, if_pos hbelow]
    exact ih hrest

theorem exists_digit?_of_mem (h : value? radix acc cs = some n) (mem : c ∈ cs) :
    ∃ d, digit? radix c = some d := by
  induction cs generalizing acc with
  | nil => cases mem
  | cons e cs ih =>
    obtain ⟨d, hd, hrest⟩ := value?_cons_eq_some.mp h
    rcases List.mem_cons.mp mem with rfl | mem
    · exact ⟨d, hd⟩
    · exact ih hrest mem

theorem not_mem_of_value? (h : value? radix acc cs = some n) (hc : Hex.value? c = none) :
    c ∉ cs := by
  intro mem
  obtain ⟨d, hd⟩ := exists_digit?_of_mem h mem
  simp [digit?, hc] at hd

/-- A number is read from digits that denote it. -/
theorem read_eq_ok (pos : 0 < radix) (some_digit : cs ≠ []) (h : value? radix 0 cs = some n)
    (hlt : n < limit) : read radix limit cs = .ok n := by
  have hplus : '+' ∉ cs := not_mem_of_value? h rfl
  unfold read
  split
  · contradiction
  · exact absurd List.mem_cons_self hplus
  · exact accumulate_eq_ok pos h hlt

end Radix

/-! ## Bytes that digits fill -/

namespace Hex

open Radix (value?_cons_eq_some)

variable {acc n : Nat} {cs : List Char}

theorem digit?_sixteen (c : Char) {d : Nat} (h : Radix.digit? 16 c = some d) :
    value? c = some d ∧ d < 16 := by
  simpa [Radix.digit?, Option.filter_eq_some_iff] using h

/-- Digits fill bytes two by two, and the bytes denote what the digits do. -/
theorem exists_pack?_even : ∀ {cs : List Char} {acc : Nat},
    Radix.value? 16 acc cs = some n → cs.length % 2 = 0 →
      ∃ bytes, pack? none cs = some bytes ∧ acc * 256 ^ bytes.length + Bytes.toNat bytes = n
  | [], acc, h, _ => ⟨[], rfl, by simpa [Radix.value?, Bytes.toNat] using h⟩
  | [_], _, _, even => by simp at even
  | a :: b :: cs, acc, h, even => by
    obtain ⟨x, ha, h⟩ := value?_cons_eq_some.mp h
    obtain ⟨y, hb, h⟩ := value?_cons_eq_some.mp h
    obtain ⟨ha, hx⟩ := digit?_sixteen a ha
    obtain ⟨hb, hy⟩ := digit?_sixteen b hb
    have hlength : cs.length % 2 = 0 := by
      simp only [List.length_cons] at even
      omega
    obtain ⟨bytes, hbytes, hn⟩ := exists_pack?_even h hlength
    have hbyte : (UInt8.ofNat (16 * x + y)).toNat = 16 * x + y := by
      rw [UInt8.toNat_ofNat']
      omega
    refine ⟨UInt8.ofNat (16 * x + y) :: bytes, ?_, ?_⟩
    · simp [pack?, isBlank_of_value? ha, isBlank_of_value? hb, ha, hb, hbytes]
    · rw [Bytes.toNat_cons, hbyte, List.length_cons, ← hn]
      ring

/-- A digit without a partner fills the first byte with a zero before it. -/
theorem exists_pack?_odd (h : Radix.value? 16 0 cs = some n) (odd : cs.length % 2 = 1) :
    ∃ bytes, pack? (some 0) cs = some bytes ∧ Bytes.toNat bytes = n := by
  cases cs with
  | nil => simp at odd
  | cons c cs =>
    obtain ⟨d, hc, h⟩ := value?_cons_eq_some.mp h
    obtain ⟨hc, hd⟩ := digit?_sixteen c hc
    have hlength : cs.length % 2 = 0 := by
      simp only [List.length_cons] at odd
      omega
    obtain ⟨bytes, hbytes, hn⟩ := exists_pack?_even h hlength
    have hbyte : (UInt8.ofNat (16 * 0 + d)).toNat = d := by
      rw [UInt8.toNat_ofNat']
      omega
    refine ⟨UInt8.ofNat (16 * 0 + d) :: bytes, ?_, ?_⟩
    · simp [pack?, isBlank_of_value? hc, hc, hbytes]
    · rw [Bytes.toNat_cons, hbyte, ← hn]
      ring

theorem length_encode (bytes : Bytes) : (encode bytes).length = 2 * bytes.length := by
  induction bytes with
  | nil => rfl
  | cons b bytes ih =>
    simp only [encode, List.length_cons, ih]
    omega

theorem pack?_encode (bytes : Bytes) : pack? none (encode bytes) = some bytes := by
  induction bytes with
  | nil => rfl
  | cons b bytes ih =>
    have hb := b.toNat_lt
    have hhigh := value?_digit (b.toNat / 16) (by omega)
    have hlow := value?_digit (b.toNat % 16) (by omega)
    have hsum : 16 * (b.toNat / 16) + b.toNat % 16 = b.toNat := by omega
    have hbyte : UInt8.ofNat (16 * (b.toNat / 16) + b.toNat % 16) = b := by
      rw [hsum, UInt8.ofNat_toNat]
    simp only [encode, pack?, isBlank_of_value? hhigh, isBlank_of_value? hlow, hhigh, hlow, ih,
      hbyte, Bool.false_eq_true, if_false, Option.bind_eq_bind, Option.bind_some, pure]

/-- Bytes are read from digits of either case. -/
theorem decode?_map_toLower : ∀ cs : List Char, decode? (cs.map Char.toLower) = decode? cs
  | [] => rfl
  | [_] => rfl
  | a :: b :: cs => by
    simp only [List.map_cons, decode?, value?_toLower, decode?_map_toLower cs]

theorem exists_digit_of_mem_encode {bytes : Bytes} {c : Char} (mem : c ∈ encode bytes) :
    ∃ d < 16, c = digit d := by
  induction bytes with
  | nil => cases mem
  | cons b bytes ih =>
    have hb := b.toNat_lt
    simp only [encode, List.mem_cons] at mem
    rcases mem with rfl | rfl | mem
    · exact ⟨b.toNat / 16, by omega, rfl⟩
    · exact ⟨b.toNat % 16, by omega, rfl⟩
    · exact ih mem

/-- Bytes are written in lower case. -/
theorem map_toLower_encode (bytes : Bytes) : (encode bytes).map Char.toLower = encode bytes := by
  have hlower : ∀ d < 16, (digit d).toLower = digit d := by decide
  have hsame : ∀ c ∈ encode bytes, c.toLower = id c := by
    intro c mem
    obtain ⟨d, hd, rfl⟩ := exists_digit_of_mem_encode mem
    exact hlower d hd
  rw [List.map_congr_left hsame, List.map_id]

/-- Numbers are written in lower case. -/
theorem map_toLower_digits (n : Nat) : (digits n).map Char.toLower = digits n := by
  have hlower : ∀ d < 16, (Nat.digitChar d).toLower = Nat.digitChar d := by decide
  unfold digits
  induction n using Nat.strongRecOn with
  | ind n ih =>
    by_cases hlt : n < 16
    · rw [Nat.toDigits_of_lt_base hlt, List.map_singleton, hlower n hlt]
    · have hquotient := ih (n / 16) (by omega)
      have hremainder := hlower (n % 16) (by omega)
      rw [Nat.toDigits_of_base_le (by decide) (by omega), List.map_append, hquotient,
        List.map_singleton, hremainder]

/-- A character whose lower case is no digit does not stand among the digits of bytes. -/
theorem not_mem_of_map_toLower {bytes : Bytes} (same : cs.map Char.toLower = encode bytes)
    {c : Char} (hc : value? c = none) : c ∉ cs := by
  intro mem
  have hmem : c.toLower ∈ encode bytes := same ▸ List.mem_map_of_mem mem
  obtain ⟨d, hd, heq⟩ := exists_digit_of_mem_encode hmem
  have hvalue := value?_digit d hd
  rw [← heq, value?_toLower, hc] at hvalue
  cases hvalue

/-- Digits of bytes do not start with a mark. -/
theorem unprefixed_of_map_toLower {bytes : Bytes} (same : cs.map Char.toLower = encode bytes) :
    unprefixed cs = cs := by
  have hlower : 'x' ∉ cs := not_mem_of_map_toLower same rfl
  have hupper : 'X' ∉ cs := not_mem_of_map_toLower same rfl
  unfold unprefixed
  split
  · simp at hlower
  · simp at hupper
  · rfl

end Hex

/-! ## Values as they are written -/

/-- A byte string of fixed length is read as it was written. -/
theorem FixedBytes.ofJson_toJson {n : Nat} (x : FixedBytes n) :
    FixedBytes.ofJson n x.toJson = .ok x := by
  obtain ⟨bytes, rfl⟩ := x
  have hmark : Hex.afterMark (Hex.marked bytes).toList = Hex.encode bytes := by
    rw [Hex.marked, String.toList_ofList]
    rfl
  have hstart : FixedBytes.ofStart bytes.length bytes = ⟨bytes, rfl⟩ := by
    simp [FixedBytes.ofStart]
  simp only [FixedBytes.toJson, FixedBytes.hex, FixedBytes.ofJson, hmark, Hex.length_encode,
    if_true, Hex.pack?_encode, hstart]

/-- A word is read as it was written. -/
theorem U256.ofJson_toJson (n : U256) : U256.ofJson (U256.toJson n) = .ok n := by
  have hmark : Hex.afterMark (Hex.quantity n.toNat).toList = Hex.digits n.toNat := by
    rw [Hex.quantity, String.toList_ofList]
    rfl
  have hvalue : Radix.value? 16 0 (Hex.digits n.toNat) = some n.toNat :=
    Radix.value?_toDigits (by decide) (by decide) n.toNat
  have hpos : 0 < (Hex.digits n.toNat).length :=
    List.length_pos_iff.mpr Nat.toDigits_ne_nil
  have hlength : (Hex.digits n.toNat).length ≤ 64 :=
    (Nat.length_toDigits_le_iff (by decide) (by decide)).mpr n.isLt
  obtain ⟨bytes, hbytes, hn⟩ : ∃ bytes, Hex.pack?
      (if (Hex.digits n.toNat).length % 2 = 1 then some 0 else none) (Hex.digits n.toNat) =
        some bytes ∧ Bytes.toNat bytes = n.toNat := by
    by_cases odd : (Hex.digits n.toNat).length % 2 = 1
    · rw [if_pos odd]
      exact Hex.exists_pack?_odd hvalue odd
    · rw [if_neg odd]
      obtain ⟨bytes, hbytes, hn⟩ := Hex.exists_pack?_even hvalue (by omega)
      exact ⟨bytes, hbytes, by omega⟩
  simp only [U256.toJson, U256.ofJson, hmark, hpos, hlength, and_self, if_true, hbytes, hn,
    BitVec.ofNat_toNat, BitVec.setWidth_eq]

/-! ## Other spellings -/

/-- What stands for a quantity: the plain integer, its hex digits in any letter case after a mark
and zeros, or its decimal digits after zeros. -/
inductive Quantity.Spells (n : UInt64) : Json → Prop where
  | plain : Spells n (.word n)
  | hex {mark : Char} {zeros : Nat} {digits : List Char} (marked : mark = 'x' ∨ mark = 'X')
      (same : digits.map Char.toLower = Hex.digits n.toNat) :
      Spells n (.string (String.ofList ('0' :: mark :: (List.replicate zeros '0' ++ digits))))
  | decimal {zeros : Nat} :
      Spells n (.string (String.ofList (List.replicate zeros '0' ++ Nat.toDigits 10 n.toNat)))

/-- What stands for a byte string: its hex digits in any letter case, after a mark or none. -/
inductive Bytes.Spells (bytes : Bytes) : Json → Prop where
  | digits {mark digits : List Char} (marked : mark ∈ [['0', 'x'], ['0', 'X'], []])
      (same : digits.map Char.toLower = Hex.encode bytes) :
      Spells bytes (.string (String.ofList (mark ++ digits)))

namespace Quantity

variable {n : UInt64} {digits : List Char}

theorem ofJson_string {text : String} (h : parse text = .ok n) :
    ofJson (.string text) = .ok n := by
  simp only [ofJson, h]

/-- Marked digits are read by their value. -/
theorem parse_marked {mark : Char} (marked : mark = 'x' ∨ mark = 'X') (some_digit : digits ≠ [])
    (h : Radix.value? 16 0 digits = some n.toNat) :
    parse (String.ofList ('0' :: mark :: digits)) = .ok n := by
  have hread : Radix.read 16 UInt64.size digits = .ok n.toNat :=
    Radix.read_eq_ok (by decide) some_digit h n.toNat_lt
  have hmarked : isMarked ('0' :: mark :: digits) = true := by
    rcases marked with rfl | rfl <;> rfl
  have hrest : Hex.unprefixed ('0' :: mark :: digits) = digits := by
    rcases marked with rfl | rfl <;> rfl
  unfold parse
  rw [String.toList_ofList, if_pos hmarked, hrest, hread]
  exact congrArg Except.ok UInt64.ofNat_toNat

/-- Digits without a mark are read as decimal ones. -/
theorem parse_unmarked (some_digit : digits ≠ [])
    (h : Radix.value? 10 0 digits = some n.toNat) :
    parse (String.ofList digits) = .ok n := by
  have hread : Radix.read 10 UInt64.size digits = .ok n.toNat :=
    Radix.read_eq_ok (by decide) some_digit h n.toNat_lt
  have hlower : 'x' ∉ digits := Radix.not_mem_of_value? h rfl
  have hupper : 'X' ∉ digits := Radix.not_mem_of_value? h rfl
  have hmarked : ¬ isMarked digits = true := by
    unfold isMarked
    split
    · simp at hlower
    · simp at hupper
    · exact Bool.false_ne_true
  have hdecimal : Radix.decimal64? (String.ofList digits) = some n := by
    unfold Radix.decimal64?
    rw [String.toList_ofList, hread]
    exact congrArg some UInt64.ofNat_toNat
  unfold parse
  rw [String.toList_ofList, if_neg hmarked, hdecimal]

/-- A quantity is read in any of its spellings. -/
theorem Spells.ofJson_eq {value : Json} (h : Spells n value) : ofJson value = .ok n := by
  cases h with
  | plain => exact ofJson_word n
  | @hex mark zeros digits marked same =>
    have hdigits : digits ≠ [] := by
      rintro rfl
      exact Nat.toDigits_ne_nil same.symm
    have hvalue : Radix.value? 16 0 (List.replicate zeros '0' ++ digits) = some n.toNat := by
      rw [Radix.value?_zeros (by decide), ← Radix.value?_map_toLower, same]
      exact Radix.value?_toDigits (by decide) (by decide) n.toNat
    apply ofJson_string
    exact parse_marked marked (List.append_ne_nil_of_right_ne_nil _ hdigits) hvalue
  | @decimal zeros =>
    have hvalue : Radix.value? 10 0 (List.replicate zeros '0' ++ Nat.toDigits 10 n.toNat) =
        some n.toNat := by
      rw [Radix.value?_zeros (by decide)]
      exact Radix.value?_toDigits (by decide) (by decide) n.toNat
    apply ofJson_string
    exact parse_unmarked (List.append_ne_nil_of_right_ne_nil _ Nat.toDigits_ne_nil) hvalue

/-- The written form is one of the spellings. -/
theorem spells_toJson (n : UInt64) : Spells n (toJson n) := by
  -- the lower mark, no zeros and lower case
  have h := @Spells.hex n 'x' 0 _ (.inl rfl) (Hex.map_toLower_digits n.toNat)
  exact h

end Quantity

namespace Bytes

variable {bytes : Bytes}

/-- A byte string is read in any of its spellings. -/
theorem Spells.ofJson_eq {value : Json} (h : Spells bytes value) : ofJson value = .ok bytes := by
  obtain @⟨mark, digits, marked, same⟩ := h
  have hdecode : Hex.decode? digits = some bytes := by
    rw [← Hex.decode?_map_toLower, same, Hex.decode?_encode]
  have hrest : Hex.unprefixed (mark ++ digits) = digits := by
    simp only [List.mem_cons, List.not_mem_nil, or_false] at marked
    rcases marked with rfl | rfl | rfl
    · rfl
    · rfl
    · exact Hex.unprefixed_of_map_toLower same
  simp only [ofJson, Hex.parse, String.toList_ofList, hrest, hdecode]

/-- The written form is one of the spellings. -/
theorem spells_toJson (bytes : Bytes) : Spells bytes (toJson bytes) := by
  have h : Spells bytes _ := .digits List.mem_cons_self (Hex.map_toLower_encode bytes)
  exact h

end Bytes

end IstanbulMonitor
