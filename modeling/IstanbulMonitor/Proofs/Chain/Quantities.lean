import IstanbulMonitor.Proofs.Text.Numerals

/-!
# Which texts are quantities

A quantity is an optional mark, an optional plus sign and a numeral, which is hexadecimal after a
mark and decimal otherwise (`Quantity.Denotes`). The texts that are read are the quantities below
the limit, and each is read as the number that it denotes (`Quantity.parse_iff_denotes`). Digits are
read from left to right, so a marked text is out of range as soon as its first digits are, whatever
comes after them; everything else that is not read is called malformed, and so is a decimal
quantity that is out of range (`Quantity.parse_fails_iff`).
-/

set_option autoImplicit false

namespace IstanbulMonitor

namespace Quantity

open Radix (Numeral signs)

variable {text : String} {mark : List Char} {n : Nat} {w : UInt64}

/-! ## The grammar -/

/-- The marks of a hexadecimal quantity. -/
def marks : List (List Char) := [['0', 'x'], ['0', 'X']]

/-- A text that denotes a number, whether it is below the limit or not. -/
inductive Denotes (n : Nat) : String → Prop where
  /-- Hex digits after a mark. -/
  | marked {mark sign digits : List Char} (marked : mark ∈ marks) (signed : sign ∈ signs)
      (numeral : Numeral 16 n digits) : Denotes n (String.ofList (mark ++ (sign ++ digits)))
  /-- Decimal digits without a mark. -/
  | unmarked {sign digits : List Char} (signed : sign ∈ signs) (numeral : Numeral 10 n digits) :
      Denotes n (String.ofList (sign ++ digits))

/-- A marked text whose first digits alone denote a number that no word holds, whatever comes after
them. -/
inductive Exceeds : String → Prop where
  | digits {mark sign digits rest : List Char} {n : Nat} (marked : mark ∈ marks)
      (signed : sign ∈ signs) (numeral : Numeral 16 n digits) (large : UInt64.size ≤ n) :
      Exceeds (String.ofList (mark ++ (sign ++ (digits ++ rest))))

/-- A text starts with a mark, or it is not marked. -/
theorem marked_cases (text : String) :
    (∃ mark ∈ marks, ∃ rest, text = String.ofList (mark ++ rest)) ∨
      ¬ isMarked text.toList = true := by
  have key : ∀ cs : List Char, (∃ mark ∈ marks, ∃ rest, cs = mark ++ rest) ∨
      ¬ isMarked cs = true := by
    intro cs
    unfold isMarked
    split
    · next rest => exact .inl ⟨['0', 'x'], by decide, rest, rfl⟩
    · next rest => exact .inl ⟨['0', 'X'], by decide, rest, rfl⟩
    · exact .inr Bool.false_ne_true
  obtain ⟨mark, marked, rest, hsplit⟩ | unmarked := key text.toList
  · exact .inl ⟨mark, marked, rest, by rw [← hsplit, String.ofList_toList]⟩
  · exact .inr unmarked

/-- A decimal numeral is not taken for a marked one: its second character is a digit. -/
theorem not_isMarked_of_numeral {sign digits : List Char} (signed : sign ∈ signs)
    (numeral : Numeral 10 n digits) : ¬ isMarked (sign ++ digits) = true := by
  have hlower : 'x' ∉ sign ++ digits := numeral.not_mem_signed signed rfl (by decide)
  have hupper : 'X' ∉ sign ++ digits := numeral.not_mem_signed signed rfl (by decide)
  unfold isMarked
  split
  · next heq => simp [heq] at hlower
  · next heq => simp [heq] at hupper
  · exact Bool.false_ne_true

theorem mem_of_mem_mark : ∀ mark ∈ marks, ∀ c ∈ mark, c ∈ ['0', 'x', 'X'] := by
  simp [marks]

/-- A quantity is made of digits, the letter of a mark and a plus sign. -/
theorem Denotes.not_mem (h : Denotes n text) {c : Char} (hc : Hex.value? c = none)
    (hmark : c ∉ ['0', 'x', 'X']) (hplus : c ≠ '+') : c ∉ text.toList := by
  cases h with
  | @marked mark sign digits marked signed numeral =>
    rw [String.toList_ofList, List.mem_append, not_or]
    exact ⟨fun mem => hmark (mem_of_mem_mark mark marked c mem),
      numeral.not_mem_signed signed hc hplus⟩
  | @unmarked sign digits signed numeral =>
    rw [String.toList_ofList]
    exact numeral.not_mem_signed signed hc hplus

/-! ## What is read -/

/-- What comes after a mark is read as hex digits. -/
theorem parse_marked_append (marked : mark ∈ marks) (rest : List Char) :
    parse (String.ofList (mark ++ rest)) =
      match Radix.read 16 UInt64.size rest with
      | .ok n => .ok (UInt64.ofNat n)
      | .error .overflow => .error (.quantityOverflow (String.ofList (mark ++ rest)))
      | .error .invalid => .error (.invalidHex (String.ofList (mark ++ rest))) := by
  simp only [marks, List.mem_cons, List.not_mem_nil, or_false] at marked
  unfold parse
  rw [String.toList_ofList]
  rcases marked with rfl | rfl <;> rfl

/-- A text without a mark is read as decimal digits, and one way to fail is like another. -/
theorem parse_of_not_isMarked (unmarked : ¬ isMarked text.toList = true) :
    parse text =
      match Radix.decimal64? text with
      | some n => .ok n
      | none => .error (.invalidHex text) :=
  if_neg unmarked

/-- A quantity is read as the number that it denotes. -/
theorem parse_eq_ok_of_denotes (denotes : Denotes w.toNat text) : parse text = .ok w := by
  cases denotes with
  | @marked mark sign digits marked signed numeral =>
    have hread : Radix.read 16 UInt64.size (sign ++ digits) = .ok w.toNat :=
      (Radix.read_eq_ok_iff (by decide) (by decide)).mpr
        ⟨sign, signed, digits, rfl, numeral, w.toNat_lt⟩
    rw [parse_marked_append marked, hread]
    exact congrArg Except.ok UInt64.ofNat_toNat
  | @unmarked sign digits signed numeral =>
    have hunmarked : ¬ isMarked (String.ofList (sign ++ digits)).toList = true := by
      rw [String.toList_ofList]
      exact not_isMarked_of_numeral signed numeral
    have hdecimal : Radix.decimal64? (String.ofList (sign ++ digits)) = some w :=
      Radix.decimal64?_eq_some_iff.mpr ⟨sign, signed, digits, String.toList_ofList, numeral⟩
    rw [parse_of_not_isMarked hunmarked, hdecimal]

/-- What is read as a number is a quantity that denotes it. -/
theorem denotes_of_parse_eq_ok (hparse : parse text = .ok w) : Denotes w.toNat text := by
  obtain ⟨mark, marked, rest, rfl⟩ | unmarked := marked_cases text
  · rw [parse_marked_append marked] at hparse
    split at hparse
    · next n hread =>
      cases hparse
      obtain ⟨sign, signed, digits, rfl, numeral, hlt⟩ :=
        (Radix.read_eq_ok_iff (by decide) (by decide)).mp hread
      rw [UInt64.toNat_ofNat_of_lt' hlt]
      exact .marked marked signed numeral
    · cases hparse
    · cases hparse
  · rw [parse_of_not_isMarked unmarked] at hparse
    split at hparse
    · next w' hdecimal =>
      cases hparse
      obtain ⟨sign, signed, digits, hsplit, numeral⟩ := Radix.decimal64?_eq_some_iff.mp hdecimal
      rw [← text.ofList_toList, hsplit]
      exact .unmarked signed numeral
    · cases hparse

theorem parse_eq_ok_iff : parse text = .ok w ↔ Denotes w.toNat text :=
  ⟨denotes_of_parse_eq_ok, parse_eq_ok_of_denotes⟩

/-- A text is out of range as soon as its first digits are. -/
theorem parse_eq_overflow_iff : parse text = .error (.quantityOverflow text) ↔ Exceeds text := by
  constructor
  · intro hparse
    obtain ⟨mark, marked, rest, rfl⟩ | unmarked := marked_cases text
    · rw [parse_marked_append marked] at hparse
      split at hparse
      · cases hparse
      · next hread =>
        obtain ⟨sign, signed, digits, more, n, rfl, numeral, hle⟩ :=
          (Radix.read_eq_overflow_iff (by decide)).mp hread
        exact .digits marked signed numeral hle
      · cases hparse
    · rw [parse_of_not_isMarked unmarked] at hparse
      split at hparse <;> cases hparse
  · rintro @⟨mark, sign, digits, rest, n, marked, signed, numeral, large⟩
    have hread : Radix.read 16 UInt64.size (sign ++ (digits ++ rest)) = .error .overflow :=
      (Radix.read_eq_overflow_iff (by decide)).mpr
        ⟨sign, signed, digits, rest, n, rfl, numeral, large⟩
    rw [parse_marked_append marked, hread]

/-- There are two ways to fail, and both keep the text. -/
theorem parse_cases (text : String) :
    (∃ w, parse text = .ok w) ∨ parse text = .error (.quantityOverflow text) ∨
      parse text = .error (.invalidHex text) := by
  obtain ⟨mark, marked, rest, rfl⟩ | unmarked := marked_cases text
  · rw [parse_marked_append marked]
    split
    · next n _ => exact .inl ⟨_, rfl⟩
    · exact .inr (.inl rfl)
    · exact .inr (.inr rfl)
  · rw [parse_of_not_isMarked unmarked]
    split
    · next w _ => exact .inl ⟨w, rfl⟩
    · exact .inr (.inr rfl)

/-! ## Written forms -/

theorem denotes_format (w : UInt64) : Denotes w.toNat (format w) :=
  @Denotes.marked _ ['0', 'x'] [] _ (by decide) (by decide)
    (Radix.numeral_toDigits (by decide) (by decide) w.toNat)

end Quantity

namespace BlockNumber

open Radix (Numeral)

theorem latest_ne {text : String} (h : 'l' ∉ text.toList) : text ≠ "latest" := by
  rintro rfl
  exact h (by decide)

theorem parse_argument (b : BlockNumber) : parse b.argument = .ok b := by
  cases b with
  | latest => rfl
  | number w =>
    have hdigits : Numeral 16 w.toNat (Nat.toDigits 16 w.toNat) :=
      Radix.numeral_toDigits (by decide) (by decide) w.toNat
    have hchars : (Quantity.format w).toList = '0' :: 'x' :: Nat.toDigits 16 w.toNat :=
      String.toList_ofList
    have hletter : 'l' ∉ (Quantity.format w).toList := by
      rw [hchars, List.mem_cons, List.mem_cons, not_or, not_or]
      exact ⟨by decide, by decide, Radix.not_mem_of_value? hdigits.value?_eq rfl⟩
    have hmarked : Quantity.isMarked (Quantity.format w).toList = true := by
      rw [hchars]
      rfl
    rw [argument, parse, if_neg (latest_ne hletter), if_pos hmarked,
      Quantity.parse_eq_ok_iff.mpr (Quantity.denotes_format w)]
    rfl

theorem parse_text (b : BlockNumber) : parse b.text = .ok b := by
  cases b with
  | latest => rfl
  | number w =>
    have hdigits : Numeral 10 w.toNat (Nat.toDigits 10 w.toNat) :=
      Radix.numeral_toDigits (by decide) (by decide) w.toNat
    have hchars : (text (.number w)).toList = [] ++ Nat.toDigits 10 w.toNat :=
      String.toList_ofList
    have hletter : 'l' ∉ (text (.number w)).toList := by
      rw [hchars]
      exact Radix.not_mem_of_value? hdigits.value?_eq rfl
    have hmarked : ¬ Quantity.isMarked (text (.number w)).toList = true := by
      rw [hchars]
      exact Quantity.not_isMarked_of_numeral (by decide) hdigits
    have hdecimal : Radix.decimal64? (text (.number w)) = some w :=
      Radix.decimal64?_eq_some_iff.mpr ⟨[], by decide, _, hchars, hdigits⟩
    rw [parse, if_neg (latest_ne hletter), if_neg hmarked, hdecimal]

end BlockNumber

namespace Quantity

/-! ## The main theorems -/

/-- **The texts that are read are the quantities of 64 bits.** A text is read as a number exactly if
it denotes that number and a word holds it: an optional mark and an optional plus sign stand before
a numeral, which is hexadecimal after a mark and decimal otherwise. Hence a word is read from its
written form, and a block from both of its forms. -/
theorem parse_iff_denotes :
    (∀ text n, (∃ w, parse text = .ok w ∧ w.toNat = n) ↔ Denotes n text ∧ n < UInt64.size) ∧
      (∀ w, parse (format w) = .ok w) ∧
      ∀ b : BlockNumber, BlockNumber.parse b.text = .ok b ∧ BlockNumber.parse b.argument = .ok b := by
  refine ⟨fun text n => ?_, fun w => parse_eq_ok_iff.mpr (denotes_format w),
    fun b => ⟨b.parse_text, b.parse_argument⟩⟩
  constructor
  · rintro ⟨w, hparse, rfl⟩
    exact ⟨parse_eq_ok_iff.mp hparse, w.toNat_lt⟩
  · rintro ⟨denotes, hlt⟩
    have hw : (UInt64.ofNat n).toNat = n := UInt64.toNat_ofNat_of_lt' hlt
    exact ⟨.ofNat n, parse_eq_ok_iff.mpr (by rwa [hw]), hw⟩

/-- A sign may stand between the mark and the digits, and zeros before them. -/
example : parse "0X+00Ff" = .ok 255 := by decide

/-- **How reading fails.** A text is out of range exactly if it is marked and its first digits alone
denote a number that no word holds. It is malformed in every other case in which it denotes no
number that a word holds; among these are the decimal quantities that are out of range. Both errors
keep the text. -/
theorem parse_fails_iff (text : String) (e : ParseError) :
    parse text = .error e ↔
      (e = .quantityOverflow text ∧ Exceeds text) ∨
        (e = .invalidHex text ∧ ¬ Exceeds text ∧ ∀ n, Denotes n text → UInt64.size ≤ n) := by
  have unread : (∀ n, Denotes n text → UInt64.size ≤ n) ↔ ∀ w, parse text ≠ .ok w := by
    constructor
    · intro large w hparse
      have hle := large w.toNat (parse_eq_ok_iff.mp hparse)
      have hlt : w.toNat < UInt64.size := w.toNat_lt
      omega
    · intro unread n denotes
      by_contra hlt
      have hw : (UInt64.ofNat n).toNat = n := UInt64.toNat_ofNat_of_lt' (Nat.not_le.mp hlt)
      exact unread (.ofNat n) (parse_eq_ok_iff.mpr (by rwa [hw]))
  rw [unread, ← parse_eq_overflow_iff]
  obtain ⟨w, hread⟩ | hlarge | hmalformed := parse_cases text
  · simp [hread]
  · simp [hlarge, eq_comm]
  · simp [hmalformed, eq_comm]

/-- A decimal quantity that no word holds is called malformed, and a malformed text that starts like
a hexadecimal one is called out of range. -/
theorem parse_misnames :
    let decimal := "18446744073709551616"
    let broken := "0x10000000000000000g"
    Denotes UInt64.size decimal ∧ parse decimal = .error (.invalidHex decimal) ∧
      (∀ n, ¬ Denotes n broken) ∧ parse broken = .error (.quantityOverflow broken) ∧
      ¬ ∀ text e, parse text = .error e →
        (e = .quantityOverflow text ↔ ∃ n, Denotes n text) ∧
          (e = .invalidHex text ↔ ¬ ∃ n, Denotes n text) := by
  intro decimal broken
  have denotes : Denotes UInt64.size decimal :=
    @Denotes.unmarked _ [] _ (by decide)
      (Radix.numeral_toDigits (by decide) (by decide) UInt64.size)
  have malformed : parse decimal = .error (.invalidHex decimal) := by decide
  have undenoted : ∀ n, ¬ Denotes n broken := by
    intro n denotes
    have hletter : 'g' ∉ broken.toList := denotes.not_mem rfl (by decide) (by decide)
    exact hletter (by decide)
  have large : parse broken = .error (.quantityOverflow broken) := by decide
  refine ⟨denotes, malformed, undenoted, large, fun named => ?_⟩
  cases (named decimal _ malformed).1.mpr ⟨_, denotes⟩

end Quantity

end IstanbulMonitor
