import IstanbulMonitor.Number.Binary64
import IstanbulMonitor.Telemetry.Metrics
import Mathlib.Algebra.Group.Nat.Defs
import Mathlib.Data.Nat.Log

/-!
# Natural numbers that a double holds exactly

A natural number below `2 ^ 53` has a pattern of its own, whose mantissa is the number shifted to
53 bits. So rounding it to a double changes nothing (`Binary64.roundNat_of_lt`), and a counter is
exact as long as it stays below (`Metrics.increase_of_lt`).
-/

set_option autoImplicit false

namespace IstanbulMonitor

namespace Binary64

/-- A natural number below `2 ^ 53`, shifted to 53 bits. -/
def mantissa (n : Nat) : Nat := n * 2 ^ (52 - n.log2)

variable {n : Nat}

theorem log2_le (pos : n ≠ 0) (small : n < 2 ^ 53) : n.log2 ≤ 52 := by
  have := (Nat.log2_lt pos).mpr small
  omega

theorem mantissa_bounds (pos : n ≠ 0) (small : n < 2 ^ 53) :
    hiddenBit ≤ mantissa n ∧ mantissa n < 2 * hiddenBit := by
  have hsplit : 2 ^ n.log2 * 2 ^ (52 - n.log2) = hiddenBit := by
    rw [← Nat.pow_add, Nat.add_sub_cancel' (log2_le pos small)]
    rfl
  constructor
  · calc hiddenBit = 2 ^ n.log2 * 2 ^ (52 - n.log2) := hsplit.symm
      _ ≤ mantissa n := Nat.mul_le_mul_right _ (Nat.log2_self_le pos)
  · calc mantissa n < 2 ^ (n.log2 + 1) * 2 ^ (52 - n.log2) :=
          Nat.mul_lt_mul_of_pos_right Nat.lt_log2_self (Nat.two_pow_pos _)
      _ = 2 * hiddenBit := by rw [← hsplit, Nat.pow_succ, Nat.mul_right_comm, Nat.mul_comm]

/-! ## The pattern of a number -/

theorem floorLog2_one (pos : n ≠ 0) : floorLog2 n 1 = n.log2 := by
  have hone : Nat.log2 1 = 0 := by decide
  have hlow : ¬ n < 2 ^ n.log2 := Nat.not_lt.mpr (Nat.log2_self_le pos)
  simp [floorLog2, shifted, Nat.shiftLeft_eq, hone, hlow]

theorem roundDiv_one (m : Nat) : roundDiv m 1 = m := by
  simp [roundDiv, Nat.mod_one]

theorem ofNat_of_lt (pos : n ≠ 0) (small : n < 2 ^ 53) :
    ofNat n = ⟨UInt64.ofNat ((n.log2 + 1022) * hiddenBit + mantissa n)⟩ := by
  have hlog := log2_le pos small
  obtain ⟨-, hhigh⟩ := mantissa_bounds pos small
  have hexp : max ((n.log2 : Int) - 52) leastExponent = n.log2 - 52 := by
    simp only [leastExponent]
    omega
  have hfield : ((n.log2 : Int) - 52 - leastExponent).toNat = n.log2 + 1022 := by
    simp only [leastExponent]
    omega
  have hshifted : shifted n 1 (n.log2 - 52) = (mantissa n, 1) := by
    unfold shifted mantissa
    rw [Nat.shiftLeft_eq, Nat.shiftLeft_eq]
    split
    · have hlast : n.log2 = 52 := by omega
      simp [hlast]
    · have hshift : (-((n.log2 : Int) - 52)).toNat = 52 - n.log2 := by omega
      rw [hshift]
  have hfinite : (n.log2 + 1022) * hiddenBit + mantissa n < 0x7ff * hiddenBit := by
    simp only [hiddenBit] at hhigh ⊢
    omega
  simp only [ofNat, ofRatio?, if_neg pos, floorLog2_one pos, hexp, hfield, hshifted, roundDiv_one,
    if_pos hfinite, Option.getD_some]

/-! ## The value of a pattern -/

/-- A pattern with a field that is not zero has the hidden bit in its mantissa. -/
theorem parts_of_field {field m : Nat} (hfield : field < 2046) (hlow : hiddenBit ≤ m)
    (hhigh : m < 2 * hiddenBit) :
    parts ⟨UInt64.ofNat (field * hiddenBit + m)⟩ = (m, leastExponent + field) := by
  have hmagnitude : (UInt64.ofNat (field * hiddenBit + m)).toNat % signBit =
      field * hiddenBit + m := by
    rw [UInt64.toNat_ofNat']
    simp only [hiddenBit, signBit] at hhigh ⊢
    omega
  have hdiv : (field * hiddenBit + m) / hiddenBit = field + 1 := by
    simp only [hiddenBit] at hlow hhigh ⊢
    omega
  have hmod : (field * hiddenBit + m) % hiddenBit + hiddenBit = m := by
    simp only [hiddenBit] at hlow hhigh ⊢
    omega
  simp only [parts, hmagnitude, hdiv, hmod, Nat.succ_ne_zero, if_false, Nat.add_sub_cancel]

theorem ratio_ofNat_of_lt (pos : n ≠ 0) (small : n < 2 ^ 53) :
    ratio (ofNat n) = (mantissa n, 2 ^ (52 - n.log2)) := by
  have hlog := log2_le pos small
  obtain ⟨hlow, hhigh⟩ := mantissa_bounds pos small
  have hfield : n.log2 + 1022 < 2046 := by omega
  have hparts := parts_of_field hfield hlow hhigh
  have hexp : leastExponent + ((n.log2 + 1022 : Nat) : Int) = n.log2 - 52 := by
    simp only [leastExponent]
    omega
  rw [ofNat_of_lt pos small, ratio, hparts, hexp]
  by_cases whole : (0 : Int) ≤ n.log2 - 52
  · have hlast : n.log2 = 52 := by omega
    simp [hlast]
  · have hshift : (-((n.log2 : Int) - 52)).toNat = 52 - n.log2 := by omega
    simp only [if_neg whole, hshift, Nat.shiftLeft_eq, Nat.one_mul]

/-- **A natural number below `2 ^ 53` is its own double.** -/
theorem roundNat_of_lt (small : n < 2 ^ 53) : roundNat n = n := by
  by_cases pos : n = 0
  · subst pos
    decide
  · simp only [roundNat, ratio_ofNat_of_lt pos small, mantissa]
    exact Nat.mul_div_cancel n (Nat.two_pow_pos _)

end Binary64

theorem Metrics.increase_of_lt {value amount : Nat} (small : value + amount < 2 ^ 53) :
    Metrics.increase value amount = value + amount := by
  rw [Metrics.increase, Binary64.roundNat_of_lt (n := amount) (by omega),
    Binary64.roundNat_of_lt small]

end IstanbulMonitor
