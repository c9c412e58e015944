import IstanbulMonitor.Bytes.Basic
import Mathlib.Data.List.Induction
import Mathlib.Tactic.Ring

/-!
# Numbers and byte strings

`Bytes.ofNat` and `Bytes.toNat` are inverse to each other on the byte strings of one length and the
numbers that fit (`Bytes.toNat_ofNat`, `Bytes.ofNat_toNat`), and `Bytes.minimal` gives exactly the
byte strings that do not start with zero (`Bytes.head?_minimal`, `Bytes.minimal_toNat`).
-/

set_option autoImplicit false

namespace IstanbulMonitor.Bytes

theorem toNat_append_singleton (bytes : Bytes) (b : UInt8) :
    toNat (bytes ++ [b]) = 256 * toNat bytes + b.toNat := by
  simp [toNat]

theorem toNat_cons (b : UInt8) (bytes : Bytes) :
    toNat (b :: bytes) = b.toNat * 256 ^ bytes.length + toNat bytes := by
  induction bytes using List.reverseRecOn with
  | nil => simp [toNat]
  | append_singleton bytes c ih =>
    have hcons := toNat_append_singleton (b :: bytes) c
    rw [List.cons_append] at hcons
    rw [hcons, ih, toNat_append_singleton, List.length_append, List.length_singleton]
    ring

/-- A byte string denotes a number that fits into it. -/
theorem toNat_lt (bytes : Bytes) : toNat bytes < 256 ^ bytes.length := by
  induction bytes using List.reverseRecOn with
  | nil => exact Nat.one_pos
  | append_singleton bytes b ih =>
    rw [toNat_append_singleton, List.length_append, List.length_singleton, Nat.pow_succ]
    have hb : b.toNat < 256 := b.toNat_lt
    omega

/-- A number that fits is read as it was written. -/
theorem toNat_ofNat {w n : Nat} (h : n < 256 ^ w) : toNat (ofNat w n) = n := by
  induction w generalizing n with
  | zero =>
    have hn : n = 0 := by simpa using h
    subst hn
    rfl
  | succ w ih =>
    have hdiv : n / 256 < 256 ^ w := by
      rw [Nat.pow_succ] at h
      omega
    have hbyte : (UInt8.ofNat n).toNat = n % 256 := UInt8.toNat_ofNat'
    rw [ofNat, toNat_append_singleton, ih hdiv, hbyte]
    omega

/-- A byte string is written as it was read. -/
theorem ofNat_toNat (bytes : Bytes) : ofNat bytes.length (toNat bytes) = bytes := by
  -- the last byte is the remainder, and the bytes before it denote the quotient
  induction bytes using List.reverseRecOn with
  | nil => rfl
  | append_singleton bytes b ih =>
    have hb : b.toNat < 256 := b.toNat_lt
    have hdiv : (256 * toNat bytes + b.toNat) / 256 = toNat bytes := by omega
    have hbyte : UInt8.ofNat (256 * toNat bytes + b.toNat) = b := by
      apply UInt8.toNat_inj.mp
      rw [UInt8.toNat_ofNat']
      omega
    rw [toNat_append_singleton, List.length_append, List.length_singleton, ofNat, hdiv, ih, hbyte]

/-! ## The shortest form -/

/-- The width of a number is the least in which it fits. -/
theorem width_le_iff (n w : Nat) : width n ≤ w ↔ n < 256 ^ w := by
  unfold width
  split
  · next h =>
    subst h
    simp
  · next h =>
    -- a byte has eight bits, and the logarithm counts bits
    have hpow : 256 ^ w = 2 ^ (8 * w) := by
      rw [Nat.pow_mul]
    rw [hpow, ← Nat.log2_lt h]
    omega

theorem lt_pow_width (n : Nat) : n < 256 ^ width n :=
  (width_le_iff n (width n)).mp (Nat.le_refl _)

theorem length_minimal (n : Nat) : (minimal n).length = width n :=
  length_ofNat _ _

theorem toNat_minimal (n : Nat) : toNat (minimal n) = n :=
  toNat_ofNat (lt_pow_width n)

/-- The shortest form never starts with zero: it would fit into one byte less. -/
theorem head?_minimal (n : Nat) : (minimal n).head? ≠ some 0 := by
  intro hhead
  cases hbytes : minimal n with
  | nil =>
    rw [hbytes] at hhead
    cases hhead
  | cons b bytes =>
    rw [hbytes] at hhead
    cases hhead
    have hnat := toNat_minimal n
    have hlen := length_minimal n
    rw [hbytes] at hnat hlen
    rw [toNat_cons] at hnat
    -- without the zero the number fits into one byte less than its width
    have hfits : n < 256 ^ bytes.length := by
      rw [← hnat]
      simpa using toNat_lt bytes
    have hwidth := (width_le_iff n bytes.length).mpr hfits
    rw [List.length_cons] at hlen
    omega

/-- A byte string that does not start with zero is the shortest form of its number. -/
theorem minimal_toNat {bytes : Bytes} (h : bytes.head? ≠ some 0) :
    minimal (toNat bytes) = bytes := by
  have hwidth : width (toNat bytes) = bytes.length := by
    apply Nat.le_antisymm ((width_le_iff _ _).mpr (toNat_lt bytes))
    cases bytes with
    | nil => exact Nat.zero_le _
    | cons b bytes =>
      have hb : 0 < b.toNat := by
        apply Nat.pos_of_ne_zero
        intro hzero
        apply h
        rw [UInt8.toNat_inj.mp (hzero.trans UInt8.toNat_zero.symm)]
        rfl
      apply Nat.succ_le_of_lt
      apply Nat.lt_of_not_le
      intro hle
      have hlt := (width_le_iff _ _).mp hle
      rw [toNat_cons] at hlt
      have := Nat.le_mul_of_pos_left (256 ^ bytes.length) hb
      omega
  rw [minimal, hwidth, ofNat_toNat]

end IstanbulMonitor.Bytes
