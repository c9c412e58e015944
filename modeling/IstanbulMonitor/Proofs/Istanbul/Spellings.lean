import IstanbulMonitor.Istanbul.Recovery
import IstanbulMonitor.Proofs.Bytes.Numerals

/-!
# Seals that spell one signature

A signature `(r, s)` with a nonce point of some parity has a twin `(r, n - s)` with the other
parity, and each of the two is written with a recovery id from zero or from 27 on. Exactly one of
the twins has its scalar in the lower half of the group (`Signature.lower_twin`), and only that one
is recovered from, so the four seals have one outcome. All other seals are refused for the first
check that they fail. `Seal.Judged` lists these cases, and `recoverSigner_spellings` says that the
outcome of a seal is the one that it is judged by.
-/

set_option autoImplicit false

namespace IstanbulMonitor

open Secp256k1 (groupOrder recoverPoint?)

namespace Seal

variable {r s : Nat} {v : UInt8} {bytes : Bytes}

/-! ## Seals as they are written -/

/-- The seal with these scalars and this recovery id. -/
@[irreducible]
def write (r s : Nat) (v : UInt8) : Bytes :=
  Bytes.ofNat 32 r ++ (Bytes.ofNat 32 s ++ [v])

/-- The recovery ids that are known: a parity, from zero or from 27 on. -/
def recoveryIds : List UInt8 := [0, 1, 27, 28]

theorem length_write (r s : Nat) (v : UInt8) : (write r s v).length = length := by
  simp only [write, List.length_append, Bytes.length_ofNat, List.length_singleton]
  rfl

theorem take_write (r s : Nat) (v : UInt8) : (write r s v).take 32 = Bytes.ofNat 32 r := by
  rw [write]
  exact List.take_left' (Bytes.length_ofNat 32 r)

theorem take_drop_write (r s : Nat) (v : UInt8) :
    ((write r s v).drop 32).take 32 = Bytes.ofNat 32 s := by
  rw [write, List.drop_left' (Bytes.length_ofNat 32 r)]
  exact List.take_left' (Bytes.length_ofNat 32 s)

theorem getD_write (r s : Nat) (v : UInt8) : (write r s v).getD 64 0 = v := by
  simp [write, List.getD_eq_getElem?_getD, Bytes.length_ofNat]

/-- Any bytes of the length of a seal are a seal that is written. -/
theorem exists_write (h : bytes.length = length) :
    ∃ r s v, r < 2 ^ 256 ∧ s < 2 ^ 256 ∧ bytes = write r s v := by
  have hlength : bytes.length = 65 := h
  have hfirst : (bytes.take 32).length = 32 := by
    rw [List.length_take]
    omega
  have hsecond : ((bytes.drop 32).take 32).length = 32 := by
    rw [List.length_take, List.length_drop]
    omega
  have hlast : (bytes.drop 64).length = 1 := by
    rw [List.length_drop]
    omega
  obtain ⟨v, hv⟩ := List.length_eq_one_iff.mp hlast
  have hr := Bytes.toNat_lt (bytes.take 32)
  have hs := Bytes.toNat_lt ((bytes.drop 32).take 32)
  have hr' := Bytes.ofNat_toNat (bytes.take 32)
  have hs' := Bytes.ofNat_toNat ((bytes.drop 32).take 32)
  rw [hfirst] at hr hr'
  rw [hsecond] at hs hs'
  refine ⟨_, _, v, hr, hs, ?_⟩
  rw [write, hr', hs', ← hv]
  have hrest : bytes.drop 64 = (bytes.drop 32).drop 32 := by rw [List.drop_drop]
  rw [hrest, List.take_append_drop, List.take_append_drop]

/-! ## Reading a seal -/

theorem parity?_eq_none_iff : parity? v = none ↔ v ∉ recoveryIds := by
  simp only [recoveryIds, List.mem_cons, List.not_mem_nil, or_false, parity?]
  constructor
  · intro h
    split at h
    · cases h
    split at h
    · cases h
    next h₁ h₂ =>
    rintro (rfl | rfl | rfl | rfl) <;> simp at h₁ h₂
  · intro h
    rw [if_neg (by tauto), if_neg (by tauto)]

/-- A seal is read by its recovery id first, and by its scalars then. -/
theorem read_write (hr : r < 2 ^ 256) (hs : s < 2 ^ 256) :
    read (write r s v) =
      match parity? v with
      | none => .error (.recoveryId v)
      | some odd =>
        if isScalar r && isScalar s then .ok ⟨r, s, odd⟩ else .error .invalidSignature := by
  have hlength : ¬ (write r s v).length ≠ length := not_not.mpr (length_write r s v)
  have hr' : Bytes.toNat ((write r s v).take 32) = r := by
    rw [take_write, Bytes.toNat_ofNat hr]
  have hs' : Bytes.toNat (((write r s v).drop 32).take 32) = s := by
    rw [take_drop_write, Bytes.toNat_ofNat hs]
  cases hparity : parity? v with
  | none => simp only [read, if_neg hlength, getD_write, hparity]
  | some odd => simp only [read, if_neg hlength, getD_write, hparity, hr', hs']

theorem lt_of_isScalar {n : Nat} (h : isScalar n = true) : n < 2 ^ 256 := by
  simp only [isScalar, Bool.and_eq_true, decide_eq_true_eq] at h
  exact Nat.lt_trans h.2 (by decide)

theorem isScalar_sub {n : Nat} (h : isScalar n = true) : isScalar (groupOrder - n) = true := by
  simp only [isScalar, Bool.and_eq_true, decide_eq_true_eq] at h ⊢
  omega

/-! ## Twins -/

namespace Signature

/-- The signature with the other parity that has the same nonce point up to its sign. -/
def twin (sig : Signature) : Signature := ⟨sig.r, groupOrder - sig.s, !sig.odd⟩

/-- Twins meet in the lower half of the group: the order is odd, so one of the two scalars is
there, and the other one is not. -/
theorem lower_twin {sig : Signature} (h : isScalar sig.s = true) : sig.twin.lower = sig.lower := by
  obtain ⟨r, s, odd⟩ := sig
  simp only [isScalar, Bool.and_eq_true, decide_eq_true_eq] at h
  have hodd : groupOrder = 2 * (groupOrder / 2) + 1 := by decide
  have hback : groupOrder - (groupOrder - s) = s := by omega
  by_cases hhigh : groupOrder / 2 < s
  · have hlow : ¬ groupOrder / 2 < groupOrder - s := by omega
    exact (if_neg hlow).trans (if_pos hhigh).symm
  · have hother : groupOrder / 2 < groupOrder - s := by omega
    refine (if_pos hother).trans ?_
    refine Eq.trans ?_ (if_neg hhigh).symm
    simp only [twin, hback, Bool.not_not]

/-- What is recovered from a signature. -/
def outcome (digest : Hash) (sig : Signature) : Except RecoveryError Address :=
  match recoverPoint? digest.toNat sig.r sig.s sig.odd with
  | some key => .ok (accountOf key)
  | none => .error .unrecoverable

end Signature

/-- Only the scalar in the lower half of the group is recovered from. -/
theorem recoverSigner_of_read {digest : Hash} {sig : Signature} (h : read bytes = .ok sig) :
    recoverSigner digest bytes = sig.lower.outcome digest := by
  unfold recoverSigner
  rw [h]
  rfl

theorem recoverSigner_of_error {digest : Hash} {e : RecoveryError} (h : read bytes = .error e) :
    recoverSigner digest bytes = .error e := by
  unfold recoverSigner
  rw [h]
  rfl

/-! ## Spellings -/

/-- The seals of a signature, `v` being its parity, and of its twin. -/
def spellings (r s : Nat) (v : UInt8) : List Bytes :=
  [write r s v, write r s (v + 27), write r (groupOrder - s) (1 - v),
    write r (groupOrder - s) (28 - v)]

/-- A seal with a known recovery id and good scalars is recovered from as its signature. -/
theorem recoverSigner_write {digest : Hash} {sig : Signature} (hr : isScalar sig.r = true)
    (hs : isScalar sig.s = true) (known : parity? v = some sig.odd) :
    recoverSigner digest (write sig.r sig.s v) = sig.lower.outcome digest := by
  apply recoverSigner_of_read
  rw [read_write (lt_of_isScalar hr) (lt_of_isScalar hs), known]
  simp only [hr, hs, Bool.and_true, if_true]

/-- A seal of the twin is recovered from as the signature itself. -/
theorem recoverSigner_write_twin {digest : Hash} {sig : Signature} (hr : isScalar sig.r = true)
    (hs : isScalar sig.s = true) (known : parity? v = some (!sig.odd)) :
    recoverSigner digest (write sig.r (groupOrder - sig.s) v) = sig.lower.outcome digest := by
  have htwin : recoverSigner digest (write sig.twin.r sig.twin.s v) =
      sig.twin.lower.outcome digest := recoverSigner_write hr (isScalar_sub hs) known
  rwa [Signature.lower_twin hs] at htwin

/-- All spellings are recovered from as one signature. -/
theorem recoverSigner_of_mem_spellings {digest : Hash} (hr : isScalar r = true)
    (hs : isScalar s = true) (hv : v = 0 ∨ v = 1) (spells : bytes ∈ spellings r s v) :
    recoverSigner digest bytes = (Signature.lower ⟨r, s, decide (v = 1)⟩).outcome digest := by
  have own : ∀ {w : UInt8}, parity? w = some (decide (v = 1)) → _ :=
    fun known => @recoverSigner_write _ digest ⟨r, s, decide (v = 1)⟩ hr hs known
  have other : ∀ {w : UInt8}, parity? w = some (!decide (v = 1)) → _ :=
    fun known => @recoverSigner_write_twin _ digest ⟨r, s, decide (v = 1)⟩ hr hs known
  simp only [spellings, List.mem_cons, List.not_mem_nil, or_false] at spells
  -- each recovery id is decoded for each of the two parities
  rcases spells with rfl | rfl | rfl | rfl
  · exact own (by rcases hv with rfl | rfl <;> rfl)
  · exact own (by rcases hv with rfl | rfl <;> rfl)
  · exact other (by rcases hv with rfl | rfl <;> rfl)
  · exact other (by rcases hv with rfl | rfl <;> rfl)

/-- What is made of a seal: it is refused for its length, then for its recovery id, then for its
scalars, or it is one of the spellings of a signature, which all have the same outcome. -/
inductive Judged (digest : Hash) : Bytes → Except RecoveryError Address → Prop where
  | length {bytes : Bytes} (wrong : bytes.length ≠ 65) :
      Judged digest bytes (.error (.sealLength bytes.length))
  | recoveryId {r s : Nat} {v : UInt8} (hr : r < 2 ^ 256) (hs : s < 2 ^ 256)
      (unknown : v ∉ recoveryIds) : Judged digest (write r s v) (.error (.recoveryId v))
  | scalars {r s : Nat} {v : UInt8} (hr : r < 2 ^ 256) (hs : s < 2 ^ 256)
      (known : v ∈ recoveryIds) (out : r = 0 ∨ groupOrder ≤ r ∨ s = 0 ∨ groupOrder ≤ s) :
      Judged digest (write r s v) (.error .invalidSignature)
  | spelled {r s : Nat} {v : UInt8} {bytes : Bytes} (hr : 0 < r ∧ r < groupOrder)
      (hs : 0 < s ∧ s < groupOrder) (hv : v = 0 ∨ v = 1) (spells : bytes ∈ spellings r s v) :
      Judged digest bytes ((Signature.lower ⟨r, s, decide (v = 1)⟩).outcome digest)

theorem isScalar_iff {n : Nat} : isScalar n = true ↔ 0 < n ∧ n < groupOrder := by
  simp only [isScalar, Bool.and_eq_true, decide_eq_true_eq]

/-- A recovery id tells a parity, and it is written from zero or from 27 on. -/
theorem mem_spellings_of_mem {w : UInt8} (known : w ∈ recoveryIds) :
    ∃ v, (v = 0 ∨ v = 1) ∧ write r s w ∈ spellings r s v := by
  simp only [recoveryIds, List.mem_cons, List.not_mem_nil, or_false] at known
  rcases known with rfl | rfl | rfl | rfl
  · exact ⟨0, .inl rfl, List.mem_cons_self⟩
  · exact ⟨1, .inr rfl, List.mem_cons_self⟩
  · exact ⟨0, .inl rfl, List.mem_cons_of_mem _ List.mem_cons_self⟩
  · exact ⟨1, .inr rfl, List.mem_cons_of_mem _ List.mem_cons_self⟩

/-- Every seal is judged. -/
theorem exists_judged (digest : Hash) (bytes : Bytes) : ∃ result, Judged digest bytes result := by
  by_cases hlength : bytes.length = 65
  · obtain ⟨r, s, v, hr, hs, rfl⟩ := exists_write hlength
    by_cases known : v ∈ recoveryIds
    · by_cases good : (0 < r ∧ r < groupOrder) ∧ 0 < s ∧ s < groupOrder
      · obtain ⟨w, hw, spells⟩ := mem_spellings_of_mem (r := r) (s := s) known
        exact ⟨_, .spelled good.1 good.2 hw spells⟩
      · exact ⟨_, .scalars hr hs known (by omega)⟩
    · exact ⟨_, .recoveryId hr hs known⟩
  · exact ⟨_, .length hlength⟩

theorem Judged.recoverSigner_eq {digest : Hash} {result : Except RecoveryError Address}
    (h : Judged digest bytes result) : recoverSigner digest bytes = result := by
  cases h with
  | length wrong => exact recoverSigner_of_error (if_pos wrong)
  | recoveryId hr hs unknown =>
    refine recoverSigner_of_error ?_
    rw [read_write hr hs, parity?_eq_none_iff.mpr unknown]
  | @scalars r s v hr hs known out =>
    have bad : ¬ (isScalar r && isScalar s) = true := by
      rw [Bool.and_eq_true, isScalar_iff, isScalar_iff]
      omega
    obtain ⟨odd, hodd⟩ : ∃ odd, parity? v = some odd := by
      apply Option.ne_none_iff_exists'.mp
      intro hnone
      exact parity?_eq_none_iff.mp hnone known
    refine recoverSigner_of_error ?_
    rw [read_write hr hs, hodd]
    exact if_neg bad
  | spelled hr hs hv spells =>
    exact recoverSigner_of_mem_spellings (isScalar_iff.mpr hr) (isScalar_iff.mpr hs) hv spells

end Seal

open Seal (Judged spellings write)

/-- **How a signature is spelled does not matter.** For any digest, the four seals of a signature
have the same outcome, be it an address or an error. Any other seal is refused for the first check
that it fails: its length, its recovery id, or the range of its scalars. -/
theorem recoverSigner_spellings (digest : Hash) :
    (∀ (r s : Nat) (v : UInt8), 0 < r ∧ r < groupOrder → 0 < s ∧ s < groupOrder →
        v = 0 ∨ v = 1 → ∀ bytes ∈ spellings r s v,
          recoverSigner digest bytes = recoverSigner digest (write r s v)) ∧
      ∀ bytes result, recoverSigner digest bytes = result ↔ Judged digest bytes result := by
  constructor
  · intro r s v hr hs hv bytes spells
    have first : write r s v ∈ spellings r s v := List.mem_cons_self
    rw [(Judged.spelled hr hs hv spells).recoverSigner_eq,
      (Judged.spelled hr hs hv first).recoverSigner_eq]
  · intro bytes result
    refine ⟨?_, Judged.recoverSigner_eq⟩
    rintro rfl
    obtain ⟨result, judged⟩ := Seal.exists_judged digest bytes
    rwa [judged.recoverSigner_eq]

/-- The least scalars, with their twin in the upper half, and a seal of no bytes. -/
theorem recoverSigner_spellings_least :
    (0 < 1 ∧ 1 < groupOrder) ∧
      recoverSigner .zero (write 1 (groupOrder - 1) 28) = recoverSigner .zero (write 1 1 0) ∧
      recoverSigner .zero [] = .error (.sealLength 0) := by
  have least : 0 < 1 ∧ 1 < groupOrder := by decide
  obtain ⟨same, judged⟩ := recoverSigner_spellings .zero
  refine ⟨least, ?_, (judged [] _).mpr (.length (by decide))⟩
  -- the last of the four seals, with 28 for the parity zero
  apply same 1 1 0 least least (.inl rfl)
  simp [spellings]

end IstanbulMonitor
