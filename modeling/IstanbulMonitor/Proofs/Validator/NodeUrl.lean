import IstanbulMonitor.Proofs.Chain.AddressText
import IstanbulMonitor.Validator.Enode
import Mathlib.Data.ZMod.Basic

/-!
# The URLs of a node

A node is named by its public key, a point of the curve (`Secp256k1.IsPoint`). `Enode.Locates` are
the URLs that spell the key, in digits of any letter case and with anything after an `@`. An address
is read from the URLs of its key and from no other text (`Enode.address_iff_locates`).
-/

set_option autoImplicit false

namespace IstanbulMonitor

/-! ## Points of the curve -/

namespace Secp256k1

/-- A point of the curve: both coordinates are field elements, and `y ^ 2 = x ^ 3 + 7`. -/
structure IsPoint (x y : Nat) : Prop where
  x_lt : x < fieldPrime
  y_lt : y < fieldPrime
  equation : (y : ZMod fieldPrime) ^ 2 = (x : ZMod fieldPrime) ^ 3 + 7

theorem cast_mul (a b : Nat) : ((mul a b : Nat) : ZMod fieldPrime) = a * b := by
  rw [mul, ZMod.natCast_mod, Nat.cast_mul]

theorem cast_cubic (x : Nat) :
    ((cubic x : Nat) : ZMod fieldPrime) = (x : ZMod fieldPrime) ^ 3 + 7 := by
  rw [cubic, ZMod.natCast_mod, Nat.cast_add, cast_mul, cast_mul, pow_three', Nat.cast_ofNat]

/-- Both sides of the curve equation are reduced, so they are the same number if they are the same
element of the field. -/
theorem mul_eq_cubic_iff (x y : Nat) :
    mul y y = cubic x ↔ (y : ZMod fieldPrime) ^ 2 = (x : ZMod fieldPrime) ^ 3 + 7 := by
  rw [← cast_cubic, sq, ← cast_mul, ZMod.natCast_eq_natCast_iff', mul, cubic, Nat.mod_mod,
    Nat.mod_mod]

theorem onCurve_iff {x y : Nat} : onCurve x y = true ↔ IsPoint x y := by
  simp only [onCurve, Bool.and_eq_true, decide_eq_true_eq, beq_iff_eq, mul_eq_cubic_iff]
  constructor
  · rintro ⟨⟨hx, hy⟩, equation⟩
    exact ⟨hx, hy, equation⟩
  · rintro ⟨hx, hy, equation⟩
    exact ⟨⟨hx, hy⟩, equation⟩

end Secp256k1

/-! ## Hex digits -/

namespace Hex

/-- The hex digits of either case. -/
def alphabet : List Char := "0123456789abcdefABCDEF".toList

theorem mem_alphabet_iff {c : Char} : c ∈ alphabet ↔ ∃ d, value? c = some d := by
  constructor
  · intro mem
    have hall : alphabet.all (fun c => (value? c).isSome) = true := by decide
    exact Option.isSome_iff_exists.mp (List.all_eq_true.mp hall c mem)
  · rintro ⟨d, hd⟩
    obtain ⟨hlower, hd⟩ := toLower_of_value? hd
    by_cases hletter : c.val ≥ 65 ∧ c.val ≤ 90
    · have hletters : ∀ n < 91, 65 ≤ n → (∃ d < 16, (Char.ofNat n).toLower = digit d) →
          Char.ofNat n ∈ alphabet := by decide
      have hc := hletters c.toNat (Nat.lt_succ_of_le hletter.2) hletter.1
      rw [Char.ofNat_toNat] at hc
      exact hc ⟨d, hd, hlower⟩
    · have hsame : c.toLower = c := dif_neg hletter
      have hall : ∀ d < 16, digit d ∈ alphabet := by decide
      rw [← hsame, hlower]
      exact hall d hd

theorem mem_alphabet_of_map_toLower {cs : List Char} {bytes : Bytes}
    (same : cs.map Char.toLower = encode bytes) {c : Char} (mem : c ∈ cs) : c ∈ alphabet := by
  cases hvalue : value? c with
  | none => exact absurd mem (not_mem_of_map_toLower same hvalue)
  | some d => exact mem_alphabet_iff.mpr ⟨d, hvalue⟩

/-- An even number of digits denotes half as many bytes. -/
theorem exists_decode? : ∀ (n : Nat) (cs : List Char), cs.length = 2 * n →
    (∀ c ∈ cs, c ∈ alphabet) → ∃ bytes, decode? cs = some bytes ∧ bytes.length = n
  | 0, [], _, _ => ⟨[], rfl, rfl⟩
  | n + 1, a :: b :: cs, hlength, digits => by
    obtain ⟨high, hhigh⟩ := mem_alphabet_iff.mp (digits a (by simp))
    obtain ⟨low, hlow⟩ := mem_alphabet_iff.mp (digits b (by simp))
    have hrest : cs.length = 2 * n := by
      simp only [List.length_cons] at hlength
      omega
    obtain ⟨bytes, hbytes, hn⟩ := exists_decode? n cs hrest fun c hc => digits c (by simp [hc])
    refine ⟨UInt8.ofNat (16 * high + low) :: bytes, ?_, by rw [List.length_cons, hn]⟩
    rw [decode?, hhigh, hlow, hbytes]
    rfl

/-- The texts of `n` bytes, in any letter case, are those of `2 * n` digits. -/
theorem exists_fixedBytes_iff {n : Nat} {cs : List Char} :
    (∃ x : FixedBytes n, cs.map Char.toLower = encode x.toList) ↔
      cs.length = 2 * n ∧ ∀ c ∈ cs, c ∈ alphabet := by
  constructor
  · rintro ⟨x, same⟩
    have hlength := congrArg List.length same
    rw [List.length_map, length_encode, x.length_toList] at hlength
    exact ⟨hlength, fun c => mem_alphabet_of_map_toLower same⟩
  · rintro ⟨hlength, digits⟩
    obtain ⟨bytes, hbytes, hn⟩ := exists_decode? n cs hlength digits
    exact ⟨⟨bytes, hn⟩, decode?_eq_some_iff.mp hbytes⟩

end Hex

namespace Enode

/-- The start of the URL of a node. -/
def scheme : List Char := "enode://".toList

/-- The URLs of the node with a public key: the digits of the key in any letter case, and nothing
or an `@` and anything after them. -/
inductive Locates (key : FixedBytes 64) : String → Prop where
  | bare {id : List Char} (same : id.map Char.toLower = Hex.encode key.toList) :
      Locates key (String.ofList (scheme ++ id))
  | hosted {id : List Char} (place : List Char)
      (same : id.map Char.toLower = Hex.encode key.toList) :
      Locates key (String.ofList (scheme ++ (id ++ '@' :: place)))

/-- The address of a public key, which has to be a point of the curve: the last twenty bytes of its
digest. -/
structure Owns (key : FixedBytes 64) (a : Address) : Prop where
  point : Secp256k1.IsPoint (Bytes.toNat (key.toList.take 32)) (Bytes.toNat (key.toList.drop 32))
  suffix : a.toList = (Keccak.keccak256 key.toList).toList.drop 12

variable {url : String} {a : Address} {id : List Char} {key : FixedBytes 64}

/-! ## The id of a node -/

theorem owns_iff : Owns key a ↔
    Secp256k1.onCurve (Bytes.toNat (key.toList.take 32)) (Bytes.toNat (key.toList.drop 32)) = true ∧
      .ofSuffix 20 (Keccak.keccak256 key.toList).toList = a := by
  have hlength := (Keccak.keccak256 key.toList).length_toList
  have hsuffix : (FixedBytes.ofSuffix 20 (Keccak.keccak256 key.toList).toList).toList =
      (Keccak.keccak256 key.toList).toList.drop 12 := by
    rw [FixedBytes.toList_ofSuffix (by omega), hlength]
  rw [Secp256k1.onCurve_iff]
  constructor
  · rintro ⟨point, suffix⟩
    exact ⟨point, FixedBytes.toList_inj.mp (hsuffix.trans suffix.symm)⟩
  · rintro ⟨point, rfl⟩
    exact ⟨point, hsuffix⟩

/-- The account of a key does not depend on the letter case of its digits. -/
theorem idAccount_of_same (same : id.map Char.toLower = Hex.encode key.toList) :
    idAccount id =
      if Secp256k1.onCurve (Bytes.toNat (key.toList.take 32)) (Bytes.toNat (key.toList.drop 32))
      then .ok (.ofSuffix 20 (Keccak.keccak256 key.toList).toList)
      else .error .offCurve := by
  rw [idAccount, Hex.decode?_eq_some_iff.mpr same]
  exact if_neg (not_not_intro key.length_toList)

theorem idAccount_eq_ok_iff : idAccount id = .ok a ↔
    ∃ key : FixedBytes 64, id.map Char.toLower = Hex.encode key.toList ∧ Owns key a := by
  constructor
  · intro h
    have hkey : ∃ key : FixedBytes 64, Hex.decode? id = some key.toList := by
      unfold idAccount at h
      split at h
      · cases h
      · next key hdecode =>
        split at h
        · cases h
        · next hlength => exact ⟨⟨key, not_not.mp hlength⟩, hdecode⟩
    obtain ⟨key, hdecode⟩ := hkey
    have same := Hex.decode?_eq_some_iff.mp hdecode
    refine ⟨key, same, ?_⟩
    rw [idAccount_of_same same] at h
    split at h
    · next point => exact owns_iff.mpr ⟨point, Except.ok.inj h⟩
    · cases h
  · rintro ⟨key, same, owns⟩
    obtain ⟨point, rfl⟩ := owns_iff.mp owns
    rw [idAccount_of_same same, if_pos point]

/-! ## URLs -/

theorem afterScheme?_eq_some_iff {cs rest : List Char} :
    afterScheme? cs = some rest ↔ cs = scheme ++ rest := by
  constructor
  · intro h
    unfold afterScheme? at h
    split at h
    · cases h
      rfl
    · cases h
  · rintro rfl
    rfl

/-- The id of a node ends before the first `@`. -/
theorem takeWhile_id (same : id.map Char.toLower = Hex.encode key.toList) (tail : List Char) :
    (id ++ tail).takeWhile (· ≠ '@') = id ++ tail.takeWhile (· ≠ '@') := by
  have noAt : '@' ∉ id := Hex.not_mem_of_map_toLower same rfl
  exact List.takeWhile_append_of_pos fun c mem => decide_eq_true (ne_of_mem_of_not_mem mem noAt)

/-- What stands after the id of a node is of no account. -/
theorem address_ofList (same : id.map Char.toLower = Hex.encode key.toList) (tail : List Char)
    (ended : tail.takeWhile (· ≠ '@') = []) :
    address (String.ofList (scheme ++ (id ++ tail))) =
      (idAccount id).mapError (.enode · (String.ofList (scheme ++ (id ++ tail)))) := by
  have hid : (id ++ tail).takeWhile (· ≠ '@') = id := by
    rw [takeWhile_id same, ended, List.append_nil]
  rw [address, String.toList_ofList, afterScheme?_eq_some_iff.mpr rfl]
  exact congrArg (fun id => (idAccount id).mapError _) hid

/-- A URL is decided on by the digits of its key. -/
theorem Locates.exists_id (h : Locates key url) :
    ∃ id : List Char, id.map Char.toLower = Hex.encode key.toList ∧
      address url = (idAccount id).mapError (.enode · url) := by
  cases h with
  | @bare id same =>
      have haddress := address_ofList same [] rfl
      rw [List.append_nil] at haddress
      exact ⟨id, same, haddress⟩
  | @hosted id place same =>
      exact ⟨id, same, address_ofList same ('@' :: place) (List.takeWhile_cons_of_neg (by decide))⟩

/-- What stands after the scheme is an id, and nothing or an `@` and anything after it. -/
theorem exists_tail (rest : List Char) :
    rest = rest.takeWhile (· ≠ '@') ∨ ∃ place, rest = rest.takeWhile (· ≠ '@') ++ '@' :: place := by
  induction rest with
  | nil => exact .inl rfl
  | cons c rest ih =>
      by_cases hc : c = '@'
      · subst hc
        rw [List.takeWhile_cons_of_neg (by decide)]
        exact .inr ⟨rest, rfl⟩
      · rw [List.takeWhile_cons_of_pos (by simp [hc])]
        rcases ih with ih | ⟨place, ih⟩
        · exact .inl (congrArg (c :: ·) ih)
        · exact .inr ⟨place, congrArg (c :: ·) ih⟩

theorem address_eq_ok_iff : address url = .ok a ↔ ∃ key, Locates key url ∧ Owns key a := by
  constructor
  · intro h
    unfold address at h
    split at h
    · cases h
    · next rest hrest =>
      have hid : idAccount (rest.takeWhile (· ≠ '@')) = .ok a := by
        cases hid : idAccount (rest.takeWhile (· ≠ '@')) with
        | error fault =>
            rw [hid] at h
            cases h
        | ok b =>
            rw [hid] at h
            exact congrArg _ (Except.ok.inj h)
      obtain ⟨key, same, owns⟩ := idAccount_eq_ok_iff.mp hid
      refine ⟨key, ?_, owns⟩
      rw [← url.ofList_toList, afterScheme?_eq_some_iff.mp hrest]
      rcases exists_tail rest with hrest | ⟨place, hrest⟩
      · rw [hrest]
        exact .bare same
      · rw [hrest]
        exact .hosted place same
  · rintro ⟨key, locates, owns⟩
    obtain ⟨id, same, haddress⟩ := locates.exists_id
    rw [haddress, idAccount_eq_ok_iff.mpr ⟨key, same, owns⟩]
    rfl

/-- The URLs of one key have the same address, if any. -/
theorem Locates.toOption_address {url' : String} (h : Locates key url) (h' : Locates key url') :
    (address url).toOption = (address url').toOption := by
  obtain ⟨id, same, haddress⟩ := h.exists_id
  obtain ⟨id', same', haddress'⟩ := h'.exists_id
  rw [haddress, haddress', idAccount_of_same same, idAccount_of_same same']
  split <;> rfl

/-- **An address is read from the URLs of its key and from nothing else.** The ids of nodes are the
texts of 128 hex digits. An address is read from a URL exactly if that is the scheme, such an id,
and nothing or an `@` and anything after it, the id is that of a point of the curve, and the address
is the one of this key. So the letter case of the id and what stands after an `@` are of no
account. -/
theorem address_iff_locates :
    (∀ id : List Char, (∃ key : FixedBytes 64, id.map Char.toLower = Hex.encode key.toList) ↔
      id.length = 128 ∧ ∀ c ∈ id, c ∈ Hex.alphabet) ∧
    (∀ url a, address url = .ok a ↔ ∃ key, Locates key url ∧ Owns key a) ∧
    ∀ key url url', Locates key url → Locates key url' →
      (address url).toOption = (address url').toOption :=
  ⟨fun _ => Hex.exists_fixedBytes_iff, fun _ _ => address_eq_ok_iff,
    fun _ _ _ => Locates.toOption_address⟩

example : idAccount (List.replicate 128 '0') = .error .offCurve := by decide +kernel

end Enode

end IstanbulMonitor
