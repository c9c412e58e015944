import IstanbulMonitor.Istanbul.Digest
import IstanbulMonitor.Proofs.Istanbul.Layout

/-!
# The hashed text tells headers apart

A header is hashed as one list of byte strings, with one string more if it has a base fee. The list
is cut again where it was put together and every string comes back, so two encodings are equal only
if the headers agree in every hashed field (`Header.encoded_eq_iff`). The text under the proposer's
seal therefore stands for these fields, the vanity and the validators, and for nothing else
(`Header.signedText_eq_iff`).
-/

set_option autoImplicit false

namespace IstanbulMonitor

theorem Bytes.minimal_inj {m n : Nat} : Bytes.minimal m = Bytes.minimal n ↔ m = n := by
  constructor
  · intro h
    rw [← Bytes.toNat_minimal m, h, Bytes.toNat_minimal]
  · rintro rfl
    rfl

/-- Written strings that are equal as lists of data are the same strings. -/
theorem Rlp.list_data_inj {xs ys : List Bytes} (hx : (list (xs.map data)).length < 2 ^ 64)
    (hy : (list (ys.map data)).length < 2 ^ 64) :
    list (xs.map data) = list (ys.map data) ↔ xs = ys := by
  constructor
  · intro h
    have hxs := Nat.lt_trans (length_lt_list (xs.map data)) hx
    have hys := Nat.lt_trans (length_lt_list (ys.map data)) hy
    have hitems : xs.map data = ys.map data := by
      rw [← items_list_data hxs, h, items_list_data hys]
    -- every string is read out of its item
    have hread : (xs.map data).mapM payload = .ok xs :=
      mapM_map_eq_ok fun x mem =>
        payload_data (Nat.lt_of_le_of_lt (length_le_of_mem_data mem) hxs)
    rw [hitems, mapM_map_eq_ok fun y mem =>
      payload_data (Nat.lt_of_le_of_lt (length_le_of_mem_data mem) hys)] at hread
    exact (Except.ok.inj hread).symm
  · rintro rfl
    rfl

namespace Header

/-! ## The hashed fields -/

/-- The headers agree in every hashed field apart from the extra-data. -/
structure Agrees (h k : Header) : Prop where
  parentHash : h.parentHash = k.parentHash
  unclesHash : h.unclesHash = k.unclesHash
  coinbase : h.coinbase = k.coinbase
  stateRoot : h.stateRoot = k.stateRoot
  transactionsRoot : h.transactionsRoot = k.transactionsRoot
  receiptsRoot : h.receiptsRoot = k.receiptsRoot
  logsBloom : h.logsBloom = k.logsBloom
  difficulty : h.difficulty = k.difficulty
  number : h.number = k.number
  gasLimit : h.gasLimit = k.gasLimit
  gasUsed : h.gasUsed = k.gasUsed
  timestamp : h.timestamp = k.timestamp
  mixDigest : h.mixDigest = k.mixDigest
  nonce : h.nonce = k.nonce
  baseFee : h.baseFee = k.baseFee

/-- The byte strings that are hashed, in their order. Numbers have no leading zeros. -/
def hashedStrings (h : Header) (extraData : Bytes) : List Bytes :=
  [h.parentHash.toList, h.unclesHash.toList, h.coinbase.toList, h.stateRoot.toList,
   h.transactionsRoot.toList, h.receiptsRoot.toList, h.logsBloom,
   Bytes.minimal h.difficulty.toNat, Bytes.minimal h.number.toNat,
   Bytes.minimal h.gasLimit.toNat, Bytes.minimal h.gasUsed.toNat,
   Bytes.minimal h.timestamp.toNat, extraData, h.mixDigest.toList, h.nonce] ++
  (h.baseFee.map fun fee => Bytes.minimal fee.toNat).toList

theorem encoded_eq_list (h : Header) (extraData : Bytes) :
    h.encoded extraData = Rlp.list ((h.hashedStrings extraData).map Rlp.data) := by
  unfold encoded encodedFields hashedStrings
  cases h.baseFee with
  | none => rfl
  | some fee => rfl

theorem feeStrings_inj {a b : Option U256} :
    (a.map fun fee => Bytes.minimal fee.toNat).toList =
      (b.map fun fee => Bytes.minimal fee.toNat).toList ↔ a = b := by
  cases a <;> cases b <;> simp [Bytes.minimal_inj, BitVec.toNat_inj]

/-- Equal strings come from equal fields: those of a fixed length are compared as they are, numbers
by what their digits denote, and the fee is there in both or in neither. -/
theorem hashedStrings_eq_iff {h k : Header} {d e : Bytes} :
    h.hashedStrings d = k.hashedStrings e ↔ d = e ∧ h.Agrees k := by
  constructor
  · intro heq
    obtain ⟨hfields, hfee⟩ := List.append_inj heq rfl
    simp only [List.cons.injEq, FixedBytes.toList_inj, Bytes.minimal_inj, BitVec.toNat_inj,
      UInt64.toNat_inj, and_true] at hfields
    obtain ⟨hparent, huncles, hcoinbase, hstate, htransactions, hreceipts, hbloom, hdifficulty,
      hnumber, hlimit, hused, htime, hextra, hmix, hnonce⟩ := hfields
    exact ⟨hextra, hparent, huncles, hcoinbase, hstate, htransactions, hreceipts, hbloom,
      hdifficulty, hnumber, hlimit, hused, htime, hmix, hnonce, feeStrings_inj.mp hfee⟩
  · rintro ⟨rfl, agrees⟩
    unfold hashedStrings
    rw [agrees.parentHash, agrees.unclesHash, agrees.coinbase, agrees.stateRoot,
      agrees.transactionsRoot, agrees.receiptsRoot, agrees.logsBloom, agrees.difficulty,
      agrees.number, agrees.gasLimit, agrees.gasUsed, agrees.timestamp, agrees.mixDigest,
      agrees.nonce, agrees.baseFee]

variable {h k : Header}

theorem encoded_eq_iff {d e : Bytes} (hsmall : (h.encoded d).length < 2 ^ 64)
    (ksmall : (k.encoded e).length < 2 ^ 64) :
    h.encoded d = k.encoded e ↔ d = e ∧ h.Agrees k := by
  rw [encoded_eq_list] at hsmall ksmall
  rw [encoded_eq_list, encoded_eq_list, Rlp.list_data_inj hsmall ksmall, hashedStrings_eq_iff]

/-- The encoding is longer than the extra-data in it. -/
theorem length_lt_encoded (h : Header) (d : Bytes) : d.length < (h.encoded d).length := by
  rw [encoded_eq_list]
  have mem : d ∈ h.hashedStrings d := by simp [hashedStrings]
  exact Nat.lt_of_le_of_lt (Rlp.length_le_of_mem_data mem) (Rlp.length_lt_list _)

end Header

/-! ## The text under the proposer's seal -/

namespace Extra

variable {x y : Extra}

theorem decode_filtered_false (small : (x.filtered false).length < 2 ^ 64) :
    decode (x.filtered false) = .ok { x with proposerSeal := [], committedSeals := [] } :=
  decode_encodeWith (Nat.lt_trans (x.length_body_lt [] []) small)

/-- Without any seal, extra-data stands for the vanity and the validators. -/
theorem filtered_eq_iff (hx : (x.filtered false).length < 2 ^ 64)
    (hy : (y.filtered false).length < 2 ^ 64) :
    x.filtered false = y.filtered false ↔ x.vanity = y.vanity ∧ x.validators = y.validators := by
  constructor
  · intro heq
    have hread := decode_filtered_false hx
    rw [heq, decode_filtered_false hy] at hread
    injection hread with hcontents
    injection hcontents with hvanity hvalidators
    exact ⟨hvanity.symm, hvalidators.symm⟩
  · rintro ⟨hvanity, hvalidators⟩
    unfold filtered encodeWith
    rw [hvanity, hvalidators]
    rfl

end Extra

namespace Header

variable {h k : Header}

/-- The text that is hashed for the proposer's seal. -/
def signedText (h : Header) (x : Extra) : Bytes :=
  h.encoded (x.filtered false)

theorem signingHash_eq (h : Header) (x : Extra) :
    h.signingHash x = Keccak.keccak256 (h.signedText x) := rfl

theorem signedText_eq_iff {x y : Extra} (hsmall : (h.signedText x).length < 2 ^ 64)
    (ksmall : (k.signedText y).length < 2 ^ 64) :
    h.signedText x = k.signedText y ↔
      h.Agrees k ∧ x.vanity = y.vanity ∧ x.validators = y.validators := by
  unfold signedText
  rw [encoded_eq_iff hsmall ksmall,
    Extra.filtered_eq_iff (Nat.lt_trans (h.length_lt_encoded _) hsmall)
      (Nat.lt_trans (k.length_lt_encoded _) ksmall)]
  exact and_comm

/-- Two hashed texts are equal exactly when extra-data and hashed fields are, and the texts under
two proposers' seals exactly when the hashed fields, the vanities and the validators are, whatever
the seals in the extra-data and the reported hashes. -/
theorem hashed_texts_injective (h k : Header) :
    (∀ d e : Bytes, (h.encoded d).length < 2 ^ 64 → (k.encoded e).length < 2 ^ 64 →
      (h.encoded d = k.encoded e ↔ d = e ∧ h.Agrees k)) ∧
    ∀ x y : Extra, (h.signedText x).length < 2 ^ 64 → (k.signedText y).length < 2 ^ 64 →
      h.signingHash x = Keccak.keccak256 (h.signedText x) ∧
        k.signingHash y = Keccak.keccak256 (k.signedText y) ∧
        (h.signedText x = k.signedText y ↔
          h.Agrees k ∧ x.vanity = y.vanity ∧ x.validators = y.validators) := by
  refine ⟨fun d e hsmall ksmall => encoded_eq_iff hsmall ksmall, fun x y hsmall ksmall => ?_⟩
  exact ⟨h.signingHash_eq x, k.signingHash_eq y, signedText_eq_iff hsmall ksmall⟩

/-- Extra-data that no validator has sealed. -/
def unsigned : Extra := ⟨.zero, [.ofNat 20 1, .ofNat 20 2], [], []⟩

/-- Seals and the reported hash are not in the signed text. A base fee of zero is, and so is the
order of the validators. -/
theorem signedText_unsigned :
    let plain : Header := { blank with number := 7, mixDigest := istanbulDigest }
    let reported := { plain with hash := some .zero, extraData := [1] }
    let charged := { plain with baseFee := some 0 }
    let signed := { unsigned with proposerSeal := [1], committedSeals := [[2], [3]] }
    let swapped := { unsigned with validators := [.ofNat 20 2, .ofNat 20 1] }
    (plain.signedText unsigned).length < 2 ^ 64 ∧
      plain.signedText unsigned = reported.signedText signed ∧
      plain.signedText unsigned ≠ charged.signedText unsigned ∧
      plain.signedText unsigned ≠ plain.signedText swapped ∧
      plain.encoded [0] ≠ plain.encoded [0, 0] := by
  intro plain reported charged signed swapped
  have hplain : (plain.signedText unsigned).length < 2 ^ 64 := by decide +kernel
  have hreported : (reported.signedText signed).length < 2 ^ 64 := by decide +kernel
  have hcharged : (charged.signedText unsigned).length < 2 ^ 64 := by decide +kernel
  have hswapped : (plain.signedText swapped).length < 2 ^ 64 := by decide +kernel
  have hone : (plain.encoded [0]).length < 2 ^ 64 := by decide +kernel
  have htwo : (plain.encoded [0, 0]).length < 2 ^ 64 := by decide +kernel
  obtain ⟨-, -, sealing⟩ := (hashed_texts_injective plain reported).2 _ _ hplain hreported
  obtain ⟨-, -, charging⟩ := (hashed_texts_injective plain charged).2 _ _ hplain hcharged
  obtain ⟨-, -, swapping⟩ := (hashed_texts_injective plain plain).2 _ _ hplain hswapped
  have filling := (hashed_texts_injective plain plain).1 _ _ hone htwo
  refine ⟨hplain, sealing.mpr ⟨?_, rfl, rfl⟩, ?_, ?_, ?_⟩
  · exact ⟨rfl, rfl, rfl, rfl, rfl, rfl, rfl, rfl, rfl, rfl, rfl, rfl, rfl, rfl, rfl⟩
  · intro heq
    cases (charging.mp heq).1.baseFee
  · intro heq
    exact absurd (swapping.mp heq).2.2 (by decide)
  · intro heq
    exact absurd (filling.mp heq).1 (by decide)

end Header

end IstanbulMonitor
