import IstanbulMonitor.Proofs.Chain.Spellings
import IstanbulMonitor.Proofs.Json.Records

/-!
# A header is read back from its JSON

Seven fields of a header may be spelled in several ways: its quantities and its byte strings of any
length. `Header.Spelling` is a choice for each of them, `Header.Spelling.written` being the one that
is written. The members in any spelling fill the record (`Header.Spelling.fill`), so they are read
back as the header, from a value and from a text, and in any order (`Header.reads_spelling`).
-/

set_option autoImplicit false

namespace IstanbulMonitor

open Json (Decoder Fields Fill Rule ofMembers)

/-! ## Values that fit -/

/-- A quantity stands in a text as a word or a string. -/
theorem Quantity.Spells.fits {n : UInt64} {value : Json} {depth : Nat} (h : Spells n value) :
    Json.Fits depth value := by
  cases h with
  | plain =>
    have hlt := n.toNat_lt
    constructor <;> omega
  | hex => trivial
  | decimal => trivial

/-- A byte string stands in a text as a string. -/
theorem Bytes.Spells.fits {bytes : Bytes} {value : Json} {depth : Nat} (h : Spells bytes value) :
    Json.Fits depth value := by
  cases h
  trivial

namespace Header

variable {h : Header} {given : List (String × Json)}

/-- What stands for the fields that may be spelled in several ways. -/
structure Spelling (h : Header) where
  logsBloom : {value // Bytes.Spells h.logsBloom value}
  number : {value // Quantity.Spells h.number value}
  gasLimit : {value // Quantity.Spells h.gasLimit value}
  gasUsed : {value // Quantity.Spells h.gasUsed value}
  timestamp : {value // Quantity.Spells h.timestamp value}
  extraData : {value // Bytes.Spells h.extraData value}
  nonce : {value // Bytes.Spells h.nonce value}

theorem distinct_rules : (rules.map (·.name)).Nodup := by decide

namespace Spelling

/-- The spelling in which a header is written. -/
def written (h : Header) : h.Spelling where
  logsBloom := ⟨_, Bytes.spells_toJson h.logsBloom⟩
  number := ⟨_, Quantity.spells_toJson h.number⟩
  gasLimit := ⟨_, Quantity.spells_toJson h.gasLimit⟩
  gasUsed := ⟨_, Quantity.spells_toJson h.gasUsed⟩
  timestamp := ⟨_, Quantity.spells_toJson h.timestamp⟩
  extraData := ⟨_, Bytes.spells_toJson h.extraData⟩
  nonce := ⟨_, Bytes.spells_toJson h.nonce⟩

/-- The members of a header in a spelling, in the order of the fields. -/
def members (w : h.Spelling) : List (String × Json) :=
  [("parentHash", h.parentHash.toJson), ("sha3Uncles", h.unclesHash.toJson),
   ("miner", h.coinbase.toJson), ("stateRoot", h.stateRoot.toJson),
   ("transactionsRoot", h.transactionsRoot.toJson), ("receiptsRoot", h.receiptsRoot.toJson),
   ("logsBloom", w.logsBloom.1), ("difficulty", U256.toJson h.difficulty),
   ("number", w.number.1), ("gasLimit", w.gasLimit.1), ("gasUsed", w.gasUsed.1),
   ("timestamp", w.timestamp.1), ("extraData", w.extraData.1),
   ("mixHash", h.mixDigest.toJson), ("nonce", w.nonce.1)] ++
  (h.baseFee.map fun fee => ("baseFeePerGas", U256.toJson fee)).toList ++
  (h.hash.map fun hash => ("hash", hash.toJson)).toList

theorem toJson_eq (h : Header) : h.toJson = ofMembers (written h).members := rfl

/-! ## Filling the record -/

theorem optional_toJson (n : U256) :
    Json.optional U256.ofJson (U256.toJson n) = .ok (some n) :=
  Json.optional_of_ok (U256.ofJson_toJson n) nofun

theorem optional_hash (x : Hash) :
    Json.optional (FixedBytes.ofJson 32) x.toJson = .ok (some x) :=
  Json.optional_of_ok x.ofJson_toJson nofun

/-- The members go along the rules, each with a value that is good by its rule. -/
theorem fill (w : h.Spelling) : Fill rules w.members := by
  have fixed : ∀ (name : String) {n : Nat} (x : FixedBytes n),
      (Rule.of name (FixedBytes.ofJson n)).fault? x.toJson = none :=
    fun _ _ x => Json.fault?_of _ x.ofJson_toJson
  have last : Fill [.of "hash" (Json.optional (FixedBytes.ofJson 32))]
      (h.hash.map fun hash => ("hash", hash.toJson)).toList := by
    rw [← List.append_nil (Option.toList _)]
    exact Fill.nil.option h.hash fun hash => Json.fault?_of _ (optional_hash hash)
  unfold members
  rw [List.append_assoc]
  apply Fill.cons (fixed "parentHash" h.parentHash)
  apply Fill.cons (fixed "sha3Uncles" h.unclesHash)
  apply Fill.cons (fixed "miner" h.coinbase)
  apply Fill.cons (fixed "stateRoot" h.stateRoot)
  apply Fill.cons (fixed "transactionsRoot" h.transactionsRoot)
  apply Fill.cons (fixed "receiptsRoot" h.receiptsRoot)
  apply Fill.cons (Json.fault?_of _ w.logsBloom.2.ofJson_eq)
  apply Fill.cons (Json.fault?_of _ (U256.ofJson_toJson h.difficulty))
  apply Fill.cons (Json.fault?_of _ w.number.2.ofJson_eq)
  apply Fill.cons (Json.fault?_of _ w.gasLimit.2.ofJson_eq)
  apply Fill.cons (Json.fault?_of _ w.gasUsed.2.ofJson_eq)
  apply Fill.cons (Json.fault?_of _ w.timestamp.2.ofJson_eq)
  apply Fill.cons (Json.fault?_of _ w.extraData.2.ofJson_eq)
  apply Fill.cons (fixed "mixHash" h.mixDigest)
  apply Fill.cons (Json.fault?_of _ w.nonce.2.ofJson_eq)
  exact last.option h.baseFee fun fee => Json.fault?_of _ (optional_toJson fee)

theorem distinct (w : h.Spelling) : (w.members.map Prod.fst).Nodup :=
  w.fill.distinct distinct_rules

/-! ## Reading the fields -/

section Fields

variable (w : h.Spelling) {f : Fields}
  (found : ∀ name, Json.lookup name f.members = Json.lookup name w.members)

include found

theorem required {α : Type} (name : String) {read : Decoder α} {value : Json} {a : α}
    (good : read value = .ok a) (mem : (name, value) ∈ w.members := by simp [members]) :
    f.required name read = .ok a := by
  have hvalue := (found name).trans ((Json.lookup_eq_some_iff w.distinct).mpr mem)
  simp only [Fields.required, hvalue, good]

theorem withDefault_baseFee :
    f.withDefault "baseFeePerGas" (Json.optional U256.ofJson) none = .ok h.baseFee := by
  have hvalue : Json.lookup "baseFeePerGas" w.members = h.baseFee.map U256.toJson := by
    cases hfee : h.baseFee <;> cases hhash : h.hash <;>
      simp [members, Json.lookup, hfee, hhash]
  exact Fields.withDefault_option ((found _).trans hvalue) optional_toJson

theorem withDefault_hash :
    f.withDefault "hash" (Json.optional (FixedBytes.ofJson 32)) none = .ok h.hash := by
  have hvalue : Json.lookup "hash" w.members = h.hash.map FixedBytes.toJson := by
    cases hfee : h.baseFee <;> cases hhash : h.hash <;>
      simp [members, Json.lookup, hfee, hhash]
  exact Fields.withDefault_option ((found _).trans hvalue) optional_hash

end Fields

/-- The members are read as the header, in whatever order they are given. -/
theorem ofJson_ofMembers (w : h.Spelling) (perm : given.Perm w.members) :
    ofJson (ofMembers given) = .ok h := by
  obtain ⟨f, hf, found⟩ := Json.fields_of_fill w.fill distinct_rules perm
  have hparentHash := w.required found "parentHash" h.parentHash.ofJson_toJson
  have hunclesHash := w.required found "sha3Uncles" h.unclesHash.ofJson_toJson
  have hcoinbase := w.required found "miner" h.coinbase.ofJson_toJson
  have hstateRoot := w.required found "stateRoot" h.stateRoot.ofJson_toJson
  have htransactionsRoot := w.required found "transactionsRoot" h.transactionsRoot.ofJson_toJson
  have hreceiptsRoot := w.required found "receiptsRoot" h.receiptsRoot.ofJson_toJson
  have hlogsBloom := w.required found "logsBloom" w.logsBloom.2.ofJson_eq
  have hdifficulty := w.required found "difficulty" (U256.ofJson_toJson h.difficulty)
  have hnumber := w.required found "number" w.number.2.ofJson_eq
  have hgasLimit := w.required found "gasLimit" w.gasLimit.2.ofJson_eq
  have hgasUsed := w.required found "gasUsed" w.gasUsed.2.ofJson_eq
  have htimestamp := w.required found "timestamp" w.timestamp.2.ofJson_eq
  have hextraData := w.required found "extraData" w.extraData.2.ofJson_eq
  have hmixDigest := w.required found "mixHash" h.mixDigest.ofJson_toJson
  have hnonce := w.required found "nonce" w.nonce.2.ofJson_eq
  simp only [ofJson, hf, hparentHash, hunclesHash, hcoinbase, hstateRoot, htransactionsRoot,
    hreceiptsRoot, hlogsBloom, hdifficulty, hnumber, hgasLimit, hgasUsed, htimestamp, hextraData,
    hmixDigest, hnonce, w.withDefault_baseFee found, w.withDefault_hash found, bind, Except.bind,
    pure, Except.pure]

/-! ## Reading the text -/

/-- Strings and words are all that stands in a header. -/
theorem membersFit (w : h.Spelling) (perm : given.Perm w.members) :
    Json.membersFit (Json.maxDepth - 1) given := by
  suffices hfits : ∀ m ∈ w.members, Json.Fits (Json.maxDepth - 1) m.2 by
    apply Json.membersFit_iff.mpr
    intro m mem
    exact hfits m (perm.mem_iff.mp mem)
  have optional : ∀ {α : Type} (x : Option α) (name : String) (text : α → String),
      ∀ m ∈ (x.map fun a => (name, Json.string (text a))).toList,
        Json.Fits (Json.maxDepth - 1) m.2 := by
    intro α x name text m mem
    cases x with
    | none => cases mem
    | some a =>
      rw [List.mem_singleton.mp mem]
      trivial
  simp only [members, List.forall_mem_append, List.forall_mem_cons]
  refine ⟨⟨⟨trivial, trivial, trivial, trivial, trivial, trivial, w.logsBloom.2.fits, trivial,
    w.number.2.fits, w.gasLimit.2.fits, w.gasUsed.2.fits, w.timestamp.2.fits, w.extraData.2.fits,
    trivial, w.nonce.2.fits, ?_⟩, ?_⟩, ?_⟩
  · exact fun _ mem => nomatch mem
  · exact optional h.baseFee _ _
  · exact optional h.hash _ _

/-- The text of the members is read as the header, in whatever order they are given. -/
theorem ofText?_render (w : h.Spelling) (perm : given.Perm w.members) :
    ofText? (Json.object given).render = some h := by
  have hdistinct := (perm.map Prod.fst).nodup_iff.mpr w.distinct
  have known : ∀ m ∈ given, m.1 ∈ rules.map (·.name) := by
    intro m mem
    exact w.fill.sublist.subset (List.mem_map_of_mem (perm.mem_iff.mp mem))
  have hrecord := Json.record?_sourceOf_object known hdistinct (w.membersFit perm)
  have hread := Json.read?_render_object (w.membersFit perm)
  have hdepth : Json.maxDepth - 1 + 1 = Json.maxDepth := rfl
  rw [hdepth] at hrecord
  simp only [ofText?, hread, hrecord, Option.bind_eq_bind, Option.bind_some,
    w.ofJson_ofMembers perm]
  rfl

end Spelling

/-- **A header is read back from its JSON**, from the value it is written as and from the text of
that value. It is also read back if its quantities and its byte strings of any length are spelled
otherwise, and in whatever order its members stand. -/
theorem reads_spelling (h : Header) :
    (ofJson h.toJson = .ok h ∧ ofText? h.toJson.render = some h) ∧
      ∀ (w : h.Spelling) (given : List (String × Json)), given.Perm w.members →
        ofJson (ofMembers given) = .ok h ∧ ofText? (Json.object given).render = some h := by
  have hany : ∀ (w : h.Spelling) (given : List (String × Json)), given.Perm w.members →
      ofJson (ofMembers given) = .ok h ∧ ofText? (Json.object given).render = some h :=
    fun w _ perm => ⟨w.ofJson_ofMembers perm, w.ofText?_render perm⟩
  refine ⟨⟨(hany (.written h) _ (.refl _)).1, ?_⟩, hany⟩
  -- the value has the members in the order of their names
  have perm := Json.perm_members_ofMembers (Spelling.written h).distinct
  have htext := (hany (.written h) _ perm).2
  rwa [Json.object_members_ofMembers, ← Spelling.toJson_eq] at htext

/-- A gas limit with an upper mark, zeros and letters of both cases, a plain number, a decimal
timestamp, and extra-data without a mark. -/
def Spelling.mixed :
    Spelling { blank with gasLimit := 0xab, timestamp := 12, extraData := [0xab] } where
  logsBloom := ⟨_, Bytes.spells_toJson _⟩
  number := ⟨_, .plain⟩
  gasLimit := ⟨_, @Quantity.Spells.hex _ 'X' 2 ['a', 'B'] (.inr rfl) rfl⟩
  gasUsed := ⟨_, Quantity.spells_toJson _⟩
  timestamp := ⟨_, @Quantity.Spells.decimal _ 0⟩
  extraData := ⟨_, @Bytes.Spells.digits _ [] ['A', 'b'] (by decide) rfl⟩
  nonce := ⟨_, Bytes.spells_toJson _⟩

/-- The members of that spelling are read as its header, also from the last to the first. -/
theorem reads_spelling_mixed :
    Spelling.mixed.members.reverse.Perm Spelling.mixed.members ∧
      ofText? (Json.object Spelling.mixed.members.reverse).render =
        some { blank with gasLimit := 0xab, timestamp := 12, extraData := [0xab] } := by
  have perm := Spelling.mixed.members.reverse_perm
  exact ⟨perm, ((reads_spelling _).2 _ _ perm).2⟩

end Header

end IstanbulMonitor
