import IstanbulMonitor.Chain.Header
import IstanbulMonitor.Crypto.Keccak
import IstanbulMonitor.Istanbul.Extra

/-!
# What the seals sign

A header is hashed as the encoded list of its fields (`Header.encoded`). The
proposer signs `proposerDigest`, which covers the header without any seal; the
committed seals sign `commitDigest` of the block hash, which covers the header
with the proposer's seal alone.
-/

set_option autoImplicit false

namespace IstanbulMonitor

/-- The mix digest that marks Istanbul headers. -/
def istanbulDigest : Hash :=
  .ofNat 32 0x63746963616c2062797a616e74696e65206661756c7420746f6c6572616e6365

/-- The message code of a commit. -/
def commitCode : UInt8 := 2

namespace Header

/-- The encoded fields of a header with the given extra-data, in the order they are hashed. -/
def encodedFields (h : Header) (extraData : Bytes) : List Bytes :=
  [Rlp.data h.parentHash.toList, Rlp.data h.unclesHash.toList, Rlp.data h.coinbase.toList,
   Rlp.data h.stateRoot.toList, Rlp.data h.transactionsRoot.toList,
   Rlp.data h.receiptsRoot.toList, Rlp.data h.logsBloom, Rlp.number h.difficulty.toNat,
   Rlp.number h.number.toNat, Rlp.number h.gasLimit.toNat, Rlp.number h.gasUsed.toNat,
   Rlp.number h.timestamp.toNat, Rlp.data extraData, Rlp.data h.mixDigest.toList,
   Rlp.data h.nonce] ++
  match h.baseFee with
  | some fee => [Rlp.number fee.toNat]
  | none => []

/-- The encoding of a header with its extra-data replaced. -/
def encoded (h : Header) (extraData : Bytes) : Bytes :=
  Rlp.list (h.encodedFields extraData)

/-- The hash of the header without any seal. -/
def signingHash (h : Header) (extra : Extra) : Hash :=
  Keccak.keccak256 (h.encoded (extra.filtered false))

/-- The block hash: an Istanbul header is hashed without its committed seals, any other as it is. -/
def blockHash (h : Header) (extra : Extra) : Hash :=
  if h.mixDigest = istanbulDigest then Keccak.keccak256 (h.encoded (extra.filtered true))
  else Keccak.keccak256 (h.encoded h.extraData)

/-- The digest that the proposer's seal signs. -/
def proposerDigest (h : Header) (extra : Extra) : Hash :=
  Keccak.keccak256 (h.signingHash extra).toList

end Header

/-- The digest that every committed seal of a block signs. -/
def commitDigest (blockHash : Hash) : Hash :=
  Keccak.keccak256 (blockHash.toList ++ [commitCode])

end IstanbulMonitor
