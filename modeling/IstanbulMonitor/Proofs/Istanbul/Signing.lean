import IstanbulMonitor.Monitor.State
import IstanbulMonitor.Proofs.Istanbul.Layout

/-!
# Sealed headers name their signers

The proposer signs a header that holds no seal yet, and the validators commit to one that holds the
proposer's seal alone. The monitor only sees the finished header, and what it cuts out of it are
these two headers again (`Header.proposerDigest_finished`, `Header.blockHash_finished`). So a header
that was sealed in this way names exactly those who signed it (`Monitor.extract_finished`).
-/

set_option autoImplicit false

namespace IstanbulMonitor

/-! ## A header while it is being sealed -/

namespace Extra

/-- The extra-data that the proposer signs: no seal is in it. -/
def unsealed (x : Extra) : Extra := { x with proposerSeal := [], committedSeals := [] }

/-- The extra-data that the validators commit to: only the proposer's seal is in it. -/
def proposed (x : Extra) : Extra := { x with committedSeals := [] }

end Extra

namespace Header

/-- The header with other extra-data. -/
def carrying (h : Header) (x : Extra) : Header := { h with extraData := x.encode }

/-- The header as a node gives it when it is sealed, with the hash that the node reports. -/
def finished (h : Header) (x : Extra) (reported : Option Hash) : Header :=
  { h.carrying x with hash := reported }

variable (h : Header) (x : Extra) (reported : Option Hash)

/-- The digest taken from the finished header is the one that the proposer signed. -/
theorem proposerDigest_finished :
    (h.finished x reported).proposerDigest x =
      (h.carrying x.unsealed).proposerDigest x.unsealed := rfl

/-- The hash taken from the finished header is the one that the validators committed to. -/
theorem blockHash_finished (istanbul : h.mixDigest = istanbulDigest) :
    (h.finished x reported).blockHash x = (h.carrying x.proposed).blockHash x.proposed := by
  have hfinished : (h.finished x reported).mixDigest = istanbulDigest := istanbul
  have hcarrying : (h.carrying x.proposed).mixDigest = istanbulDigest := istanbul
  rw [blockHash, if_pos hfinished, blockHash, if_pos hcarrying]
  rfl

end Header

/-! ## The signers of a header that reads back -/

/-- Once the extra-data is read, the signers are those that the recovery names. -/
theorem Seals.ofHeader_of_decode {h : Header} {x : Extra} (recover : SignerRecovery)
    (hdecode : Extra.decode h.extraData = .ok x) :
    Seals.ofHeader recover h = do
      let proposer ← recover (h.proposerDigest x) x.proposerSeal
      let endorsers ← x.committedSeals.mapM (recover (commitDigest (h.blockHash x)))
      return ⟨proposer, endorsers, h.blockHash x⟩ := by
  unfold Seals.ofHeader Proposal.ofHeader
  rw [hdecode]
  show (do
    let proposal ← (do
      let proposer ← recover (h.proposerDigest x) x.proposerSeal
      return ⟨x, proposer, h.blockHash x⟩ : Except RecoveryError Proposal)
    proposal.seals recover) = _
  cases recover (h.proposerDigest x) x.proposerSeal with
  | error e => rfl
  | ok proposer => rfl

namespace Monitor

/-- A header that was sealed names its signers, the endorsers in the order of their seals, whatever
hash the node reports; and if one committed seal is not recoverable, no signers are named. -/
theorem extract_finished (m : Monitor) (h : Header) (x : Extra) (reported : Option Hash)
    (istanbul : h.mixDigest = istanbulDigest) (small : x.encode.length < 2 ^ 64) :
    let proposing := (h.carrying x.unsealed).proposerDigest x.unsealed
    let hash := (h.carrying x.proposed).blockHash x.proposed
    let result := (m.extract (h.finished x reported)).1
    (∀ proposer endorsers, m.recover proposing x.proposerSeal = .ok proposer →
        List.Forall₂ (fun c a => m.recover (commitDigest hash) c = .ok a)
          x.committedSeals endorsers →
        result = .ok ⟨proposer, endorsers, hash⟩) ∧
      ∀ c ∈ x.committedSeals, ∀ e, m.recover (commitDigest hash) c = .error e →
        ∃ e, result = .error e := by
  intro proposing hash result
  -- both digests are those of the header as it was when it was signed
  have hdecode : Extra.decode (h.finished x reported).extraData = .ok x :=
    Extra.decode_encode small
  have hresult : result = (do
      let proposer ← m.recover proposing x.proposerSeal
      let endorsers ← x.committedSeals.mapM (m.recover (commitDigest hash))
      return (⟨proposer, endorsers, hash⟩ : Seals)).mapError .recovery := by
    show (m.extract (h.finished x reported)).1 = _
    rw [extract_fst, Seals.ofHeader_of_decode m.recover hdecode, h.proposerDigest_finished,
      h.blockHash_finished x reported istanbul]
  rw [hresult]
  constructor
  · intro proposer endorsers hproposer hendorsers
    rw [hproposer, mapM_eq_ok_iff.mpr hendorsers]
    rfl
  · intro c hc e he
    obtain ⟨e', hcommitted⟩ := exists_mapM_eq_error hc he
    rw [hcommitted]
    cases m.recover proposing x.proposerSeal with
    | error e'' => exact ⟨_, rfl⟩
    | ok proposer => exact ⟨_, rfl⟩

/-- An Istanbul header without extra-data. -/
def draft : Header := { Header.blank with number := 7, mixDigest := istanbulDigest }

/-- Extra-data with a proposer's seal and two committed seals. -/
def ballot : Extra := ⟨.zero, [.ofNat 20 1], [1], [[3], [2]]⟩

/-- The digest that a seal of the ballot has to sign. -/
def ballotDigest (bytes : Bytes) : Hash :=
  if bytes = [1] then (draft.carrying ballot.unsealed).proposerDigest ballot.unsealed
  else commitDigest ((draft.carrying ballot.proposed).blockHash ballot.proposed)

/-- A recovery that takes a seal for the account itself, but only over the digest that this seal has
to sign. An empty seal is not recoverable. -/
def countersigned : SignerRecovery := fun digest bytes =>
  if digest = ballotDigest bytes ∧ bytes ≠ [] then .ok (.ofSuffix 20 bytes)
  else .error .unrecoverable

theorem countersigned_ballotDigest {bytes : Bytes} (h : bytes ≠ []) :
    countersigned (ballotDigest bytes) bytes = .ok (.ofSuffix 20 bytes) :=
  if_pos ⟨rfl, h⟩

/-- The signers are named although the node reports a wrong hash, and they are not if an empty seal
is among the committed ones. -/
theorem extract_ballot :
    let m := make {} ⟨[]⟩ countersigned
    let hash := (draft.carrying ballot.proposed).blockHash ballot.proposed
    let spoilt := { ballot with committedSeals := [[3], [], [2]] }
    draft.mixDigest = istanbulDigest ∧ ballot.encode.length < 2 ^ 64 ∧
      (m.extract (draft.finished ballot (some .zero))).1 =
        .ok ⟨.ofSuffix 20 [1], [.ofSuffix 20 [3], .ofSuffix 20 [2]], hash⟩ ∧
      ∃ e, (m.extract (draft.finished spoilt none)).1 = .error e := by
  intro m hash spoilt
  have small : ballot.encode.length < 2 ^ 64 := by decide
  have smallSpoilt : spoilt.encode.length < 2 ^ 64 := by decide
  have proposed : countersigned ((draft.carrying ballot.unsealed).proposerDigest ballot.unsealed)
      [1] = .ok (.ofSuffix 20 [1]) := by
    rw [← countersigned_ballotDigest (List.cons_ne_nil 1 []), ballotDigest, if_pos rfl]
  -- neither digest is computed: the recovery is asked for exactly the one it expects
  have committed : ∀ b : UInt8, b ≠ 1 →
      countersigned (commitDigest hash) [b] = .ok (.ofSuffix 20 [b]) := by
    intro b hb
    have hbytes : [b] ≠ [1] := fun h => hb (List.cons.inj h).1
    rw [← countersigned_ballotDigest (List.cons_ne_nil b []), ballotDigest, if_neg hbytes]
  have spoils : countersigned (commitDigest hash) [] = .error .unrecoverable :=
    if_neg fun h => h.2 rfl
  have hrecover : m.recover = countersigned := rfl
  obtain ⟨named, -⟩ := extract_finished m draft ballot (some .zero) rfl small
  obtain ⟨-, rejected⟩ := extract_finished m draft spoilt none rfl smallSpoilt
  rw [hrecover] at named rejected
  exact ⟨rfl, small,
    named _ _ proposed (.cons (committed 3 (by decide)) (.cons (committed 2 (by decide)) .nil)),
    rejected [] (List.mem_cons_of_mem _ List.mem_cons_self) .unrecoverable spoils⟩

end Monitor

end IstanbulMonitor
