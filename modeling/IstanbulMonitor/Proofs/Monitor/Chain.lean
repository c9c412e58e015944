import IstanbulMonitor.Proofs.Monitor.Calls
import IstanbulMonitor.Proofs.Monitor.Ensures

/-!
# Following one chain

A node is honest if it serves the blocks of one chain. Then whatever a monitor finds for a number,
in its cache or at the node, is the block of that number (`Monitor.ensures_header`), and a restart
counts the last blocks of the chain into fresh statistics (`Monitor.ensures_restart`). A restart
only fails if the node keeps a block back or if the signers of a block are not known.
-/

set_option autoImplicit false

namespace IstanbulMonitor

namespace Gateway

variable {γ : Type}

/-- A node that serves the blocks of a chain, each under its own number. It need not serve all. -/
structure Honest (g : Gateway γ) (block : UInt64 → Header) : Prop where
  numbered : ∀ n, (block n).number = n
  byNumber : ∀ n x h, (g (.header (.number n)) x).1 = .ok (some h) → h = block n
  latest : ∀ x h, (g (.header .latest) x).1 = .ok (some h) → h = block h.number

/-- A node that serves every block it has. -/
def Reliable (g : Gateway γ) (block : UInt64 → Header) (there : UInt64 → γ → Prop) : Prop :=
  ∀ n x, there n x → (g (.header (.number n)) x).1 = .ok (some (block n))

end Gateway

/-- The signers of every block of a chain are known. -/
def SignersKnown (recover : SignerRecovery) (block : UInt64 → Header) : Prop :=
  ∀ n, ∃ seals, Seals.ofHeader recover (block n) = .ok seals

/-- The blocks of a chain from a number on. -/
def blocksFrom (block : UInt64 → Header) (first n : Nat) : List Header :=
  (List.range' first n).map fun k => block (.ofNat k)

/-- The last blocks of a chain: those from `window` before the head up to the head, but not block
zero. -/
def lastBlocks (block : UInt64 → Header) (head window : UInt64) : List Header :=
  let first := max (head.toNat - window.toNat) 1
  blocksFrom block first (head.toNat + 1 - first)

/-- The statistics after a list of blocks whose signers are all known. -/
inductive Statistics.Counts (recover : SignerRecovery) :
    Statistics → List Header → Statistics → Prop where
  | nil (s : Statistics) : Counts recover s [] s
  | cons {s after : Statistics} {h : Header} {blocks : List Header} {seals : Seals}
      (signed : Seals.ofHeader recover h = .ok seals)
      (rest : Counts recover (s.apply h.number seals.proposer seals.endorsers) blocks after) :
      Counts recover s (h :: blocks) after

namespace Monitor

variable {γ : Type}

/-- The cache holds blocks of the chain under their own numbers. -/
def Caches (m : Monitor) (block : UInt64 → Header) : Prop :=
  ∀ entry ∈ m.cache.entries, entry.2 = block entry.1

/-- A fact that does not depend on the cache or the journal. -/
structure Unobservant (P : Monitor → γ → Prop) : Prop where
  cache : ∀ m x cache, P m x → P { m with cache } x
  journal : ∀ m x journal, P m x → P { m with journal } x

/-- A fact that stays while the node changes and while blocks are asked for by their numbers. -/
structure Lasting (g : Gateway γ) (later : γ → γ → Prop) (P : Monitor → γ → Prop) : Prop
    extends Unobservant P where
  later : ∀ m x y, later x y → P m x → P m y
  asked : ∀ m x k, P m x → P m (g (.header (.number k)) x).2

variable {block : UInt64 → Header}

/-! ## Looking headers up -/

theorem Caches.put {m : Monitor} (caches : m.Caches block) {h : Header} {n : UInt64}
    (hn : h = block n) (numbered : ∀ n, (block n).number = n) :
    ({ m with cache := m.cache.put h.number h } : Monitor).Caches block := by
  intro entry hentry
  rcases List.mem_cons.mp (List.mem_of_mem_take hentry) with rfl | hold
  · rw [hn, numbered]
  · exact caches entry (List.mem_filter.mp hold).1

/-- The cache gives the block that it is asked for, or none. -/
theorem Caches.lookUp {m : Monitor} (caches : m.Caches block) (n : UInt64) :
    (m.lookUp n).2.Caches block ∧ ∀ h, (m.lookUp n).1 = some h → h = block n := by
  unfold Monitor.lookUp HeaderCache.get
  cases hfind : m.cache.entries.find? (·.1 = n) with
  | none => exact ⟨caches, fun h hh => by cases hh⟩
  | some entry =>
      have mem := List.mem_of_find?_eq_some hfind
      have hkey : entry.1 = n := by simpa using List.find?_some hfind
      constructor
      · intro other hother
        rcases List.mem_cons.mp hother with rfl | hother
        · exact caches other mem
        · exact caches other (List.mem_filter.mp hother).1
      · intro h hh
        cases hh
        rw [← hkey]
        exact caches entry mem

variable {g : Gateway γ} {later : γ → γ → Prop} {I P : Monitor → γ → Prop}
  {there : UInt64 → γ → Prop}

/-- The head is asked for. What is known of the monitor and the node changes with the answer, from
`P` to `R`. -/
theorem ensures_latest {R : Header → Monitor → γ → Prop} (honest : g.Honest block)
    (unobservant : Unobservant P) (stays : ∀ m x y, later x y → P m x → P m y)
    (unobservantAfter : ∀ h, Unobservant (R h)) (out : ∀ m x, P m x → I m x)
    (turn : ∀ m x h, P m x → (g (.header .latest) x).1 = .ok (some h) →
      R h m (g (.header .latest) x).2) :
    Inquiry.Ensures g later I (fun m x => P m x ∧ m.Caches block) (header .latest)
      (fun h m x => R h m x ∧ m.Caches block ∧ h = block h.number)
      (fun _ m _ => ∃ x, P m x ∧ m.Caches block ∧
        ∀ h, (g (.header .latest) x).1 ≠ .ok (some h)) := by
  -- what is put into the cache is the answer of the node
  refine .bind (.change (R := fun _ m x => P m x ∧ m.Caches block) ?_) fun _ =>
    .bind (Q := fun answer m x => ∃ y, P m y ∧ m.Caches block ∧
      (g (.header .latest) y).1 = .ok answer ∧ x = (g (.header .latest) y).2) ?_ ?_
  · rintro m x ⟨hP, caches⟩
    exact ⟨unobservant.journal m x _ hP, caches⟩
  · refine .ask (fun m x h => out m x h.1) ?_ ?_
    · rintro m x y answer ⟨hP, caches⟩ hxy hanswer
      exact ⟨y, stays m x y hxy hP, caches, hanswer, rfl⟩
    · rintro m x y e ⟨hP, caches⟩ hxy hanswer
      refine ⟨y, stays m x y hxy hP, caches, ?_⟩
      intro h hh
      rw [hanswer] at hh
      cases hh
  · intro answer
    cases answer with
    | none =>
        refine .fail ?_
        rintro m x ⟨y, hP, caches, hanswer, -⟩
        refine ⟨y, hP, caches, ?_⟩
        intro h hh
        rw [hanswer] at hh
        cases hh
    | some h =>
        refine .bind (.change ?_) fun _ => .pure fun m x found => found
        rintro m x ⟨y, hP, caches, hanswer, rfl⟩
        have hblock := honest.latest y h hanswer
        exact ⟨(unobservantAfter h).cache m _ _ (turn m y h hP hanswer),
          caches.put hblock honest.numbered, hblock⟩

/-- A header that is asked for by its number is the block of that number. An error means that the
node keeps a block back. -/
theorem ensures_header (there : UInt64 → γ → Prop) (honest : g.Honest block)
    (lasting : Lasting g later P) (out : ∀ m x, P m x → I m x) {n : UInt64}
    (has : ∀ m x, P m x → there n x) :
    Inquiry.Ensures g later I (fun m x => P m x ∧ m.Caches block) (header (.number n))
      (fun h m x => (P m x ∧ m.Caches block) ∧ h = block n)
      (fun _ m x => (P m x ∧ m.Caches block) ∧ ¬ g.Reliable block there) := by
  -- a node that serves what it has gives the block
  have unreliable : ∀ m x y answer, P m x → later x y →
      (g (.header (.number n)) y).1 = answer → answer ≠ .ok (some (block n)) →
      ¬ g.Reliable block there := by
    intro m x y answer hP hxy hanswer hne reliable
    rw [reliable n y (has m y (lasting.later m x y hxy hP))] at hanswer
    exact hne hanswer.symm
  refine .bind (Q := fun found m x => (P m x ∧ m.Caches block) ∧ ∀ h, found = some h → h = block n)
    (.ofOperation ?_ ?_) ?_
  · rintro m x found ⟨hP, caches⟩ hfound
    obtain ⟨hcaches, hblock⟩ := caches.lookUp n
    cases hfound
    exact ⟨⟨lasting.journal _ x _ (lasting.cache m x _ hP), hcaches⟩, hblock⟩
  · rintro m x e - he
    cases he
  · intro found
    -- the node is asked only for a block that the cache does not have
    cases found with
    | some h => exact .pure fun m x hQ => ⟨hQ.1, hQ.2 h rfl⟩
    | none =>
        refine .bind (Q := fun answer m x => (P m x ∧ m.Caches block) ∧
          (∀ h, answer = some h → h = block n) ∧
            (answer = none → ¬ g.Reliable block there)) (.ask ?_ ?_ ?_) ?_
        · exact fun m x hQ => out m x hQ.1.1
        · rintro m x y answer ⟨⟨hP, caches⟩, -⟩ hxy hanswer
          refine ⟨⟨lasting.asked m y n (lasting.later m x y hxy hP), caches⟩, ?_, ?_⟩
          · rintro h rfl
            exact honest.byNumber n y h hanswer
          · rintro rfl
            exact unreliable m x y _ hP hxy hanswer (by simp)
        · rintro m x y e ⟨⟨hP, caches⟩, -⟩ hxy hanswer
          exact ⟨⟨lasting.asked m y n (lasting.later m x y hxy hP), caches⟩,
            unreliable m x y _ hP hxy hanswer (by simp)⟩
        · intro answer
          cases answer with
          | none => exact .fail fun m x hQ => ⟨hQ.1, hQ.2.2 rfl⟩
          | some h =>
              refine .bind (.change ?_) fun _ => .pure fun m x hQ => hQ
              rintro m x ⟨⟨hP, caches⟩, hblock, -⟩
              exact ⟨⟨lasting.cache m x _ hP, caches.put (hblock h rfl) honest.numbered⟩,
                hblock h rfl⟩

/-! ## Counting the last blocks -/

variable {recover : SignerRecovery}

theorem ensures_signers (unobservant : Unobservant P)
    (recovers : ∀ m x, P m x → m.recover = recover) (h : Header) :
    Inquiry.Ensures g later I (fun m x => P m x ∧ m.Caches block) (signers h)
      (fun seals m x => (P m x ∧ m.Caches block) ∧ Seals.ofHeader recover h = .ok seals)
      (fun _ m x => (P m x ∧ m.Caches block) ∧ ∃ e, Seals.ofHeader recover h = .error e) := by
  have kept : ∀ m x, P m x ∧ m.Caches block →
      P (m.extract h).2 x ∧ (m.extract h).2.Caches block := by
    rintro m x ⟨hP, caches⟩
    obtain ⟨journal, hextract⟩ := exists_journal_extract m h
    rw [hextract]
    exact ⟨unobservant.journal m x journal hP, caches⟩
  refine .ofOperation ?_ ?_
  · intro m x seals hm hseals
    refine ⟨kept m x hm, ?_⟩
    rw [← recovers m x hm.1]
    exact ofHeader_of_extract hseals
  · intro m x e hm he
    refine ⟨kept m x hm, ?_⟩
    rw [extract_fst, recovers m x hm.1] at he
    cases hof : Seals.ofHeader recover h with
    | error e' => exact ⟨e', rfl⟩
    | ok seals =>
        rw [hof] at he
        cases he

/-- Why a restart fails. -/
def Obstructed (g : Gateway γ) (block : UInt64 → Header) (there : UInt64 → γ → Prop)
    (recover : SignerRecovery) : Prop :=
  ¬ (g.Reliable block there ∧ SignersKnown recover block)

/-- A replay counts the blocks up to the head, each found under its number. -/
theorem ensures_replay (honest : g.Honest block) (lasting : Lasting g later P)
    (out : ∀ m x, P m x → I m x) (recovers : ∀ m x, P m x → m.recover = recover) {head : Header}
    (hhead : head = block head.number) (has : ∀ m x n, P m x → n ≤ head.number → there n x) :
    ∀ (n : Nat) (number : UInt64) (fresh : Statistics),
      (n ≠ 0 → number.toNat + n = head.number.toNat + 1) →
      Inquiry.Ensures g later I (fun m x => P m x ∧ m.Caches block) (replay head n number fresh)
        (fun fresh' m x => (P m x ∧ m.Caches block) ∧
          Statistics.Counts recover fresh (blocksFrom block number.toNat n) fresh')
        (fun _ m x => (P m x ∧ m.Caches block) ∧ Obstructed g block there recover) := by
  intro n
  induction n with
  | zero => exact fun number fresh _ => .pure fun m x hm => ⟨hm, .nil fresh⟩
  | succ n ih =>
      intro number fresh hcount
      -- the numbers that are left end with the head, so adding one does not wrap around
      have hsum := hcount n.succ_ne_zero
      have hbound := head.number.toNat_lt
      have hle : number ≤ head.number := by
        rw [UInt64.le_iff_toNat_le]
        omega
      have hblocks : blocksFrom block number.toNat (n + 1) =
          block number :: blocksFrom block (number.toNat + 1) n := by
        simp [blocksFrom, List.range'_succ]
      rw [hblocks]
      have counted : ∀ h, h = block number → Inquiry.Ensures g later I
          (fun m x => P m x ∧ m.Caches block)
          (do
            let seals ← signers h
            replay head n (number + 1) (fresh.apply h.number seals.proposer seals.endorsers))
          (fun fresh' m x => (P m x ∧ m.Caches block) ∧ Statistics.Counts recover fresh
            (block number :: blocksFrom block (number.toNat + 1) n) fresh')
          (fun _ m x => (P m x ∧ m.Caches block) ∧ Obstructed g block there recover) := by
        rintro h rfl
        refine .bind ((ensures_signers lasting.toUnobservant recovers _).weaken (fun m x hm => hm)
          (fun seals m x hQ => hQ) ?_) ?_
        · rintro e m x ⟨hm, e', he'⟩
          refine ⟨hm, fun h => ?_⟩
          obtain ⟨seals, hseals⟩ := h.2 number
          rw [he'] at hseals
          cases hseals
        · rintro seals m x ⟨hm, hseals⟩
          refine (ih (number + 1) _ ?_).weaken (fun m x hm => hm) ?_ (fun e m x hE => hE) m x hm
          · intro hn
            rw [toNat_next (by omega)]
            omega
          · rintro fresh' m x ⟨hm, hcounts⟩
            refine ⟨hm, .cons hseals ?_⟩
            -- after the last block the next number may wrap around, but nothing is left
            rcases Nat.eq_zero_or_pos n with rfl | hn
            · exact hcounts
            · rw [toNat_next (by omega)] at hcounts
              exact hcounts
      rw [replay]
      by_cases heq : number = head.number
      · rw [if_pos heq]
        exact counted head (by rw [hhead, heq])
      · rw [if_neg heq]
        refine .bind ((ensures_header there honest lasting out
          fun m x hP => has m x number hP hle).weaken (fun m x hm => hm) (fun h m x hQ => hQ) ?_) ?_
        · exact fun e m x hE => ⟨hE.1, fun h => hE.2 h.1⟩
        · rintro h m x ⟨hm, hblock⟩
          exact counted h hblock m x hm

theorem toNat_firstReplayed (head window : UInt64) :
    (firstReplayed head window).toNat = max (head.toNat - window.toNat) 1 := by
  unfold firstReplayed
  split
  · rename_i hlt
    have hlt' := UInt64.lt_iff_toNat_lt.mp hlt
    rw [UInt64.toNat_sub_of_le _ _ (UInt64.le_of_lt hlt)]
    omega
  · rename_i hle
    have hle' := UInt64.le_iff_toNat_le.mp (UInt64.not_lt.mp hle)
    rw [UInt64.toNat_one]
    omega

/-- A restart with a window takes the last blocks of the chain, counted into fresh statistics, or
leaves the monitor as it was. -/
theorem ensures_restart {R : Header → Monitor → γ → Prop} {set : ValidatorSet} {window : UInt64}
    (later : γ → γ → Prop) (there : UInt64 → γ → Prop) (recover : SignerRecovery)
    (positive : window ≠ 0) (honest : g.Honest block) (unobservant : Unobservant P)
    (stays : ∀ m x y, later x y → P m x → P m y) (out : ∀ m x, P m x → I m x)
    (validators : ∀ m x, P m x → m.validators = set)
    (lasting : ∀ h, Lasting g later (R h)) (outAfter : ∀ h m x, R h m x → I m x)
    (recovers : ∀ h m x, R h m x → m.recover = recover)
    (has : ∀ h m x n, R h m x → n ≤ h.number → there n x)
    (turn : ∀ m x h, P m x → (g (.header .latest) x).1 = .ok (some h) →
      R h m (g (.header .latest) x).2) :
    Inquiry.Ensures g later I (fun m x => P m x ∧ m.Caches block) (restart window)
      (fun done m' x => ∃ head fresh m, R head m x ∧ m.Caches block ∧
        Statistics.Counts recover (.seeded set) (lastBlocks block head.number window) fresh ∧
        m' = m.commit fresh (firstReplayed head.number window) head.number ∧
        done = (successor? head.number).map fun _ => ())
      (fun _ m x => m.Caches block ∧
        ((∃ y, P m y ∧ ∀ h, (g (.header .latest) y).1 ≠ .ok (some h)) ∨
          (∃ h, R h m x) ∧ Obstructed g block there recover)) := by
  unfold restart
  rw [if_neg positive]
  refine .bind (Q := fun m' m x => (P m x ∧ m.Caches block) ∧ m'.validators = set)
    (.current fun m x hm => ⟨hm, validators m x hm.1⟩) ?_
  rintro m' m x ⟨hm, rfl⟩
  refine Inquiry.Ensures.bind ((ensures_latest honest unobservant stays
    (fun h => (lasting h).toUnobservant) out turn).weaken (fun m x hm => hm) (fun h m x hQ => hQ)
      ?_) ?_ m x hm
  · rintro e m x ⟨y, hP, caches, hnone⟩
    exact ⟨caches, Or.inl ⟨y, hP, hnone⟩⟩
  rintro head m x ⟨hR, caches, hhead⟩
  have hfirst := toNat_firstReplayed head.number window
  refine Inquiry.Ensures.bind ((ensures_replay honest (lasting head) (outAfter head)
    (recovers head) hhead (has head) _ _ _ ?_).weaken (fun m x hm => hm) (fun f m x hQ => hQ) ?_)
      ?_ m x ⟨hR, caches⟩
  · omega
  · rintro e m x ⟨⟨hR, caches⟩, hobstructed⟩
    exact ⟨caches, Or.inr ⟨⟨head, hR⟩, hobstructed⟩⟩
  · intro fresh
    refine .change_pure ?_
    rintro m x ⟨⟨hR, caches⟩, hcounts⟩
    rw [hfirst] at hcounts
    exact ⟨head, fresh, m, hR, caches, hcounts, rfl, rfl⟩

end Monitor

end IstanbulMonitor
