import IstanbulMonitor.Proofs.Follow.Notes
import IstanbulMonitor.Proofs.Monitor.Calls

/-!
# Ticks

A tick takes in the next blocks up to the head that it hears of, or those before the first one that
it asks for in vain (`Takes`). `Ticks` are such ticks, each from where the one before it stopped.
Their blocks have consecutive numbers (`Ticks.consecutive`), a tick that misses none comes to its
head (`Ticks.through`), and a block that was missed is the first one that is asked for later
(`Ticks.retried`).
-/

set_option autoImplicit false

namespace IstanbulMonitor

/-- Whether a node may fail to serve a block. -/
def Gateway.Refuses {γ : Type} (g : Gateway γ) (block : BlockNumber) : Prop :=
  ∃ x, ∀ h, (g (.header block) x).1 ≠ .ok (some h)

namespace Follow

/-! ## Blocks one after another -/

/-- The progress once some blocks are taken in. -/
def Progress.after (p : Progress) (blocks : List Header) : Progress :=
  blocks.foldl (fun _ h => ⟨h.number, h.timestamp⟩) p

/-- The blocks after the last one, in their order. -/
def Consecutive (p : Progress) (blocks : List Header) : Prop :=
  blocks.map (·.number.toNat) = List.range' (p.last.toNat + 1) blocks.length

variable {γ : Type} {g : Gateway γ} {p : Progress} {blocks more : List Header} {t : Tick}
  {ticks : List Tick} {n : Nat}

theorem Progress.after_append (p : Progress) (blocks more : List Header) :
    p.after (blocks ++ more) = (p.after blocks).after more := List.foldl_append

theorem Consecutive.last_after (h : Consecutive p blocks) :
    (p.after blocks).last.toNat = p.last.toNat + blocks.length := by
  induction blocks generalizing p with
  | nil => rfl
  | cons b blocks ih =>
    simp only [Consecutive, List.map_cons, List.length_cons, List.range'_succ,
      List.cons.injEq] at h
    -- the first block has the next number, so the others come right after it
    have hrest : Consecutive ⟨b.number, b.timestamp⟩ blocks := by
      simp only [Consecutive, h.1]
      exact h.2
    have hlast := ih hrest
    simp only [h.1] at hlast
    rw [List.length_cons]
    exact hlast.trans (by omega)

theorem Consecutive.append (h : Consecutive p blocks) (next : Consecutive (p.after blocks) more) :
    Consecutive p (blocks ++ more) := by
  unfold Consecutive at next ⊢
  rw [h.last_after] at next
  rw [List.map_append, h, next, List.length_append, Nat.add_right_comm,
    ← List.range'_append_1]

/-! ## Ticks -/

/-- A tick that is to take in `n` blocks. It takes in all of them, or those before the first one
that it asks for in vain. -/
structure Takes (g : Gateway γ) (n : Nat) (p : Progress) (t : Tick) : Prop where
  consecutive : Consecutive p t.handed
  served : ∀ h ∈ t.handed, g.Serves h
  all : t.missed = none → t.handed.length = n
  missed : ∀ k ∈ t.missed, k.toNat = p.last.toNat + t.handed.length + 1 ∧ t.handed.length < n ∧
    g.Refuses (.number k)

/-- The number of blocks from the last one up to the head that a tick hears of. -/
def Tick.reach (t : Tick) (p : Progress) : Nat :=
  t.head.elim 0 fun head => head.toNat - p.last.toNat

/-- Ticks one after another. -/
inductive Ticks (g : Gateway γ) : Progress → List Tick → Prop where
  | nil (p : Progress) : Ticks g p []
  | cons {p : Progress} {t : Tick} {ticks : List Tick} (takes : Takes g (t.reach p) p t)
      (rest : Ticks g (p.after t.handed) ticks) : Ticks g p (t :: ticks)

theorem takes_zero (head : Option UInt64) (p : Progress) : Takes g 0 p { head } where
  consecutive := rfl
  served h mem := absurd mem List.not_mem_nil
  all _ := rfl
  missed k hk := by cases hk

/-- The next block is asked for in vain. -/
theorem takes_missed {head : Option UInt64} {k : UInt64} (hk : k.toNat = p.last.toNat + 1)
    (refused : g.Refuses (.number k)) : Takes g (n + 1) p { head, missed := k } where
  consecutive := rfl
  served h mem := absurd mem List.not_mem_nil
  all hnone := by cases hnone
  missed k' hk' := by
    cases hk'
    exact ⟨hk, Nat.succ_pos n, refused⟩

/-- The next block is taken in, and then the others. -/
theorem Takes.cons {h : Header} (hh : h.number.toNat = p.last.toNat + 1) (served : g.Serves h)
    (takes : Takes g n ⟨h.number, h.timestamp⟩ t) :
    Takes g (n + 1) p { t with handed := h :: t.handed } where
  consecutive := by
    have hrest := takes.consecutive
    simp only [Consecutive, hh] at hrest
    simp only [Consecutive, List.map_cons, hh, hrest, List.length_cons, List.range'_succ]
  served h' mem := by
    rcases List.mem_cons.mp mem with rfl | mem
    · exact served
    · exact takes.served h' mem
  all hnone := by
    rw [List.length_cons, takes.all hnone]
  missed k hk := by
    obtain ⟨hnumber, hlt, refused⟩ := takes.missed k hk
    simp only [hh] at hnumber
    rw [List.length_cons]
    exact ⟨by omega, Nat.succ_lt_succ hlt, refused⟩

theorem Takes.length_le (takes : Takes g n p t) : t.handed.length ≤ n := by
  cases hmissed : t.missed with
  | none => exact Nat.le_of_eq (takes.all hmissed)
  | some k => exact Nat.le_of_lt (takes.missed k hmissed).2.1

/-- A tick that is to take in nothing asks for nothing. -/
theorem Takes.idle (takes : Takes g 0 p t) : t.handed = [] ∧ t.asked = [] := by
  have hhanded : t.handed = [] := List.eq_nil_of_length_eq_zero (Nat.le_zero.mp takes.length_le)
  have hmissed : t.missed = none := by
    apply Option.eq_none_iff_forall_not_mem.mpr
    intro k hk
    exact Nat.not_lt_zero _ (takes.missed k hk).2.1
  simp [Tick.asked, hhanded, hmissed]

/-- A tick that is to take in something asks for the next block first. -/
theorem Takes.head?_asked (takes : Takes g (n + 1) p t) {k : UInt64}
    (hk : k.toNat = p.last.toNat + 1) : t.asked.head? = some k := by
  cases hhanded : t.handed with
  | nil =>
    cases hmissed : t.missed with
    | none =>
      have hlength := takes.all hmissed
      rw [hhanded] at hlength
      cases hlength
    | some k' =>
      have hnumber := (takes.missed k' hmissed).1
      rw [hhanded, List.length_nil, Nat.add_zero, ← hk] at hnumber
      simp [Tick.asked, hhanded, hmissed, UInt64.toNat_inj.mp hnumber]
  | cons h rest =>
    have hnumber := takes.consecutive
    simp only [Consecutive, hhanded, List.map_cons, List.length_cons, List.range'_succ,
      List.cons.injEq, ← hk] at hnumber
    simp [Tick.asked, hhanded, UInt64.toNat_inj.mp hnumber.1]

/-- Nothing that a tick asks for is above the head that it hears of. -/
theorem Takes.within (takes : Takes g (t.reach p) p t) {k : UInt64} (hk : k ∈ t.asked) :
    ∃ head ∈ t.head, k ≤ head := by
  -- above the last block, so there is a head, and no further than the tick reaches
  have hreach : k.toNat ≤ p.last.toNat + t.reach p ∧ p.last.toNat < k.toNat := by
    rcases List.mem_append.mp hk with hk | hk
    · obtain ⟨h, mem, rfl⟩ := List.mem_map.mp hk
      have hmem : h.number.toNat ∈ t.handed.map (·.number.toNat) := List.mem_map.mpr ⟨h, mem, rfl⟩
      rw [takes.consecutive, List.mem_range'_1] at hmem
      have hle := takes.length_le
      omega
    · have hmissed := takes.missed k (Option.mem_toList.mp hk)
      omega
  cases hhead : t.head with
  | none =>
    rw [Tick.reach, hhead, Option.elim_none] at hreach
    omega
  | some head =>
    rw [Tick.reach, hhead, Option.elim_some] at hreach
    refine ⟨head, rfl, ?_⟩
    rw [UInt64.le_iff_toNat_le]
    omega

namespace Ticks

variable {before after between : List Tick} {t' : Tick}

theorem split (h : Ticks g p (before ++ after)) :
    Ticks g p before ∧ Ticks g (p.after (before.flatMap (·.handed))) after := by
  induction before generalizing p with
  | nil => exact ⟨.nil p, h⟩
  | cons t before ih =>
    cases h with
    | cons takes rest =>
      obtain ⟨hbefore, hafter⟩ := ih rest
      rw [List.flatMap_cons, Progress.after_append]
      exact ⟨.cons takes hbefore, hafter⟩

theorem consecutive (h : Ticks g p ticks) : Consecutive p (ticks.flatMap (·.handed)) := by
  induction h with
  | nil p => rfl
  | cons takes rest ih =>
    rw [List.flatMap_cons]
    exact takes.consecutive.append ih

theorem takes_of_mem (h : Ticks g p ticks) (mem : t ∈ ticks) : ∃ q, Takes g (t.reach q) q t := by
  obtain ⟨before, after, rfl⟩ := List.append_of_mem mem
  cases h.split.2 with
  | cons takes rest => exact ⟨_, takes⟩

/-- A tick that misses no block takes in the blocks up to the head. -/
theorem through (h : Ticks g p (before ++ t :: after)) (hmissed : t.missed = none) {head : UInt64}
    (hhead : head ∈ t.head) {n : UInt64} (hlt : p.last < n) (hle : n ≤ head) :
    n ∈ ((before ++ [t]).flatMap (·.handed)).map (·.number) := by
  obtain ⟨hbefore, hrest⟩ := h.split
  have hlast := hbefore.consecutive.last_after
  cases hrest with
  | cons takes rest =>
    have hlength := takes.all hmissed
    rw [Tick.reach, Option.mem_def.mp hhead, Option.elim_some, hlast] at hlength
    -- the blocks so far are numbered without a gap, and there are enough of them
    have hconsecutive := hbefore.consecutive.append takes.consecutive
    rw [UInt64.lt_iff_toNat_lt] at hlt
    rw [UInt64.le_iff_toNat_le] at hle
    have hmem : n.toNat ∈
        (before.flatMap (·.handed) ++ t.handed).map (·.number.toNat) := by
      rw [hconsecutive, List.mem_range'_1, List.length_append]
      omega
    obtain ⟨b, mem, hb⟩ := List.mem_map.mp hmem
    rw [List.flatMap_append, List.flatMap_singleton]
    exact List.mem_map.mpr ⟨b, mem, UInt64.toNat_inj.mp hb⟩

/-- Ticks that hear of no head above the last block ask for nothing. -/
theorem idle (h : Ticks g p (between ++ ticks))
    (low : ∀ u ∈ between, ∀ head ∈ u.head, head.toNat ≤ p.last.toNat) :
    (∀ u ∈ between, u.asked = []) ∧ Ticks g p ticks := by
  induction between with
  | nil => exact ⟨fun u mem => absurd mem List.not_mem_nil, h⟩
  | cons u between ih =>
    cases h with
    | cons takes rest =>
      have hreach : u.reach p = 0 := by
        cases hhead : u.head with
        | none => rw [Tick.reach, hhead, Option.elim_none]
        | some head =>
          have hle := low u List.mem_cons_self head hhead
          rw [Tick.reach, hhead, Option.elim_some]
          omega
      rw [hreach] at takes
      obtain ⟨hhanded, hasked⟩ := takes.idle
      rw [hhanded] at rest
      obtain ⟨hbetween, hticks⟩ := ih rest fun u mem => low u (List.mem_cons_of_mem _ mem)
      refine ⟨?_, hticks⟩
      intro u' mem
      rcases List.mem_cons.mp mem with rfl | mem
      · exact hasked
      · exact hbetween u' mem

/-- A block that was asked for in vain is asked for first at the next tick whose head reaches it. -/
theorem retried (h : Ticks g p (t :: (between ++ t' :: after))) {k head : UInt64}
    (hk : k ∈ t.missed) (low : ∀ u ∈ between, ∀ head ∈ u.head, head < k)
    (hhead : head ∈ t'.head) (hle : k ≤ head) :
    (∀ u ∈ between, u.asked = []) ∧ t'.asked.head? = some k := by
  cases h with
  | cons takes rest =>
    have hnumber := (takes.missed k hk).1
    rw [← takes.consecutive.last_after] at hnumber
    -- the missed block is the one after the last, and no head in between reaches it
    have hlow : ∀ u ∈ between, ∀ head ∈ u.head,
        head.toNat ≤ (p.after t.handed).last.toNat := by
      intro u mem head hu
      have hlt := UInt64.lt_iff_toNat_lt.mp (low u mem head hu)
      omega
    obtain ⟨hidle, hrest⟩ := rest.idle hlow
    refine ⟨hidle, ?_⟩
    cases hrest with
    | cons takes' rest' =>
      have hreach : t'.reach (p.after t.handed) =
          head.toNat - (p.after t.handed).last.toNat - 1 + 1 := by
        rw [UInt64.le_iff_toNat_le] at hle
        rw [Tick.reach, Option.mem_def.mp hhead, Option.elim_some]
        omega
      rw [hreach] at takes'
      exact takes'.head?_asked hnumber

end Ticks

end Follow

end IstanbulMonitor
