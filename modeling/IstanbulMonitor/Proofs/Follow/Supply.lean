import IstanbulMonitor.Proofs.Follow.Endurance
import IstanbulMonitor.Proofs.Monitor.Filing

/-!
# What stands for a block

A block is asked for by its number, and the node may answer with a header of another number; nobody
objects, and the header is passed on as it is. `Supplied` says how a header comes to stand for a
number: it carries it, or the node has answered the request for this very number with it. The replay
and both loops take in nothing else (`ensures_replay`, `gathers_poll`, `gathers_takeHead`). What
becomes of a header goes by the number that it carries, and so it is after anything that was done
with a monitor (`keepsNumbers_afterDeeds`).
-/

set_option autoImplicit false

namespace IstanbulMonitor

/-- An inquiry runs with the log as it does without. -/
theorem Inquiry.runWith_logged {ε α γ : Type} (g : Gateway γ) (i : Inquiry ε α) (m : Monitor)
    (s : γ × List Fetch) :
    ∃ log, i.runWith g.logged m s =
      ((i.runWith g m s.1).1, (i.runWith g m s.1).2.1, (i.runWith g m s.1).2.2, log) :=
  Dialogue.run_logged g (i m) s

namespace Follow

open Inquiry (Upholds)

variable {α γ : Type} {g : Gateway γ} {later : γ → γ → Prop} {m₀ m : Monitor} {before : Intake}
  {fetches more : List Fetch} {n : UInt64} {h : Header} {blocks : List Header}

/-! ## Headers that stand for a number -/

/-- A header stands for the block of a number: it carries the number, or the node has answered the
request for this block with it. -/
inductive Supplied (fetches : List Fetch) (n : UInt64) (h : Header) : Prop where
  | own (number_eq : h.number = n)
  | answered (mem : (.number n, .ok (some h)) ∈ fetches)

/-- Headers that stand for the blocks of consecutive numbers. -/
inductive SuppliedFrom (fetches : List Fetch) : UInt64 → List Header → Prop where
  | nil (n : UInt64) : SuppliedFrom fetches n []
  | cons {n : UInt64} {h : Header} {blocks : List Header} (first : Supplied fetches n h)
      (rest : SuppliedFrom fetches (n + 1) blocks) : SuppliedFrom fetches n (h :: blocks)

theorem Supplied.mono (supplied : Supplied fetches n h) (sub : fetches ⊆ more) :
    Supplied more n h := by
  cases supplied with
  | own number_eq => exact .own number_eq
  | answered mem => exact .answered (sub mem)

theorem SuppliedFrom.mono (supplied : SuppliedFrom fetches n blocks) (sub : fetches ⊆ more) :
    SuppliedFrom more n blocks := by
  induction supplied with
  | nil n => exact .nil n
  | cons first rest ih => exact .cons (first.mono sub) ih

/-! ## Runs leave a cache that is filed -/

theorem upholds_tolerate (w : Warning) (e : MonitorError) :
    Upholds g later Monitor.Filed (tolerate w e) := by
  unfold tolerate
  cases e.terminal? with
  | some t => exact .fail _
  | none => exact .change fun m filed => filed

theorem upholds_process (h : Header) (previous : UInt64) :
    Upholds g later Monitor.Filed (process h previous) := by
  apply Upholds.bind (.attempt (Monitor.upholds_reportHeader h previous))
  intro result
  cases result with
  | ok r => exact .change fun m filed => filed
  | error e => exact upholds_tolerate _ e

theorem upholds_countFirst (h : Header) : Upholds g later Monitor.Filed (countFirst h) := by
  apply Upholds.bind (.attempt (Monitor.upholds_countHeader h))
  intro result
  cases result with
  | ok seals => exact .pure _
  | error e => exact upholds_tolerate _ e

theorem upholds_firstHead : Upholds g later Monitor.Filed firstHead := by
  apply Upholds.bind (.mapError (Monitor.upholds_header .latest))
  exact fun head => .bind (upholds_process head head.timestamp) fun _ => .pure _

/-! ## What an inquiry gathers -/

/-- A run took something in, and every header in its cache is kept under its own number. -/
def Tidy (m₀ : Monitor) (i : Intake) (m : Monitor) (s : γ × List Fetch) : Prop :=
  TookIn m₀ [] i m s.2 ∧ m.Filed

/-- Something that `P` allows was added to the intake. -/
def Gathered (P : SignerRecovery → Intake → Prop) (m₀ : Monitor) (before : Intake) (m : Monitor)
    (s : γ × List Fetch) : Prop :=
  ∃ more, P m₀.recover more ∧ Tidy m₀ (before ++ more) m s

/-- From a tidy monitor an inquiry adds something that `P` allows to the intake, however it ends. -/
def GathersFrom (P : SignerRecovery → Intake → Prop) (g : Gateway γ) (m₀ : Monitor)
    (start before : Intake) (i : Inquiry RunError α) : Prop :=
  Inquiry.Ensures g.logged Eq (fun _ _ => True) (Tidy m₀ start) i
    (fun _ => Gathered P m₀ before) fun _ => Gathered P m₀ before

/-- An inquiry adds something that `P` allows to any intake. -/
def Gathers (P : SignerRecovery → Intake → Prop) (g : Gateway γ) (i : Inquiry RunError α) : Prop :=
  ∀ m₀ before, GathersFrom P g m₀ before before i

variable {P P' : SignerRecovery → Intake → Prop}

/-- A block that the cache holds has the number that was asked for, and only for another one the
node is asked. -/
theorem ensures_supplied (n : UInt64) :
    Inquiry.Ensures g.logged Eq (fun _ _ => True) (Tidy m₀ before) (Monitor.header (.number n))
      (fun h m s => ∃ fetches, Supplied fetches n h ∧ Tidy m₀ (before ++ { fetches }) m s)
      (fun _ m s => ∃ fetches, Tidy m₀ (before ++ { fetches }) m s) := by
  refine .bind (Q := fun found m s => Tidy m₀ before m s ∧ ∀ h, found = some h → h.number = n)
    (.ofOperation ?_ ?_) ?_
  · rintro m s found ⟨tookIn, filed⟩ hfound
    cases hfound
    exact ⟨⟨(tookIn.of_cache _).of_journal _, filed.get n⟩, fun h => filed.number_of_get⟩
  · intro m s e tidy he
    cases he
  · intro found
    cases found with
    | some h =>
      refine .pure ?_
      rintro m s ⟨tidy, hnumber⟩
      refine ⟨[], .own (hnumber h rfl), ?_⟩
      rwa [Intake.append_nothing]
    | none =>
      rintro m s ⟨⟨tookIn, filed⟩, -⟩
      refine ((TookIn.ensures_fetch (.number n) s).and
        (Monitor.upholds_fetch (.number n))).weaken (fun m s h => h) ?_ ?_ m s
          ⟨⟨tookIn, rfl⟩, filed⟩
      · rintro h m s ⟨⟨-, tookIn⟩, filed⟩
        exact ⟨_, .answered (List.mem_singleton_self _), tookIn, filed⟩
      · rintro e m s ⟨⟨answer, -, -, tookIn⟩, filed⟩
        exact ⟨_, tookIn, filed⟩

theorem gathersFrom_tolerate (allowed : P m₀.recover { fetches }) (w : Warning) (e : MonitorError)
    (a : α) :
    GathersFrom P g m₀ (before ++ { fetches }) before (do tolerate w e; return a) := by
  refine .bind (((TookIn.ensures_tolerate w e).and (upholds_tolerate w e)).weaken
    (fun m s h => h) (fun _ m s hQ => hQ) ?_) fun _ => .pure ?_
  · rintro e' m s ⟨⟨t, -, -, -, tookIn⟩, filed⟩
    exact ⟨_, allowed, tookIn, filed⟩
  · rintro m s ⟨⟨-, tookIn⟩, filed⟩
    exact ⟨_, allowed, tookIn, filed⟩

theorem ensures_tidy_process (h : Header) (previous : UInt64) :
    Inquiry.Ensures g.logged Eq (fun _ _ => True) (Tidy m₀ before) (process h previous)
      (fun _ m s => ∃ told, Reported m₀.recover previous [h] told ∧
        Tidy m₀ (before ++ { blocks := [h], told }) m s)
      fun _ _ _ => False := by
  refine ((TookIn.ensures_process h previous).and (upholds_process h previous)).weaken
    (fun m s h => h) ?_ fun e m s hE => hE.1
  rintro _ m s ⟨⟨told, reported, tookIn⟩, filed⟩
  exact ⟨told, reported, tookIn, filed⟩

/-- A block is looked up; if it cannot be had, nothing more is taken in. -/
theorem gathersFrom_lookUp {w : Warning} {a : α} {next : Header → Inquiry RunError α}
    (missed : ∀ fetches, P m₀.recover { fetches })
    (had : ∀ h fetches, Supplied fetches n h →
      GathersFrom P g m₀ (before ++ { fetches }) before (next h)) :
    GathersFrom P g m₀ before before (do
      match ← (Monitor.header (.number n)).attempt with
      | .error e =>
        tolerate w e
        return a
      | .ok h => next h) := by
  refine .bind (Q := fun found m s =>
    match found with
    | .ok h => ∃ fetches, Supplied fetches n h ∧ Tidy m₀ (before ++ { fetches }) m s
    | .error _ => ∃ fetches, Tidy m₀ (before ++ { fetches }) m s)
    (.attempt (ensures_supplied n)) ?_
  intro found
  cases found with
  | error e =>
    rintro m s ⟨fetches, tidy⟩
    exact gathersFrom_tolerate (missed fetches) w e a m s tidy
  | ok h =>
    rintro m s ⟨fetches, supplied, tidy⟩
    exact had h fetches supplied m s tidy

/-- What is gathered after something else. -/
theorem Gathers.after {i : Inquiry RunError α} (gathers : Gathers P g i) {first : Intake}
    (allowed : ∀ more, P m₀.recover more → P' m₀.recover (first ++ more)) :
    GathersFrom P' g m₀ (before ++ first) before i := by
  have both : ∀ m (s : γ × List Fetch), Gathered P m₀ (before ++ first) m s →
      Gathered P' m₀ before m s := by
    rintro m s ⟨more, hmore, tidy⟩
    rw [Intake.append_assoc] at tidy
    exact ⟨first ++ more, allowed more hmore, tidy⟩
  exact (gathers m₀ (before ++ first)).weaken (fun m s h => h) (fun _ => both) fun _ => both

/-- What an inquiry takes in when it is run, as the log of its fetches tells. -/
def AddsIntake (P : Intake → Prop) (g : Gateway γ) (i : Inquiry RunError α) (m : Monitor) (x : γ) :
    Prop :=
  ∃ intake log,
    i.runWith g.logged m (x, []) =
      ((i.runWith g m x).1, (i.runWith g m x).2.1, (i.runWith g m x).2.2, log) ∧
    TookIn m [] intake (i.runWith g m x).2.1 log ∧ P intake

/-- The result of an inquiry does not matter to what it takes in. -/
theorem Gathers.addsIntake {i : Inquiry RunError α} (gathers : Gathers P g i) (filed : m.Filed)
    (x : γ) :
    AddsIntake (P m.recover) g i m x ∧ (i.runWith g m x).2.1.Filed := by
  obtain ⟨log, logged⟩ := i.runWith_logged g m (x, [])
  have hrun := (gathers m {}).runWith (x := (x, [])) ⟨.nothing m [], filed⟩
  rw [logged] at hrun
  have gathered : Gathered P m {} (i.runWith g m x).2.1 ((i.runWith g m x).2.2, log) := by
    cases hresult : (i.runWith g m x).1 with
    | ok a => simpa only [hresult] using hrun
    | error e => simpa only [hresult] using hrun
  obtain ⟨intake, allowed, tookIn, filed'⟩ := gathered
  exact ⟨⟨intake, log, logged, tookIn, allowed⟩, filed'⟩

/-! ## The loops -/

/-- What a run that polls may take in: from the block after the last one on, a header stands for
each number, and it is reported on if its signers are known. -/
def CaughtUp (p : Progress) (recover : SignerRecovery) (i : Intake) : Prop :=
  SuppliedFrom i.fetches (p.last + 1) i.blocks ∧ Reported recover p.previous i.blocks i.told

/-- What a run may take in when an event announces a head: a header that stands for its number. -/
def TookHead (previous : Option UInt64) (event : Json) (recover : SignerRecovery) (i : Intake) :
    Prop :=
  (∀ h ∈ i.blocks, ∃ n, announcedNumber event = .ok n ∧ Supplied i.fetches n h) ∧
    (Next.head previous).Tells recover i.blocks i.told

theorem gathers_catchUp (n : Nat) (p : Progress) : Gathers (CaughtUp p) g (catchUp n p) := by
  induction n generalizing p with
  | zero =>
    refine fun m₀ before => .pure ?_
    intro m s tidy
    refine ⟨{}, ⟨.nil _, .nil _⟩, ?_⟩
    rwa [Intake.append_nothing]
  | succ n ih =>
    intro m₀ before
    refine gathersFrom_lookUp (fun fetches => ⟨.nil _, .nil _⟩) ?_
    intro h fetches supplied
    -- the header stands for the next number, whatever number it carries
    refine .bind_sure (ensures_tidy_process h p.previous) fun _ => ?_
    rintro m s ⟨told, reported, tidy⟩
    rw [Intake.append_assoc, Intake.fetched_append] at tidy
    refine (ih ⟨p.last + 1, h.timestamp⟩).after ?_ m s tidy
    rintro more ⟨rest, reportedRest⟩
    constructor
    · exact .cons (supplied.mono (List.subset_append_left ..))
        (rest.mono (List.subset_append_right ..))
    · exact reported.append (p := p) reportedRest

theorem gathers_poll (p : Progress) : Gathers (CaughtUp p) g (poll p) := by
  intro m₀ before m s tidy
  refine Inquiry.Ensures.bind (Q := fun _ m s => ∃ fetches, Tidy m₀ (before ++ { fetches }) m s)
    (.attempt (.bind (((TookIn.ensures_latest s).and (Monitor.upholds_header .latest)).weaken
      (fun m s h => h) (fun h m s hQ => hQ) ?_) fun h => .pure ?_)) ?_ m s ⟨⟨tidy.1, rfl⟩, tidy.2⟩
  · rintro e m s ⟨⟨answer, -, -, tookIn⟩, filed⟩
    exact ⟨_, tookIn, filed⟩
  · rintro m s ⟨⟨-, tookIn⟩, filed⟩
    exact ⟨_, tookIn, filed⟩
  · intro found
    cases found with
    | error e =>
      rintro m s ⟨fetches, tidy⟩
      exact gathersFrom_tolerate ⟨.nil _, .nil _⟩ _ e (some p) m s tidy
    | ok number =>
      rintro m s ⟨fetches, tidy⟩
      dsimp only
      cases ahead? p.last number with
      | none => exact ⟨_, ⟨.nil _, .nil _⟩, tidy⟩
      | some n =>
        have caughtUp : GathersFrom (CaughtUp p) g m₀ (before ++ { fetches }) before
            (do return some (← catchUp n p)) := by
          refine .bind ((gathers_catchUp n p).after ?_) fun _ => .pure fun m s gathered => gathered
          rintro more ⟨supplied, reported⟩
          exact ⟨supplied.mono (List.subset_append_right ..), reported⟩
        exact caughtUp m s tidy

theorem gathers_takeHead (previous : Option UInt64) (event : Json) :
    Gathers (TookHead previous event) g (takeHead previous event) := by
  intro m₀ before
  have nothing : ∀ fetches, TookHead previous event m₀.recover { fetches } :=
    fun fetches => ⟨fun h mem => absurd mem List.not_mem_nil, Next.tells_nil _ _⟩
  unfold takeHead
  cases reads : announcedNumber event with
  | error reason =>
    refine .bind (Q := fun _ => Tidy m₀ before) (.change ?_) fun _ => .pure ?_
    · rintro m s ⟨tookIn, filed⟩
      exact ⟨tookIn.of_journal _, filed⟩
    · intro m s tidy
      refine ⟨{}, nothing [], ?_⟩
      rwa [Intake.append_nothing]
  | ok number =>
    refine gathersFrom_lookUp nothing ?_
    intro h fetches supplied
    have stands : ∀ h' ∈ [h], ∃ n, announcedNumber event = .ok n ∧ Supplied fetches n h' := by
      intro h' mem
      cases List.mem_singleton.mp mem
      exact ⟨number, reads, supplied⟩
    cases previous with
    | none =>
      refine .bind_sure (((TookIn.ensures_countFirst h).and (upholds_countFirst h)).weaken
        (fun m s h => h) (fun _ m s hQ => hQ) fun e m s hE => hE.1) fun _ => .pure ?_
      rintro m s ⟨tookIn, filed⟩
      rw [Intake.append_assoc, Intake.fetched_append] at tookIn
      exact ⟨⟨fetches, [h], []⟩, ⟨stands, rfl⟩, tookIn, filed⟩
    | some last =>
      refine .bind_sure (ensures_tidy_process h last) fun _ => .pure ?_
      rintro m s ⟨told, reported, tidy⟩
      rw [Intake.append_assoc, Intake.fetched_append] at tidy
      exact ⟨⟨fetches, [h], told⟩, ⟨stands, reported⟩, tidy⟩

/-! ## The replay -/

theorem ensures_tidy_signers (h : Header) :
    Inquiry.Ensures g.logged Eq (fun _ _ => True) (Tidy m₀ before) (Monitor.signers h)
      (fun seals m s => Seals.ofHeader m₀.recover h = .ok seals ∧ Tidy m₀ before m s)
      (fun _ _ _ => True) := by
  refine .ofOperation ?_ fun m s e tidy he => trivial
  rintro m s seals ⟨tookIn, filed⟩ named
  have hseals := Monitor.ofHeader_of_extract named
  rw [tookIn.recover_eq] at hseals
  obtain ⟨journal, hextract⟩ := Monitor.exists_journal_extract m h
  rw [hextract]
  exact ⟨hseals, tookIn.of_journal journal, filed⟩

/-- A replay counts, for each number, a header that stands for it. -/
theorem ensures_replay (head : Header) (n : Nat) (number : UInt64) (fresh : Statistics) :
    Inquiry.Ensures g.logged Eq (fun _ _ => True) (Tidy m₀ before)
      (Monitor.replay head n number fresh)
      (fun fresh' m s => ∃ fetches blocks, SuppliedFrom fetches number blocks ∧
        blocks.length = n ∧ Statistics.Counts m₀.recover fresh blocks fresh' ∧
        Tidy m₀ (before ++ { fetches }) m s)
      (fun _ _ _ => True) := by
  induction n generalizing number fresh before with
  | zero =>
    refine .pure ?_
    intro m s tidy
    refine ⟨[], [], .nil number, rfl, .nil fresh, ?_⟩
    rwa [Intake.append_nothing]
  | succ n ih =>
    have counted : ∀ (h : Header) (fetches : List Fetch), Supplied fetches number h →
        Inquiry.Ensures g.logged Eq (fun _ _ => True) (Tidy m₀ (before ++ { fetches }))
          (do
            let seals ← Monitor.signers h
            Monitor.replay head n (number + 1)
              (fresh.apply h.number seals.proposer seals.endorsers))
          (fun fresh' m s => ∃ fetches blocks, SuppliedFrom fetches number blocks ∧
            blocks.length = n + 1 ∧ Statistics.Counts m₀.recover fresh blocks fresh' ∧
            Tidy m₀ (before ++ { fetches }) m s)
          (fun _ _ _ => True) := by
      intro h fetches supplied
      refine .bind (ensures_tidy_signers h) ?_
      rintro seals m s ⟨hseals, tidy⟩
      refine (ih (number + 1) _).weaken (fun m s h => h) ?_ (fun _ _ _ _ => trivial) m s tidy
      rintro fresh' m s ⟨rest, blocks, suppliedRest, length, counts, tidy⟩
      rw [Intake.append_assoc] at tidy
      exact ⟨fetches ++ rest, h :: blocks,
        .cons (supplied.mono (List.subset_append_left ..))
          (suppliedRest.mono (List.subset_append_right ..)),
        congrArg (· + 1) length, .cons hseals counts, tidy⟩
    rw [Monitor.replay]
    by_cases hhead : number = head.number
    · -- the head is at hand, and this is its number
      rw [if_pos hhead]
      intro m s tidy
      refine counted head [] (.own hhead.symm) m s ?_
      rwa [Intake.append_nothing]
    · rw [if_neg hhead]
      refine .bind ((ensures_supplied number).weaken (fun m s h => h) (fun h m s hQ => hQ)
        fun _ _ _ _ => trivial) ?_
      rintro h m s ⟨fetches, supplied, tidy⟩
      exact counted h fetches supplied m s tidy

/-- The last blocks are counted anew: the node tells the head, and up to its number a header stands
for each number and is counted. -/
def Recounts (m : Monitor) (window : UInt64) (log : List Fetch) (after : Statistics) : Prop :=
  ∃ head blocks fresh, (.latest, .ok (some head)) ∈ log ∧
    SuppliedFrom log (Monitor.firstReplayed head.number window) blocks ∧
    blocks.length = head.number.toNat + 1 - (Monitor.firstReplayed head.number window).toNat ∧
    Statistics.Counts m.recover (.seeded m.validators) blocks fresh ∧
    after = { fresh with lastProcessed := head.number }

theorem recounts_restart (filed : m.Filed) {window : UInt64} (positive : window ≠ 0) (x : γ) :
    let after := (Monitor.restart window).runWith g m x
    ∃ log, (Monitor.restart window).runWith g.logged m (x, []) =
        (after.1, after.2.1, after.2.2, log) ∧
      ∀ done, after.1 = .ok done → Recounts m window log after.2.1.statistics := by
  have recounts : Inquiry.Ensures g.logged Eq (fun _ _ => True)
      (fun m' s => m' = m ∧ s = (x, [])) (Monitor.restart window)
      (fun _ m' s => Recounts m window s.2 m'.statistics) (fun _ _ _ => True) := by
    unfold Monitor.restart
    rw [if_neg positive]
    refine .bind (Q := fun m' m'' s => m' = m ∧ m'' = m ∧ s = (x, [])) (.current ?_) ?_
    · rintro _ s ⟨rfl, hs⟩
      exact ⟨rfl, rfl, hs⟩
    rintro _ _ _ ⟨rfl, rfl, rfl⟩
    refine Inquiry.Ensures.bind (((TookIn.ensures_latest (x, [])).and
      (Monitor.upholds_header .latest)).weaken (fun m s h => h) (fun h m s hQ => hQ)
        fun _ _ _ _ => trivial) ?_ _ _ ⟨⟨.nothing _ [], rfl⟩, filed⟩
    rintro head m' s ⟨⟨-, tookIn⟩, filed⟩
    refine Inquiry.Ensures.bind (ensures_replay head _ _ _) ?_ m' s ⟨tookIn, filed⟩
    intro fresh
    refine .change_pure ?_
    rintro m'' s ⟨fetches, blocks, supplied, length, counts, tookIn, -⟩
    rw [Monitor.statistics_commit]
    -- the head was fetched first, and then the blocks that the cache did not hold
    have hlog : s.2 = (.latest, .ok (some head)) :: fetches := tookIn.log_eq
    rw [hlog]
    exact ⟨head, blocks, fresh, List.mem_cons_self, supplied.mono (List.subset_cons_self _ _),
      length, counts, rfl⟩
  obtain ⟨log, logged⟩ := (Monitor.restart window).runWith_logged g m (x, [])
  refine ⟨log, logged, ?_⟩
  intro done hdone
  have hrun := recounts.runWith ⟨rfl, rfl⟩
  rw [logged, hdone] at hrun
  exact hrun

/-! ## Everything that is done with a monitor -/

/-- What is done with a monitor: a request of a user, or a step of a run that follows the chain. -/
inductive Deed where
  | request (r : MonitorRequest)
  | firstHead
  | poll (p : Progress)
  | takeHead (previous : Option UInt64) (event : Json)

/-- The monitor and the node after a deed, whether it succeeds or fails. -/
def Deed.run (g : Gateway γ) (s : Monitor × γ) : Deed → Monitor × γ
  | .request r => (r.inquiry.runWith g s.1 s.2).2
  | .firstHead => (Follow.firstHead.runWith g s.1 s.2).2
  | .poll p => ((Follow.poll p).runWith g s.1 s.2).2
  | .takeHead previous event => ((Follow.takeHead previous event).runWith g s.1 s.2).2

/-- The monitor and the node after some deeds. -/
def afterDeeds (g : Gateway γ) (s : Monitor × γ) (deeds : List Deed) : Monitor × γ :=
  deeds.foldl (Deed.run g) s

theorem filed_run (g : Gateway γ) {s : Monitor × γ} (filed : s.1.Filed) (d : Deed) :
    (d.run g s).1.Filed := by
  cases d with
  | request r => exact (Monitor.upholds_request r).runWith filed s.2
  | firstHead => exact upholds_firstHead.runWith filed s.2
  | poll p => exact ((gathers_poll p).addsIntake filed s.2).2
  | takeHead previous event => exact ((gathers_takeHead previous event).addsIntake filed s.2).2

theorem filed_afterDeeds (g : Gateway γ) {s : Monitor × γ} (filed : s.1.Filed)
    (deeds : List Deed) : (afterDeeds g s deeds).1.Filed := by
  induction deeds generalizing s with
  | nil => exact filed
  | cons d deeds ih => exact ih (filed_run g filed d)

/-- What holds of a monitor and its node wherever headers are asked for, cached, counted or
reported on: each of them goes by the number that it carries. -/
structure KeepsNumbers (g : Gateway γ) (m : Monitor) (x : γ) : Prop where
  /-- A header is cached under its own number. -/
  cached : m.cache.Filed
  /-- A look-up ends with a header of the number that was asked for, unless the cache holds none
  and the node has answered this request with another one. -/
  found : ∀ n h, ((Monitor.header (.number n)).runWith g m x).1 = .ok h →
    h.number = n ∨ m.cache.contains n = false ∧ (g (.header (.number n)) x).1 = .ok (some h)
  /-- A block that the cache holds is found there. The node is not asked. -/
  held : ∀ n, m.cache.contains n = true → ∃ h : Header, h.number = n ∧
    (Monitor.header (.number n)).runWith g m x = (.ok h, (m.lookUp n).2, x)
  /-- For any other block the answer of the node is passed on as it is, and a header in it is kept
  under the number that it carries. -/
  asked : ∀ n, m.cache.contains n = false →
    let answered := (m.lookUp n).2.fetched (.number n) (g (.header (.number n)) x).1
    (Monitor.header (.number n)).runWith g m x =
      (answered.1, answered.2, (g (.header (.number n)) x).2)
  /-- A header is counted as the block of the number that it carries. -/
  counted : ∀ h, (m.count h).2.statistics = m.statistics.countSigned m.recover h
  /-- A report names the number that the header carries. -/
  reported : ∀ h previous r, (m.report h previous).1 = .ok r → Describes m.recover previous h r
  /-- A replay counts, for each number, a header that stands for it. -/
  replayed : ∀ window, window ≠ 0 →
    let after := (Monitor.restart window).runWith g m x
    ∃ log, (Monitor.restart window).runWith g.logged m (x, []) =
        (after.1, after.2.1, after.2.2, log) ∧
      ∀ done, after.1 = .ok done → Recounts m window log after.2.1.statistics
  /-- A run that polls takes in, for each number, a header that stands for it. -/
  polled : ∀ p, AddsIntake (CaughtUp p m.recover) g (poll p) m x
  /-- A run that is told of a head takes in a header that stands for its number. -/
  announced : ∀ previous event,
    AddsIntake (TookHead previous event m.recover) g (takeHead previous event) m x

theorem keepsNumbers_of_filed (g : Gateway γ) (filed : m.Filed) (x : γ) : KeepsNumbers g m x where
  cached := filed
  found n h hfound := by
    cases held : m.cache.contains n with
    | true =>
      obtain ⟨h', hnumber, hrun⟩ := Monitor.header_held g filed held x
      rw [hrun] at hfound
      cases hfound
      exact .inl hnumber
    | false =>
      rw [Monitor.header_asked g held x] at hfound
      refine .inr ⟨rfl, ?_⟩
      -- only an answer with a header ends well, and this is the header
      cases answer : (g (.header (.number n)) x).1 with
      | error e =>
        rw [answer] at hfound
        cases hfound
      | ok told =>
        rw [answer] at hfound
        cases told <;> cases hfound
        rfl
  held n held := Monitor.header_held g filed held x
  asked n absent := Monitor.header_asked g absent x
  counted h := ((TookIn.nothing m []).count h).1.statistics_eq
  reported h previous r hr := by
    have reported := ((TookIn.nothing m []).report h previous).2
    rwa [hr] at reported
  replayed window positive := recounts_restart filed positive x
  polled p := ((gathers_poll p).addsIntake filed x).1
  announced previous event := ((gathers_takeHead previous event).addsIntake filed x).1

/-- **A header goes by the number that it carries.** Let the node answer what it likes, and let any
requests and steps of runs have been made. A block that is asked for by its number is one of this
number, except if the cache holds none and the node answers the request with another header; this
is passed on as it is and is no error. Under no number but its own a header is cached, counted or
reported. The replay and both loops take nothing for the block of a number but a header that carries
it or the answer of the node to the request for it. -/
theorem keepsNumbers_afterDeeds (g : Gateway γ) (config : MonitorConfig) (registry : Registry)
    (recover : SignerRecovery) (set : ValidatorSet) (x : γ) (deeds : List Deed) :
    let s := afterDeeds g ((Monitor.make config registry recover).watch set, x) deeds
    KeepsNumbers g s.1 s.2 :=
  keepsNumbers_of_filed g
    (filed_afterDeeds g (s := (_, x)) (Monitor.filed_watch config registry recover set) deeds) _

/-- A node that answers every request for a block with block seven. -/
def sevenOnly : Gateway Unit
  | .header _ => fun x => (.ok (some (Monitor.sealedBlock 7)), x)
  | .validators _ => fun x => (.ok [], x)
  | .nodeInfo => fun x => (.ok none, x)
  | .peers => fun x => (.ok none, x)

/-- Block seven is passed on for block five. In a poll it stands for blocks five and six as well as
for itself: it is reported on three times and counted once, always as block seven. -/
theorem keepsNumbers_sevenOnly :
    let m := (Monitor.make {} ⟨[]⟩ Monitor.spelledOut).watch (.ofMembers [.zero])
    let polled := ((poll ⟨4, 0⟩).runWith sevenOnly m ()).2.1
    ((Monitor.header (.number 5)).runWith sevenOnly m ()).1 = .ok (Monitor.sealedBlock 7) ∧
      polled.published.map (·.number) = [7, 7, 7] ∧
      polled.statistics.counters.proposals.count (.ofNat 20 1) = 1 ∧
      ¬ ∀ (g : Gateway Unit) (deeds : List Deed) (n : UInt64) (h : Header),
        let s := afterDeeds g (m, ()) deeds
        ((Monitor.header (.number n)).runWith g s.1 s.2).1 = .ok h → h.number = n := by
  intro m polled
  have passedOn :
      ((Monitor.header (.number 5)).runWith sevenOnly m ()).1 = .ok (Monitor.sealedBlock 7) := rfl
  refine ⟨passedOn, by decide +kernel, by decide +kernel, fun claim => ?_⟩
  have hnumber := claim sevenOnly [] 5 (Monitor.sealedBlock 7) passedOn
  exact absurd hnumber (by decide)

end Follow

end IstanbulMonitor
