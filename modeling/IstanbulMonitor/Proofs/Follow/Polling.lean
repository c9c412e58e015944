import IstanbulMonitor.Proofs.Follow.Ticks
import IstanbulMonitor.Proofs.Monitor.Chain
import IstanbulMonitor.Proofs.Monitor.Participation

/-!
# Polling walks every block

A node that is polled may fail to report its head, may report an older one, and may keep back any
block at any time. As long as no failure ends the session, the run hands the blocks from the first
head on to be processed, each once and in their order (`walks_polled`). A tick asks for the next
blocks up to the head that it hears of and stops at the first one that it does not get (`Takes`), so
that block comes first at the next tick that asks for any. What is published is a report on each
block whose signers are known, with the time since the block before (`Reported`).
-/

set_option autoImplicit false

namespace IstanbulMonitor

namespace Gateway

variable {γ : Type}

/-- A node that can be polled for ever: headers stand under their numbers, no head has the last
number of 64 bits, and no failure ends the session. -/
structure Pollable (g : Gateway γ) : Prop where
  numbered : g.Numbered
  bounded : ∀ x h, (g (.header .latest) x).1 = .ok (some h) → h.number.toNat + 1 < UInt64.size
  mild : ∀ block x e, (g (.header block) x).1 = .error e → e.terminal? = none

/-- The number of the head that the node reports, if it reports one. -/
def head? (g : Gateway γ) (x : γ) : Option UInt64 :=
  match (g (.header .latest) x).1 with
  | .ok (some h) => some h.number
  | _ => none

theorem head?_of_served {g : Gateway γ} {x : γ} {h : Header}
    (served : (g (.header .latest) x).1 = .ok (some h)) : g.head? x = some h.number := by
  simp only [head?, served]

theorem head?_of_refused {g : Gateway γ} {x : γ}
    (refused : ∀ h, (g (.header .latest) x).1 ≠ .ok (some h)) : g.head? x = none := by
  unfold head?
  split
  · next h served => exact absurd served (refused h)
  · rfl

end Gateway

/-- The cache holds headers of the node under their own numbers. -/
def Monitor.Keyed {γ : Type} (m : Monitor) (g : Gateway γ) : Prop :=
  ∀ entry ∈ m.cache.entries, entry.2.number = entry.1 ∧ g.Serves entry.2

/-- However a monitor was used before, its cache is as it ought to be. -/
theorem Monitor.keyed_afterCalls {γ : Type} {g : Gateway γ} (numbered : g.Numbered)
    (config : MonitorConfig) (registry : Registry) (recover : SignerRecovery) (set : ValidatorSet)
    (calls : List MonitorCall) (x : γ) :
    (((make config registry recover).watch set).afterCalls g calls x).1.Keyed g := by
  -- any header may be handed in
  have fresh : Accounted g recover set (fun _ => True) ((make config registry recover).watch set) x :=
    accounted_watch config registry x
  obtain ⟨s, blocks, rests, -⟩ := accounted_afterCalls numbered (fun h served => trivial) calls
    (fun call hcall h hh => trivial) fresh
  exact rests.cached

namespace Follow

variable {γ : Type} {g : Gateway γ} {recover : SignerRecovery}

/-! ## Reports -/

/-- A report on a block. The time that it tells is the one from the timestamp before to that of the
block, or zero if that is negative. -/
structure Describes (recover : SignerRecovery) (previous : UInt64) (h : Header) (r : BlockReport) :
    Prop where
  signed : ∃ seals, Seals.ofHeader recover h = .ok seals ∧ r.proposer = seals.proposer ∧
    r.endorsers = seals.endorsers
  number_eq : r.number = h.number
  timestamp_eq : r.timestamp = h.timestamp
  elapsed_eq : r.elapsed.toNat = h.timestamp.toNat - previous.toNat

/-- The reports on some blocks: one for each block whose signers are known, in the order of the
blocks. -/
inductive Reported (recover : SignerRecovery) :
    UInt64 → List Header → List BlockReport → Prop where
  | nil (previous : UInt64) : Reported recover previous [] []
  | shown {previous : UInt64} {h : Header} {r : BlockReport} {blocks : List Header}
      {reports : List BlockReport} (describes : Describes recover previous h r)
      (rest : Reported recover h.timestamp blocks reports) :
      Reported recover previous (h :: blocks) (r :: reports)
  | silent {previous : UInt64} {h : Header} {blocks : List Header} {reports : List BlockReport}
      (unsigned : ∀ seals, Seals.ofHeader recover h ≠ .ok seals)
      (rest : Reported recover h.timestamp blocks reports) :
      Reported recover previous (h :: blocks) reports

variable {p : Progress} {blocks more : List Header} {reports told : List BlockReport}
  {t : Tick} {ticks : List Tick} {n : Nat}

theorem Reported.append (first : Reported recover p.previous blocks reports)
    (rest : Reported recover (p.after blocks).previous more told) :
    Reported recover p.previous (blocks ++ more) (reports ++ told) := by
  induction blocks generalizing p reports with
  | nil =>
    cases first
    exact rest
  | cons b blocks ih =>
    cases first with
    | shown describes first => exact .shown describes (ih (p := ⟨b.number, b.timestamp⟩) first rest)
    | silent unsigned first => exact .silent unsigned (ih (p := ⟨b.number, b.timestamp⟩) first rest)

/-! ## The dialogues -/

/-- A monitor that a run polls with: what it has published, and a cache in which headers are found
under their numbers. -/
structure Polled (g : Gateway γ) (recover : SignerRecovery) (reports : List BlockReport)
    (m : Monitor) : Prop where
  recover_eq : m.recover = recover
  published_eq : m.published = reports
  keyed : m.Keyed g

namespace Polled

variable {m : Monitor} {h : Header}

theorem rests (polled : Polled g recover reports m) :
    m.Rests g m.recover m.validators m.statistics :=
  ⟨rfl, rfl, rfl, polled.keyed⟩

theorem of_journal (polled : Polled g recover reports m) (journal : Journal) :
    Polled g recover reports { m with journal } :=
  ⟨polled.recover_eq, polled.published_eq, polled.keyed⟩

theorem put (polled : Polled g recover reports m) (served : g.Serves h) :
    Polled g recover reports { m with cache := m.cache.put h.number h } :=
  ⟨polled.recover_eq, polled.published_eq, (polled.rests.put served).cached⟩

theorem lookUp (polled : Polled g recover reports m) (n : UInt64) :
    Polled g recover reports (m.lookUp n).2 ∧
      ∀ h, (m.lookUp n).1 = some h → h.number = n ∧ g.Serves h := by
  obtain ⟨hrests, hfound⟩ := polled.rests.lookUp n
  exact ⟨⟨polled.recover_eq, polled.published_eq, hrests.cached⟩, hfound⟩

/-- A header that is fetched is what the node answers. -/
theorem ensures_fetch (pollable : g.Pollable) (block : BlockNumber) (x₀ : γ) :
    Inquiry.Ensures g Eq (fun _ _ => True) (fun m x => Polled g recover reports m ∧ x = x₀)
      (Monitor.fetch block)
      (fun h m _ => Polled g recover reports m ∧ (g (.header block) x₀).1 = .ok (some h))
      (fun e m _ => Polled g recover reports m ∧ e.terminal? = none ∧
        ∀ h, (g (.header block) x₀).1 ≠ .ok (some h)) := by
  refine .bind (Q := fun answer m _ => Polled g recover reports m ∧
    (g (.header block) x₀).1 = .ok answer) (.ask (fun _ _ _ => trivial) ?_ ?_) ?_
  · rintro m x y answer ⟨polled, rfl⟩ rfl hanswer
    exact ⟨polled, hanswer⟩
  · rintro m x y e ⟨polled, rfl⟩ rfl he
    refine ⟨polled, pollable.mild block x e he, ?_⟩
    intro h served
    rw [he] at served
    cases served
  · intro answer
    cases answer with
    | none =>
      refine .fail ?_
      rintro m x ⟨polled, hnone⟩
      refine ⟨polled, rfl, ?_⟩
      intro h served
      rw [hnone] at served
      cases served
    | some h =>
      refine .bind (.change ?_) fun _ => .pure fun m x hQ => hQ
      rintro m x ⟨polled, served⟩
      exact ⟨polled.put ⟨block, x₀, served⟩, served⟩

/-- The head does not come from the cache. -/
theorem ensures_latest (pollable : g.Pollable) (x₀ : γ) :
    Inquiry.Ensures g Eq (fun _ _ => True) (fun m x => Polled g recover reports m ∧ x = x₀)
      (Monitor.header .latest)
      (fun h m _ => Polled g recover reports m ∧ (g (.header .latest) x₀).1 = .ok (some h))
      (fun e m _ => Polled g recover reports m ∧ e.terminal? = none ∧
        ∀ h, (g (.header .latest) x₀).1 ≠ .ok (some h)) := by
  refine .bind (.change ?_) fun _ => ensures_fetch pollable .latest x₀
  rintro m x ⟨polled, hx⟩
  exact ⟨polled.of_journal _, hx⟩

/-- A block that is asked for has the number that it is asked for by. -/
theorem ensures_block (pollable : g.Pollable) (n : UInt64) :
    Inquiry.Ensures g Eq (fun _ _ => True) (fun m _ => Polled g recover reports m)
      (Monitor.header (.number n))
      (fun h m _ => Polled g recover reports m ∧ h.number = n ∧ g.Serves h)
      (fun e m _ => Polled g recover reports m ∧ e.terminal? = none ∧
        g.Refuses (.number n)) := by
  refine .bind (Q := fun found m _ => Polled g recover reports m ∧
    ∀ h, found = some h → h.number = n ∧ g.Serves h) (.ofOperation ?_ ?_) ?_
  · rintro m x found polled hfound
    obtain ⟨hpolled, hkey⟩ := polled.lookUp n
    cases hfound
    exact ⟨hpolled, hkey⟩
  · intro m x e polled he
    cases he
  · intro found
    cases found with
    | some h => exact .pure fun m x hQ => ⟨hQ.1, hQ.2 h rfl⟩
    | none =>
      -- the node stands where it stood when the cache was looked at
      intro m x hQ
      refine (ensures_fetch pollable (.number n) x).weaken (fun m y h => h) ?_ ?_ m x ⟨hQ.1, rfl⟩
      · rintro h m y ⟨polled, served⟩
        exact ⟨polled, pollable.numbered n x h served, .number n, x, served⟩
      · rintro e m y ⟨polled, hmild, refused⟩
        exact ⟨polled, hmild, x, refused⟩

/-- A run lives with a failure that does not end the session. -/
theorem ensures_tolerate {F : Prop} (w : Warning) (e : MonitorError) :
    Inquiry.Ensures g Eq (fun _ _ => True)
      (fun m _ => Polled g recover reports m ∧ e.terminal? = none ∧ F) (tolerate w e)
      (fun _ m _ => Polled g recover reports m ∧ F) (fun _ _ _ => False) := by
  rintro m x ⟨polled, hmild, hF⟩
  simp only [tolerate, hmild]
  exact ⟨polled.of_journal _, hF⟩

/-- A report is made if, and only if, the signers of the block are known. -/
theorem report (polled : Polled g recover reports m) (h : Header) (previous : UInt64) :
    Polled g recover reports (m.report h previous).2 ∧
      match (m.report h previous).1 with
      | .ok r => Describes recover previous h r
      | .error e => e.terminal? = none ∧ ∀ seals, Seals.ofHeader recover h ≠ .ok seals := by
  unfold Monitor.report
  rcases m.count_cases h with ⟨e, journal, hseals, hcount⟩ | ⟨seals, journal, hseals, hcount⟩
  · rw [hcount]
    rw [polled.recover_eq] at hseals
    refine ⟨polled.of_journal journal, rfl, ?_⟩
    intro seals signed
    rw [hseals] at signed
    cases signed
  · rw [hcount]
    rw [polled.recover_eq] at hseals
    exact ⟨⟨polled.recover_eq, polled.published_eq, polled.keyed⟩, ⟨seals, hseals, rfl, rfl⟩, rfl,
      rfl, toNat_elapsedBetween previous h.timestamp⟩

/-- A block is processed whatever its seals say. -/
theorem ensures_process (h : Header) (previous : UInt64) :
    Inquiry.Ensures g Eq (fun _ _ => True) (fun m _ => Polled g recover reports m)
      (process h previous)
      (fun _ m _ => ∃ told, Reported recover previous [h] told ∧
        Polled g recover (reports ++ told) m)
      (fun _ _ _ => False) := by
  refine .bind (Q := fun result m _ => Polled g recover reports m ∧
    match result with
    | .ok r => Describes recover previous h r
    | .error e => e.terminal? = none ∧ ∀ seals, Seals.ofHeader recover h ≠ .ok seals)
    (.attempt (.ofOperation ?_ ?_)) ?_
  · intro m x r polled hr
    have hreport := polled.report h previous
    rw [hr] at hreport
    exact hreport
  · intro m x e polled he
    have hreport := polled.report h previous
    rw [he] at hreport
    exact hreport
  · intro result
    cases result with
    | ok r =>
      refine .change ?_
      rintro m x ⟨polled, describes⟩
      refine ⟨[r], .shown describes (.nil _), polled.recover_eq, ?_, polled.keyed⟩
      rw [← polled.published_eq]
      rfl
    | error e =>
      refine (ensures_tolerate .blockNotProcessed e).weaken (fun m x hQ => hQ) ?_
        (fun e m x hE => hE)
      rintro _ m x ⟨polled, unsigned⟩
      refine ⟨[], .silent unsigned (.nil _), ?_⟩
      rwa [List.append_nil]

/-- The blocks of a tick are taken in, and reports on them are published. -/
def Noted (g : Gateway γ) (recover : SignerRecovery) (reports : List BlockReport) (p : Progress)
    (n : Nat) (after : Tick × Progress) (m : Monitor) : Prop :=
  Takes g n p after.1 ∧ after.2 = p.after after.1.handed ∧
    ∃ told, Reported recover p.previous after.1.handed told ∧
      Polled g recover (reports ++ told) m

theorem noted_nothing {tick : Tick} (polled : Polled g recover reports m)
    (takes : Takes g n p tick) (hhanded : tick.handed = []) :
    Noted g recover reports p n (tick, p) m := by
  refine ⟨takes, ?_, [], ?_, ?_⟩
  · rw [hhanded]
    rfl
  · rw [hhanded]
    exact .nil _
  · rwa [List.append_nil]

theorem ensures_catchUp (pollable : g.Pollable) (head : UInt64) (n : Nat) (p : Progress)
    (reports : List BlockReport) (room : p.last.toNat + n < UInt64.size) :
    Inquiry.Ensures g Eq (fun _ _ => True) (fun m _ => Polled g recover reports m)
      (catchUpNoted head n p)
      (fun after m _ => after.1.head = some head ∧ Noted g recover reports p n after m)
      (fun _ _ _ => False) := by
  induction n generalizing p reports with
  | zero => exact .pure fun m x polled => ⟨rfl, noted_nothing polled (takes_zero _ p) rfl⟩
  | succ n ih =>
    have hnext : (p.last + 1).toNat = p.last.toNat + 1 := by
      apply toNat_next
      exact Nat.lt_of_le_of_lt (by omega) room
    refine .bind (Q := fun result m _ => Polled g recover reports m ∧
      match result with
      | .ok h => h.number = p.last + 1 ∧ g.Serves h
      | .error e => e.terminal? = none ∧ g.Refuses (.number (p.last + 1)))
      (.attempt (ensures_block pollable (p.last + 1))) ?_
    intro result
    cases result with
    | error e =>
      refine .bind (ensures_tolerate .headerNotFetched e) fun _ => .pure ?_
      rintro m x ⟨polled, refused⟩
      exact ⟨rfl, noted_nothing polled (takes_missed hnext refused) rfl⟩
    | ok h =>
      rintro m x ⟨polled, hnumber, served⟩
      rw [← hnumber] at hnext
      -- the block is handed over, and the rest starts from it
      refine Inquiry.Ensures.bind (ensures_process h p.previous) (fun _ => ?_) m x polled
      rintro m x ⟨told, reported, polled⟩
      have rest := ih ⟨h.number, h.timestamp⟩ (reports ++ told) (by
        show h.number.toNat + n < UInt64.size
        omega)
      rw [← hnumber]
      refine Inquiry.Ensures.bind rest (fun after => .pure ?_) m x polled
      rintro m x ⟨hhead, takes, hafter, more, hmore, polled⟩
      refine ⟨hhead, takes.cons hnext served, hafter, told ++ more, ?_, ?_⟩
      · exact Reported.append (p := p) reported hmore
      · rwa [← List.append_assoc]

/-- A tick takes in the blocks up to the head that the node reports. -/
theorem ensures_poll (pollable : g.Pollable) (room : p.last.toNat + 1 < UInt64.size) (x₀ : γ) :
    Inquiry.Ensures g Eq (fun _ _ => True) (fun m x => Polled g recover reports m ∧ x = x₀)
      (pollNoted p)
      (fun result m _ => ∃ after, result = some after ∧ after.1.head = g.head? x₀ ∧
        after.2.last.toNat + 1 < UInt64.size ∧ Noted g recover reports p (after.1.reach p) after m)
      (fun _ _ _ => False) := by
  refine .bind (Q := fun result m _ => Polled g recover reports m ∧
    match result with
    | .ok head => head.toNat + 1 < UInt64.size ∧ g.head? x₀ = some head
    | .error e => e.terminal? = none ∧ g.head? x₀ = none) (.attempt (.bind
      ((ensures_latest pollable x₀).weaken (fun m x h => h) (fun h m x hQ => hQ) ?_)
      fun h => .pure ?_)) ?_
  · rintro e m x ⟨polled, hmild, refused⟩
    exact ⟨polled, hmild, Gateway.head?_of_refused refused⟩
  · rintro m x ⟨polled, served⟩
    exact ⟨polled, pollable.bounded x₀ h served, Gateway.head?_of_served served⟩
  · intro result
    cases result with
    | error e =>
      refine .bind (ensures_tolerate .headNotFetched e) fun _ => .pure ?_
      rintro m x ⟨polled, hhead⟩
      exact ⟨_, rfl, hhead.symm, room, noted_nothing polled (takes_zero none p) rfl⟩
    | ok head =>
      rintro m x ⟨polled, hbound, hhead⟩
      -- the last number has room above it, so there is one after it
      simp only [ahead?_of_ne (ne_lastNumber_of_room room)]
      refine Inquiry.Ensures.bind (ensures_catchUp pollable head (head.toNat - p.last.toNat) p reports
        (by omega)) (fun after => .pure ?_) m x polled
      rintro m x ⟨hafter, takes, hprogress, noted⟩
      have hreach : after.1.reach p = head.toNat - p.last.toNat := by
        rw [Tick.reach, hafter, Option.elim_some]
      have hlength := takes.length_le
      refine ⟨after, rfl, hafter.trans hhead.symm, ?_, ?_⟩
      · rw [hprogress, takes.consecutive.last_after]
        omega
      · rw [hreach]
        exact ⟨takes, hprogress, noted⟩

/-- The first head is processed, and polling starts from it. -/
theorem ensures_firstHead (pollable : g.Pollable) (x₀ : γ) :
    Inquiry.Ensures g Eq (fun _ _ => True) (fun m x => Polled g recover reports m ∧ x = x₀)
      firstHead
      (fun p m _ => ∃ h told, (g (.header .latest) x₀).1 = .ok (some h) ∧
        p = ⟨h.number, h.timestamp⟩ ∧ Reported recover h.timestamp [h] told ∧
        Polled g recover (reports ++ told) m)
      (fun _ _ _ => ∀ h, (g (.header .latest) x₀).1 ≠ .ok (some h)) := by
  refine .bind (.mapError ((ensures_latest pollable x₀).weaken (fun m x h => h)
    (fun h m x hQ => hQ) ?_)) ?_
  · rintro e m x ⟨-, -, refused⟩
    exact refused
  · rintro h m x ⟨polled, served⟩
    refine Inquiry.Ensures.bind ((ensures_process h h.timestamp).weaken (fun m x h => h)
      (fun _ m x hQ => hQ) (fun e m x hE => hE.elim)) (fun _ => .pure ?_) m x polled
    rintro m x ⟨told, reported, polled⟩
    exact ⟨h, told, served, rfl, reported, polled⟩

/-! ## Runs -/

variable {r : Run}

/-- The run processes the first head and then waits for a tick. -/
theorem serve_firstHead (pollable : g.Pollable) (polled : Polled g recover reports m) {x₀ : γ}
    (served : (g (.header .latest) x₀).1 = .ok (some h)) :
    ∃ m' told, ((r.go m .firstHead).serve g x₀).stage =
        .waiting m' (.tick ⟨h.number, h.timestamp⟩) ∧
      Reported recover h.timestamp [h] told ∧ Polled g recover (reports ++ told) m' := by
  have hrun := (ensures_firstHead pollable x₀).runWith (m := m) ⟨polled, rfl⟩
  rcases hfirst : firstHead.runWith g m x₀ with ⟨result, m', x'⟩
  rw [hfirst] at hrun
  cases result with
  | error e =>
    -- the first head is served, so this work cannot fail
    exact absurd served (hrun h)
  | ok p =>
    obtain ⟨h', told, served', rfl, reported, polled'⟩ := hrun
    cases served.symm.trans served'
    refine ⟨m', told, ?_, reported, polled'⟩
    have hwork : (do return Next.tick (← firstHead) : Inquiry RunError Next).runWith g m x₀ =
        (.ok (.tick ⟨h.number, h.timestamp⟩), m', x') := by
      rw [Inquiry.runWith_bind, hfirst]
      rfl
    exact Run.serve_work hwork

/-- One tick. -/
theorem serve_tick (pollable : g.Pollable) (polled : Polled g recover reports m)
    (hstage : r.stage = .waiting m (.tick p)) (room : p.last.toNat + 1 < UInt64.size) (x : γ) :
    ∃ m' p', (r.ticked.serve g x).stage = .waiting m' (.tick p') ∧
      (r.noted g x).head = g.head? x ∧ p'.last.toNat + 1 < UInt64.size ∧
      Noted g recover reports p ((r.noted g x).reach p) (r.noted g x, p') m' := by
  have hrun := (ensures_poll pollable room x).runWith (m := m) ⟨polled, rfl⟩
  rcases hpoll : (pollNoted p).runWith g m x with ⟨result, m', x'⟩
  rw [hpoll] at hrun
  cases result with
  | error e => exact hrun.elim
  | ok after =>
    obtain ⟨⟨tick, p'⟩, rfl, hrun⟩ := hrun
    obtain ⟨hnoted, hserved⟩ := Run.serve_ticked hstage hpoll
    rw [hnoted]
    exact ⟨m', p', hserved, hrun⟩

/-- Any number of ticks. -/
theorem serve_ticks (pollable : g.Pollable) (polled : Polled g recover reports m)
    (hstage : r.stage = .waiting m (.tick p)) (room : p.last.toNat + 1 < UInt64.size)
    (xs : List γ) :
    ∃ m' told,
      (r.polled g xs).stage =
        .waiting m' (.tick (p.after ((r.notes g xs).flatMap (·.handed)))) ∧
      (r.notes g xs).map (·.head) = xs.map g.head? ∧ Ticks g p (r.notes g xs) ∧
      Reported recover p.previous ((r.notes g xs).flatMap (·.handed)) told ∧
      Polled g recover (reports ++ told) m' := by
  -- induction over the ticks to come, from wherever the run waits for the next one
  induction xs generalizing r m p reports with
  | nil =>
    refine ⟨m, [], hstage, rfl, .nil p, .nil _, ?_⟩
    rwa [List.append_nil]
  | cons x xs ih =>
    obtain ⟨m₁, p₁, hstage₁, hhead, room₁, takes, hafter, told₁, reported₁, polled₁⟩ :=
      serve_tick pollable polled hstage room x
    obtain ⟨m₂, told₂, hstage₂, hheads, rest, reported₂, polled₂⟩ :=
      ih polled₁ hstage₁ room₁
    obtain rfl : p₁ = p.after (r.noted g x).handed := hafter
    refine ⟨m₂, told₁ ++ told₂, ?_, ?_, ?_, ?_, ?_⟩
    · rw [Run.notes, List.flatMap_cons, Progress.after_append]
      exact hstage₂
    · rw [Run.notes, List.map_cons, List.map_cons, hhead, hheads]
    · exact .cons takes rest
    · rw [Run.notes, List.flatMap_cons]
      exact reported₁.append reported₂
    · rwa [← List.append_assoc]

end Polled

/-! ## The main theorem -/

/-- The blocks that a run hands to be processed, from the first head on, and what it does at each
tick. -/
structure Walks (g : Gateway γ) (first : Header) (ticks : List Tick) : Prop where
  /-- The numbers go up by one. -/
  consecutive : (first :: ticks.flatMap (·.handed)).map (·.number.toNat) =
    List.range' first.number.toNat (first :: ticks.flatMap (·.handed)).length
  /-- The blocks come from the node. -/
  served : ∀ h ∈ first :: ticks.flatMap (·.handed), g.Serves h
  /-- No block is asked for that is above the head of its tick. -/
  within : ∀ t ∈ ticks, ∀ n ∈ t.asked, ∃ head ∈ t.head, n ≤ head
  /-- After a tick that misses no block, all blocks up to its head have been handed over. -/
  through : ∀ before t after, ticks = before ++ t :: after → t.missed = none →
    ∀ head ∈ t.head, ∀ n, first.number ≤ n → n ≤ head →
      n ∈ (first :: (before ++ [t]).flatMap (·.handed)).map (·.number)
  /-- A block is missed only if the node does not serve it. -/
  refused : ∀ t ∈ ticks, ∀ n ∈ t.missed, g.Refuses (.number n)
  /-- A block that was missed is asked for first at the next tick whose head reaches it, and until
  then nothing is asked for. -/
  retried : ∀ before t between t' after, ticks = before ++ t :: (between ++ t' :: after) →
    ∀ n ∈ t.missed, (∀ u ∈ between, ∀ head ∈ u.head, head < n) →
      ∀ head ∈ t'.head, n ≤ head → (∀ u ∈ between, u.asked = []) ∧ t'.asked.head? = some n

theorem Ticks.walks {first : Header} (h : Ticks g ⟨first.number, first.timestamp⟩ ticks)
    (served : g.Serves first) : Walks g first ticks where
  consecutive := by
    have hticks := h.consecutive
    simp only [Consecutive] at hticks
    simp only [List.map_cons, hticks, List.length_cons, List.range'_succ]
  served b mem := by
    rcases List.mem_cons.mp mem with rfl | mem
    · exact served
    · obtain ⟨t, ht, hb⟩ := List.mem_flatMap.mp mem
      obtain ⟨q, takes⟩ := h.takes_of_mem ht
      exact takes.served b hb
  within t ht n hn := by
    obtain ⟨q, takes⟩ := h.takes_of_mem ht
    exact takes.within hn
  through before t after heq hmissed head hhead n hfirst hle := by
    subst heq
    rw [List.map_cons, List.mem_cons]
    rcases UInt64.lt_or_eq_of_le hfirst with hlt | heq
    · exact Or.inr (h.through hmissed hhead hlt hle)
    · exact Or.inl heq.symm
  refused t ht n hn := by
    obtain ⟨q, takes⟩ := h.takes_of_mem ht
    exact (takes.missed n hn).2.2
  retried before t between t' after heq n hn low head hhead hle := by
    subst heq
    exact h.split.2.retried hn low hhead hle

/-- **Polling walks every block.** A run polls a node that may fail in any way that leaves the
session open, from a first head on and for any number of ticks, at each of which the node stands as
it happens to. The run never ends. The blocks that it hands to be processed are the first head and
the ones after it, without a gap and without a repetition, up to no more than the heads that it
hears of; a block that it does not get is the first one that it asks for later. It publishes a
report on each of these blocks whose signers are known, and no other. -/
theorem walks_polled (pollable : g.Pollable) (r : Run) {m : Monitor} (keyed : m.Keyed g) {x₀ : γ}
    {first : Header} (reported : (g (.header .latest) x₀).1 = .ok (some first)) (xs : List γ) :
    let begun := (r.go m .firstHead).serve g x₀
    let ticks := begun.notes g xs
    ticks.map (·.head) = xs.map g.head? ∧ Walks g first ticks ∧
      ∃ m' p reports, (begun.polled g xs).stage = .waiting m' (.tick p) ∧
        m'.published = m.published ++ reports ∧
        Reported m.recover first.timestamp (first :: ticks.flatMap (·.handed)) reports := by
  have polled : Polled g m.recover m.published m := ⟨rfl, rfl, keyed⟩
  obtain ⟨m₁, told₁, hstage₁, reported₁, polled₁⟩ :=
    Polled.serve_firstHead (r := r) pollable polled reported
  obtain ⟨m₂, told₂, hstage₂, hheads, hticks, reported₂, polled₂⟩ :=
    Polled.serve_ticks pollable polled₁ hstage₁ (pollable.bounded x₀ first reported) xs
  refine ⟨hheads, hticks.walks ⟨.latest, x₀, reported⟩, m₂, _, told₁ ++ told₂, hstage₂, ?_, ?_⟩
  · rw [polled₂.published_eq, List.append_assoc]
  · exact Reported.append (p := ⟨first.number, first.timestamp⟩) reported₁ reported₂

/-- Blocks ten seconds apart, but for block seven, which is late and has no seals. -/
def lateBlock (n : UInt64) : Header :=
  if n = 7 then { Monitor.sealedBlock n with timestamp := 90, extraData := [] }
  else { Monitor.sealedBlock n with timestamp := 10 * n }

/-- A node that stands at a head, or does not tell it, and that keeps one block back, or none. -/
def patchy : Gateway (Option UInt8 × Option UInt8)
  | .header .latest => fun x =>
    match x.1 with
    | some n => (.ok (some (lateBlock n.toUInt64)), x)
    | none => (.error (.transport (.timeout "eth_getBlockByNumber" (.ofSeconds 30))), x)
  | .header (.number n) => fun x =>
    (if x.2.map UInt8.toUInt64 = some n then .ok none else .ok (some (lateBlock n)), x)
  | .validators _ => fun x => (.ok [], x)
  | .nodeInfo => fun x => (.ok none, x)
  | .peers => fun x => (.ok none, x)

/-- The head is block eight, then it is not told, then it is an older one, and then it is block
eight again. -/
def fourTicks : List (Option UInt8 × Option UInt8) :=
  [(some 8, some 7), (none, none), (some 4, none), (some 8, none)]

theorem number_lateBlock (n : UInt64) : (lateBlock n).number = n := by
  unfold lateBlock
  split <;> rfl

theorem pollable_patchy : patchy.Pollable where
  numbered := by
    rintro n ⟨head, back⟩ h served
    simp only [patchy] at served
    split at served
    · cases served
    · cases served
      exact number_lateBlock n
  bounded := by
    rintro ⟨head, back⟩ h served
    cases head with
    | none => cases served
    | some n =>
      cases served
      rw [number_lateBlock, UInt8.toNat_toUInt64]
      exact Nat.lt_of_lt_of_le (Nat.succ_lt_succ n.toNat_lt) (by decide)
  mild := by
    rintro block ⟨head, back⟩ e failed
    cases block with
    | latest =>
      cases head with
      | none =>
        cases failed
        rfl
      | some n => cases failed
    | number n =>
      simp only [patchy] at failed
      split at failed <;> cases failed

/-- Block seven is kept back and asked for again. There is no report on it. -/
theorem walks_fourTicks :
    let m := (((Monitor.make {} ⟨[]⟩ Monitor.spelledOut).watch (.ofMembers [.zero])).afterCalls patchy
      [.nodeInfo, .peers, .restart 2] (some 5, none)).1
    let begun := (Run.go ⟨2, .poll, .ready m, 0, 0⟩ m .firstHead).serve patchy (some 5, none)
    let ticks := begun.notes patchy fourTicks
    patchy.Pollable ∧ m.Keyed patchy ∧
      (patchy (.header .latest) (some 5, none)).1 = .ok (some (lateBlock 5)) ∧
      Walks patchy (lateBlock 5) ticks ∧
      ticks.map (fun t => (t.handed.map (·.number), t.missed)) =
        [([6], some 7), ([], none), ([], none), ([7, 8], none)] ∧
      (begun.polled patchy fourTicks).stage.monitor.published.map
        (fun r => (r.number, r.elapsed)) = [(5, 0), (6, 10), (8, 0)] := by
  intro m begun ticks
  have keyed : m.Keyed patchy := Monitor.keyed_afterCalls pollable_patchy.numbered _ _ _ _ _ _
  have reported : (patchy (.header .latest) (some 5, none)).1 = .ok (some (lateBlock 5)) := rfl
  obtain ⟨-, walks, -⟩ :=
    walks_polled pollable_patchy ⟨2, .poll, .ready m, 0, 0⟩ keyed reported fourTicks
  exact ⟨pollable_patchy, keyed, reported, walks, by decide +kernel, by decide +kernel⟩

end Follow

end IstanbulMonitor
