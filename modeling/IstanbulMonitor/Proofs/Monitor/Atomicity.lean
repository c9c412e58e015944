import IstanbulMonitor.Proofs.Monitor.Calls
import IstanbulMonitor.Proofs.Monitor.Ensures
import IstanbulMonitor.Proofs.Monitor.Participation

/-!
# Failed requests leave the statistics alone

A request that counts blocks writes the statistics once, at its very end and only if nothing went
wrong before; every other request only reads them. So whatever the node answers and wherever a
request fails, the statistics are those from before, and as long as a request waits for the node
nothing of it can be seen in them (`Monitor.atomic_request`). An inquiry that leaves the statistics
alone is said to spare them; there is one rule for each way inquiries are put together.
-/

set_option autoImplicit false

namespace IstanbulMonitor

namespace Inquiry

variable {ε α β γ : Type} {g : Gateway γ} {later : γ → γ → Prop} {s : Statistics}

/-- An inquiry that leaves the statistics `s` alone, whenever it asks and however it ends. -/
def Spares (g : Gateway γ) (later : γ → γ → Prop) (s : Statistics) (i : Inquiry ε α) : Prop :=
  i.Ensures g later (fun m _ => m.statistics = s) (fun m _ => m.statistics = s)
    (fun _ m _ => m.statistics = s) fun _ m _ => m.statistics = s

/-- An inquiry that leaves the statistics `s` alone unless it succeeds, and as long as it asks. -/
def SparesUnlessDone (g : Gateway γ) (later : γ → γ → Prop) (s : Statistics) (i : Inquiry ε α) :
    Prop :=
  i.Ensures g later (fun m _ => m.statistics = s) (fun m _ => m.statistics = s)
    (fun _ _ _ => True) fun _ m _ => m.statistics = s

namespace Spares

variable {i : Inquiry ε α}

theorem pure (a : α) : Spares g later s (pure a : Inquiry ε α) := Ensures.pure fun _ _ h => h

theorem fail (e : ε) : Spares g later s (fail e : Inquiry ε α) := Ensures.fail fun _ _ h => h

theorem ask (q : Query) : Spares g later s (ask q) :=
  Ensures.ask (fun _ _ h => h) (fun _ _ _ _ h _ _ => h) fun _ _ _ _ h _ _ => h

theorem current : Spares g later s (current : Inquiry ε Monitor) :=
  Ensures.current fun _ _ h => h

theorem change {f : Monitor → Monitor} (same : ∀ m, (f m).statistics = m.statistics) :
    Spares g later s (change f : Inquiry ε Unit) :=
  Ensures.change fun m _ h => (same m).trans h

theorem ofOperation {f : Monitor → Except ε α × Monitor}
    (same : ∀ m, (f m).2.statistics = m.statistics) : Spares g later s (ofOperation f) :=
  Ensures.ofOperation (fun m _ _ h _ => (same m).trans h) fun m _ _ h _ => (same m).trans h

theorem bind {next : α → Inquiry ε β} (first : Spares g later s i)
    (rest : ∀ a, Spares g later s (next a)) : Spares g later s (i >>= next) :=
  Ensures.bind first rest

theorem unlessDone (h : Spares g later s i) : SparesUnlessDone g later s i :=
  h.weaken (fun _ _ h => h) (fun _ _ _ _ => trivial) fun _ _ _ h => h

end Spares

namespace SparesUnlessDone

variable {i : Inquiry ε α}

theorem ofOperation {f : Monitor → Except ε α × Monitor}
    (failed : ∀ m e, (f m).1 = .error e → (f m).2.statistics = m.statistics) :
    SparesUnlessDone g later s (ofOperation f) :=
  Ensures.ofOperation (fun _ _ _ _ _ => trivial) fun m _ e h he => (failed m e he).trans h

/-- A step that succeeded may have written the statistics; what follows it must not fail. -/
theorem bind_pure (f : α → β) (first : SparesUnlessDone g later s i) :
    SparesUnlessDone g later s (i >>= fun a => Pure.pure (f a)) :=
  Ensures.bind first fun _ => Ensures.pure fun _ _ _ => trivial

theorem after {next : α → Inquiry ε β} (first : Spares g later s i)
    (rest : ∀ a, SparesUnlessDone g later s (next a)) :
    SparesUnlessDone g later s (i >>= next) :=
  Ensures.bind first rest

end SparesUnlessDone

end Inquiry

/-- What can be asked of a monitor: a call, or who proposes after an account. -/
inductive MonitorRequest where
  | call (c : MonitorCall)
  | nextProposer (a : Address)

namespace Monitor

/-- The member whose turn to propose comes after an account. -/
def nextProposer (a : Address) : Inquiry MonitorError Address :=
  Inquiry.ofOperation fun m => (m.validators.nextAfter a, m)

end Monitor

namespace MonitorRequest

/-- The inquiry behind a request. -/
def inquiry : MonitorRequest → Inquiry MonitorError Unit
  | .call c => c.inquiry
  | .nextProposer a => do let _ ← Monitor.nextProposer a

/-- Whether a request may count blocks. -/
def counts : MonitorRequest → Bool
  | .call (.update _) => true
  | .call (.report _ _) => true
  | .call (.restart _) => true
  | _ => false

end MonitorRequest

namespace Monitor

open Inquiry (Spares SparesUnlessDone)

variable {γ : Type} {g : Gateway γ} {later : γ → γ → Prop} {s : Statistics}

/-! ## Requests that only read -/

theorem statistics_lookUp (m : Monitor) (n : UInt64) : (m.lookUp n).2.statistics = m.statistics :=
  rfl

theorem spares_fetch (block : BlockNumber) : Spares g later s (fetch block) := by
  refine .bind (.ask _) fun answer => ?_
  cases answer with
  | none => exact .fail _
  | some h => exact .bind (.change fun _ => rfl) fun _ => .pure h

theorem spares_header (block : BlockNumber) : Spares g later s (header block) := by
  cases block with
  | latest => exact .bind (.change fun _ => rfl) fun _ => spares_fetch .latest
  | number n =>
    refine .bind (.ofOperation fun m => statistics_lookUp m n) fun found => ?_
    cases found with
    | none => exact spares_fetch (.number n)
    | some h => exact .pure h

theorem spares_headNumber : Spares g later s headNumber :=
  .bind (spares_header .latest) fun _ => .pure _

theorem spares_signers (h : Header) : Spares g later s (signers h) :=
  .ofOperation fun m => statistics_extract m h

theorem spares_signerData (block : BlockNumber) : Spares g later s (signerData block) :=
  .bind (spares_header block) fun h => .bind (spares_signers h) fun _ => .pure _

theorem spares_nodeInfo : Spares g later s nodeInfo := by
  refine .bind (.ask _) fun answer => ?_
  cases answer with
  | none => exact .fail _
  | some info => exact .pure info

theorem spares_peers : Spares g later s peers := by
  refine .bind (.ask _) fun answer => ?_
  cases answer with
  | none => exact .fail _
  | some list => exact .pure list

/-! ## Requests that count -/

/-- A replay counts into statistics of its own. -/
theorem spares_replay (head : Header) (n : Nat) (number : UInt64) (fresh : Statistics) :
    Spares g later s (replay head n number fresh) := by
  induction n generalizing number fresh with
  | zero => exact .pure fresh
  | succ n ih =>
    have counted : ∀ h, Spares g later s (do
        let seals ← signers h
        replay head n (number + 1) (fresh.apply h.number seals.proposer seals.endorsers)) :=
      fun h => .bind (spares_signers h) fun seals => ih _ _
    unfold replay
    split
    · exact counted head
    · exact .bind (spares_header _) counted

theorem statistics_report_of_error {m : Monitor} {h : Header} {previous : UInt64}
    {e : MonitorError} (he : (m.report h previous).1 = .error e) :
    (m.report h previous).2.statistics = m.statistics := by
  rw [report_snd]
  have hcount : (m.count h).1 = .error e := by
    unfold report at he
    rcases hc : m.count h with ⟨result, m'⟩
    rw [hc] at he
    cases result with
    | error e' =>
      obtain rfl : e' = e := Except.error.inj he
      rfl
    | ok seals => cases he
  exact statistics_count_of_error hcount

/-- Only the last step of a restart writes the statistics. -/
theorem sparesUnlessDone_restart (window : UInt64) :
    SparesUnlessDone g later s (restart window) := by
  have committed : ∀ (f : Monitor → Monitor) (done : Option Unit), SparesUnlessDone g later s
      (Inquiry.change f >>= fun _ => Pure.pure done : Inquiry MonitorError (Option Unit)) :=
    fun f done => .change_pure fun _ _ _ => trivial
  unfold restart
  split
  · exact committed _ _
  · exact .after .current fun m => .after (spares_header .latest) fun head =>
      .after (spares_replay head _ _ _) fun fresh => committed _ _

theorem spares_inquiry (request : MonitorRequest) (reads : request.counts = false) :
    Spares g later s request.inquiry := by
  have only : ∀ {α : Type} {i : Inquiry MonitorError α}, Spares g later s i →
      Spares g later s (i >>= fun _ => Pure.pure ()) := fun h => .bind h fun _ => .pure ()
  cases request with
  | nextProposer a => exact only (.ofOperation fun _ => rfl)
  | call c =>
    cases c with
    | header block => exact only (spares_header block)
    | headNumber => exact only spares_headNumber
    | signers h => exact only (spares_signers h)
    | signerData block => exact only (spares_signerData block)
    | nodeInfo => exact only spares_nodeInfo
    | peers => exact only spares_peers
    | update h => cases reads
    | report h previous => cases reads
    | restart window => cases reads

theorem sparesUnlessDone_inquiry (request : MonitorRequest) :
    SparesUnlessDone g later s request.inquiry := by
  cases hcounts : request.counts with
  | false => exact (spares_inquiry request hcounts).unlessDone
  | true =>
    cases request with
    | nextProposer a => cases hcounts
    | call c =>
      cases c with
      | update h => exact .bind_pure _ (.ofOperation fun _ _ => statistics_count_of_error)
      | report h previous =>
        exact .bind_pure _ (.ofOperation fun _ _ => statistics_report_of_error)
      | restart window => exact .bind_pure _ (sparesUnlessDone_restart window)
      | _ => cases hcounts

/-! ## The main theorem -/

/-- Whatever the node does in the meantime, a request spares the statistics unless it counts and
succeeds. -/
theorem ensures_request (request : MonitorRequest) (m : Monitor) (x : γ) :
    (request.inquiry m).Ensures g later (fun waiting _ => waiting.statistics = m.statistics)
      (fun result after _ => (request.counts = false ∨ ∃ e, result = .error e) →
        after.statistics = m.statistics) x := by
  cases hcounts : request.counts with
  | false =>
    refine (spares_inquiry request hcounts m x rfl).weaken fun result after _ h _ => ?_
    cases result <;> exact h
  | true =>
    refine (sparesUnlessDone_inquiry request m x rfl).weaken fun result after _ h failed => ?_
    cases result with
    | error e => exact h
    | ok a =>
      obtain reads | ⟨e, he⟩ := failed
      · cases reads
      · cases he

/-- **Requests are atomic on the statistics.** Against any node and from any state of the monitor,
the statistics are those from before whenever the request waits for an answer, however the node
changes in the meantime. They are those from before in the end if the request fails at any of its
steps, and also if it succeeds unless it is one that counts. -/
theorem atomic_request (g : Gateway γ) (request : MonitorRequest) (m : Monitor) (x : γ) :
    (∀ later : γ → γ → Prop,
        (request.inquiry m).Ensures g later (fun waiting _ => waiting.statistics = m.statistics)
          (fun result after _ => (request.counts = false ∨ ∃ e, result = .error e) →
            after.statistics = m.statistics) x) ∧
      ((request.counts = false ∨ ∃ e, (request.inquiry.runWith g m x).1 = .error e) →
        (request.inquiry.runWith g m x).2.1.statistics = m.statistics) :=
  ⟨fun _ => ensures_request request m x, (ensures_request request m x).run⟩

/-- A node with head three that has lost block two. -/
def blockTwoLost : Gateway Unit
  | .header (.number 2) => fun x => (.ok none, x)
  | q => threeBlocks q

/-- A block whose second committed seal is not like the others. -/
def oddlySealed : Header :=
  { Header.blank with number := 6, extraData := Extra.encode ⟨.zero, [], [1], [[2], [3]]⟩ }

/-- A monitor that has counted block five. It cannot recover a seal like the odd one. -/
def atFive : Monitor :=
  (((make {} ⟨[]⟩ fun digest bytes =>
      if bytes = [3] then .error .unrecoverable else spelledOut digest bytes).watch
    (.ofMembers [.zero])).count (sealedBlock 5)).2

/-- The counts of block five survive a replay that has counted block one already, a block whose
first committed seal has been read already, and a question for the head, which is answered. -/
theorem spared_atFive :
    let after := fun c => ((MonitorRequest.call c).inquiry.runWith blockTwoLost atFive ())
    atFive.statistics.lastProcessed = 5 ∧
      atFive.statistics.counters.endorsements.count (.ofNat 20 2) = 2 ∧
      (after (.restart 5)).1 = .error (.blockNotFound (.number 2)) ∧
      (after (.restart 5)).2.1.statistics = atFive.statistics ∧
      (after (.update oddlySealed)).1 = .error (.recovery .unrecoverable) ∧
      (after (.update oddlySealed)).2.1.statistics = atFive.statistics ∧
      (after .headNumber).1 = .ok () ∧
      (after .headNumber).2.1.statistics = atFive.statistics := by
  have replayed : ((MonitorRequest.call (.restart 5)).inquiry.runWith blockTwoLost atFive ()).1 =
      .error (.blockNotFound (.number 2)) := rfl
  have updated :
      ((MonitorRequest.call (.update oddlySealed)).inquiry.runWith blockTwoLost atFive ()).1 =
        .error (.recovery .unrecoverable) := rfl
  exact ⟨by decide, by decide, replayed,
    (atomic_request blockTwoLost (.call (.restart 5)) atFive ()).2 (.inr ⟨_, replayed⟩), updated,
    (atomic_request blockTwoLost (.call (.update oddlySealed)) atFive ()).2 (.inr ⟨_, updated⟩),
    rfl, (atomic_request blockTwoLost (.call .headNumber) atFive ()).2 (.inl rfl)⟩

end Monitor

end IstanbulMonitor
