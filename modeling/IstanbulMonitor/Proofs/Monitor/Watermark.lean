import IstanbulMonitor.Proofs.Monitor.Atomicity
import Mathlib.Data.List.Induction

/-!
# When the watermark goes back

The watermark is the number of the last block counted. Counting raises it or leaves it, a reset
without a replay keeps it, and a call that fails does not touch it. A replay alone may set it back:
it starts from nothing and ends at whatever head the node reports (`Monitor.meets_restart_head`).
So between two states of a run the watermark goes down only by a replay that succeeds on a head
below it, and then it is the number of that head (`Monitor.watermark_run`).
-/

set_option autoImplicit false

namespace IstanbulMonitor

theorem Statistics.le_lastProcessed_apply (s : Statistics) (number : UInt64) (proposer : Address)
    (endorsers : List Address) :
    s.lastProcessed ≤ (s.apply number proposer endorsers).lastProcessed := by
  unfold apply
  split
  case isTrue fresh => exact UInt64.le_of_lt (of_decide_eq_true fresh)
  case isFalse => exact UInt64.le_refl _

namespace Monitor

variable {γ : Type} {g : Gateway γ} {m : Monitor} {x : γ} {call : MonitorCall}

/-- The number of the last block counted. -/
def watermark (m : Monitor) : UInt64 := m.statistics.lastProcessed

/-- A replay that sets the watermark back: it succeeds, and the head that the node reports lies
below the watermark. -/
structure Rewinds (g : Gateway γ) (m : Monitor) (x : γ) (call : MonitorCall) (head : Header) :
    Prop where
  replays : ∃ window, window ≠ 0 ∧ call = .restart window
  succeeds : (call.inquiry.runWith g m x).1 = .ok ()
  reported : (g (.header .latest) x).1 = .ok (some head)
  below : head.number < m.watermark

/-! ## One call -/

theorem watermark_count_ge (m : Monitor) (h : Header) : m.watermark ≤ (m.count h).2.watermark := by
  obtain ⟨e, journal, -, hcount⟩ | ⟨seals, journal, -, hcount⟩ := count_cases m h
  · rw [hcount]
    exact UInt64.le_refl _
  · rw [hcount]
    exact m.statistics.le_lastProcessed_apply h.number seals.proposer seals.endorsers

/-- The header of the head is the one that the node reports. -/
theorem meets_header_latest (x : γ) :
    Inquiry.Meets g (fun _ y => y = x) (header .latest)
      (fun head _ _ => (g (.header .latest) x).1 = .ok (some head)) fun _ _ => True := by
  refine .bind (Q := fun _ _ y => y = x) (.change fun m y hy => hy) fun _ => ?_
  refine .bind (Q := fun answer _ _ => (g (.header .latest) x).1 = .ok answer) ?_ fun answer => ?_
  · refine .ask (fun m y answer hy hanswer => ?_) fun _ _ _ => trivial
    rw [← hy]
    exact hanswer
  · cases answer with
    | none => exact .fail fun _ _ _ => trivial
    | some head => exact .bind (.change fun _ _ h => h) fun _ => .pure fun _ _ h => h

/-- A replay that succeeds leaves the watermark at the head that the node reported. -/
theorem meets_restart_head (x : γ) {window : UInt64} (replays : window ≠ 0) :
    Inquiry.Meets g (fun _ y => y = x) (restart window)
      (fun _ m _ => ∃ head, (g (.header .latest) x).1 = .ok (some head) ∧
        m.watermark = head.number)
      fun _ _ => True := by
  unfold restart
  rw [if_neg replays]
  refine .bind (.current fun _ _ h => h) fun before => .bind (meets_header_latest x) fun head => ?_
  -- whatever is counted on the way, the number of the head is committed
  refine .bind (Q := fun _ _ _ => (g (.header .latest) x).1 = .ok (some head))
    (fun m y reported => ?_) fun fresh => .change_pure fun m y reported => ?_
  · split
    · exact reported
    · trivial
  · exact ⟨head, reported, by rw [watermark, statistics_commit]⟩

/-- A call leaves the watermark or raises it, unless it sets it back to the reported head. -/
theorem watermark_call (g : Gateway γ) (m : Monitor) (x : γ) (call : MonitorCall) :
    m.watermark ≤ (call.inquiry.runWith g m x).2.1.watermark ∨
      ∃ head, Rewinds g m x call head ∧
        (call.inquiry.runWith g m x).2.1.watermark = head.number := by
  have spared : ((MonitorRequest.call call).counts = false ∨
      ∃ e, (call.inquiry.runWith g m x).1 = .error e) →
        m.watermark ≤ (call.inquiry.runWith g m x).2.1.watermark := fun h =>
    UInt64.le_of_eq (congrArg Statistics.lastProcessed
      ((ensures_request (.call call) m x).run h)).symm
  have counted : ∀ h ∈ call.submitted,
      m.watermark ≤ (call.inquiry.runWith g m x).2.1.watermark := by
    intro h mem
    rw [after_submitted g mem]
    exact watermark_count_ge m h
  cases call with
  | update h => exact Or.inl (counted h (List.mem_singleton_self h))
  | report h previous => exact Or.inl (counted h (List.mem_singleton_self h))
  | restart window =>
    by_cases reset : window = 0
    · refine Or.inl ?_
      rw [reset]
      exact UInt64.le_refl _
    have replayed : Inquiry.Meets g (fun _ y => y = x) (MonitorCall.restart window).inquiry
        (fun _ m _ => ∃ head, (g (.header .latest) x).1 = .ok (some head) ∧
          m.watermark = head.number) fun _ _ => True :=
      .bind (meets_restart_head x reset) fun _ => .pure fun _ _ h => h
    have replayed := replayed m x rfl
    cases hresult : ((MonitorCall.restart window).inquiry.runWith g m x).1 with
    | error e => exact Or.inl (spared (Or.inr ⟨e, hresult⟩))
    | ok done =>
      obtain ⟨head, reported, hhead⟩ : ∃ head, (g (.header .latest) x).1 = .ok (some head) ∧
          ((MonitorCall.restart window).inquiry.runWith g m x).2.1.watermark = head.number := by
        rcases hrun : (MonitorCall.restart window).inquiry.runWith g m x with ⟨result, m', x'⟩
        rw [hrun] at hresult replayed
        cases hresult
        exact replayed
      by_cases below : head.number < m.watermark
      · exact Or.inr ⟨head, ⟨⟨window, reset, rfl⟩, hresult, reported, below⟩, hhead⟩
      · refine Or.inl ?_
        rw [hhead]
        exact UInt64.not_lt.mp below
  | header block => exact Or.inl (spared (Or.inl rfl))
  | headNumber => exact Or.inl (spared (Or.inl rfl))
  | signers h => exact Or.inl (spared (Or.inl rfl))
  | signerData block => exact Or.inl (spared (Or.inl rfl))
  | nodeInfo => exact Or.inl (spared (Or.inl rfl))
  | peers => exact Or.inl (spared (Or.inl rfl))

/-! ## Runs of calls -/

theorem afterCalls_concat (g : Gateway γ) (calls : List MonitorCall) (call : MonitorCall)
    (m : Monitor) (x : γ) :
    m.afterCalls g (calls ++ [call]) x =
      (call.inquiry.runWith g (m.afterCalls g calls x).1 (m.afterCalls g calls x).2).2 := by
  simp only [afterCalls, List.foldl_append, List.foldl_cons, List.foldl_nil]

/-- From one state of a run to the next the watermark does not go down, unless the call between them
replays with success on a head below it; then the watermark is the number of that head. Hence over a
whole run it has not gone down unless one of the calls was such a replay. -/
theorem watermark_run (g : Gateway γ) (m : Monitor) (x : γ) (calls : List MonitorCall) :
    (∀ call,
        let before := m.afterCalls g calls x
        let after := m.afterCalls g (calls ++ [call]) x
        before.1.watermark ≤ after.1.watermark ∨
          ∃ head, Rewinds g before.1 before.2 call head ∧ after.1.watermark = head.number) ∧
      (m.watermark ≤ (m.afterCalls g calls x).1.watermark ∨
        ∃ earlier call head, earlier ++ [call] <+: calls ∧
          Rewinds g (m.afterCalls g earlier x).1 (m.afterCalls g earlier x).2 call head) := by
  have next : ∀ earlier call,
      (m.afterCalls g earlier x).1.watermark ≤
          (m.afterCalls g (earlier ++ [call]) x).1.watermark ∨
        ∃ head, Rewinds g (m.afterCalls g earlier x).1 (m.afterCalls g earlier x).2 call head ∧
          (m.afterCalls g (earlier ++ [call]) x).1.watermark = head.number := by
    intro earlier call
    rw [afterCalls_concat]
    exact watermark_call g _ _ call
  refine ⟨next calls, ?_⟩
  induction calls using List.reverseRecOn with
  | nil => exact Or.inl (UInt64.le_refl _)
  | append_singleton calls call ih =>
    obtain raised | ⟨earlier, other, head, begins, rewinds⟩ := ih
    · obtain raised' | ⟨head, rewinds, -⟩ := next calls call
      · exact Or.inl (UInt64.le_trans raised raised')
      · exact Or.inr ⟨calls, call, head, List.prefix_refl _, rewinds⟩
    · exact Or.inr
        ⟨earlier, other, head, begins.trans (List.prefix_append ..), rewinds⟩

/-- A monitor that has counted block five replays a chain whose head is block three. -/
theorem watermark_rewound :
    let m := (make {} ⟨[]⟩ spelledOut).watch (.ofMembers [.zero])
    (m.afterCalls threeBlocks [.update (sealedBlock 5)] ()).1.watermark = 5 ∧
      (m.afterCalls threeBlocks [.update (sealedBlock 5), .restart 1] ()).1.watermark = 3 ∧
      ¬ ∀ (g : Gateway Unit) (m : Monitor) (calls : List MonitorCall) (call : MonitorCall),
        (m.afterCalls g calls ()).1.watermark ≤
          (m.afterCalls g (calls ++ [call]) ()).1.watermark := by
  intro m
  have counted : (m.afterCalls threeBlocks [.update (sealedBlock 5)] ()).1.watermark = 5 := by
    decide
  have replayed :
      (m.afterCalls threeBlocks [.update (sealedBlock 5), .restart 1] ()).1.watermark = 3 := by
    decide
  refine ⟨counted, replayed, fun raised => ?_⟩
  have hle := raised threeBlocks m [.update (sealedBlock 5)] (.restart 1)
  rw [counted, List.singleton_append, replayed] at hle
  exact absurd hle (by decide)

end Monitor

end IstanbulMonitor
