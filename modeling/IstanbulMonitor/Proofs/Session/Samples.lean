import IstanbulMonitor.Proofs.Session.Answers
import IstanbulMonitor.Proofs.Session.Gauge
import IstanbulMonitor.Session.Client

/-!
# Outcomes that are counted and outcomes that are seen

A call is counted when its caller is given an answer, once, under the method of the call and the
outcome of that answer (`Session.toll_step`). A call that is given up is not counted. The caller of
a raw call or of a subscription sees the answer itself. A typed client reads the value of the answer
as a type of its own after the call was counted, so a value of another shape is seen as an error
although the call was counted as answered (`seenOutcome_readAnswer`).
-/

set_option autoImplicit false

namespace IstanbulMonitor

/-- The outcome that a caller sees. -/
def seenOutcome {α : Type} : Except TransportError α → String
  | .ok _ => "ok"
  | .error e => e.outcome

/-- Whether an answer holds a value that a client cannot read as the type it wants. -/
def misread {α : Type} (decode : Json.Decoder α) : Except TransportError Reply → Bool
  | .ok (.value value) => (decode value).toOption.isNone
  | _ => false

/-- A typed client sees what was counted, except for a value that it cannot read. -/
theorem seenOutcome_readAnswer {α : Type} (method : String) (decode : Json.Decoder α)
    {answer : Except TransportError Reply}
    (suits : ∀ reply, answer = .ok reply → CallKind.structured.Suits reply) :
    seenOutcome (readAnswer method decode answer) =
      if misread decode answer then "decode_error" else Session.outcome answer := by
  cases answer with
  | error e => rfl
  | ok reply =>
    obtain ⟨value, rfl⟩ := suits reply rfl
    show seenOutcome ((decode value).mapError (.decode method)) =
      if (decode value).toOption.isNone then _ else _
    cases decode value <;> rfl

/-! ## Where callers come from and where they go -/

namespace Ledger

variable {l l' : Ledger} {e : SessionEvent}

/-- Callers are those of one call. -/
def SameCall (b c : Caller) : Prop := b.id = c.id ∧ b.kind = c.kind ∧ b.method = c.method

/-- A caller after a change was there before, or came with it. -/
theorem Change.origin (h : l.Change e l') {c : Caller} (hc : c ∈ l'.callers) :
    ∃ b, (b ∈ l.callers ∨ b ∈ l.arriving e) ∧ SameCall b c := by
  have same : ∀ {c : Caller}, c ∈ l.callers →
      ∃ b, (b ∈ l.callers ∨ b ∈ l.arriving e) ∧ SameCall b c :=
    fun hc => ⟨_, Or.inl hc, rfl, rfl, rfl⟩
  have posted : ∀ {ids : List UInt64} {delivery : Delivery}, c ∈ (l.post ids delivery).callers →
      ∃ b, (b ∈ l.callers ∨ b ∈ l.arriving e) ∧ SameCall b c := by
    intro ids delivery hc
    obtain ⟨b, hb, rfl⟩ := mem_callers_post.mp hc
    exact ⟨b, Or.inl hb, by split <;> exact ⟨rfl, rfl, rfl⟩⟩
  cases h with
  | rest => exact same hc
  | turnAway => exact same (mem_callers_dismiss.mp hc).1
  | register =>
    rcases List.mem_append.mp hc with hc | hc
    · exact same hc
    · exact ⟨c, Or.inr hc, rfl, rfl, rfl⟩
  | accept =>
    obtain ⟨b, hb, rfl⟩ := mem_callers_accept.mp hc
    exact ⟨b, Or.inl hb, by split <;> exact ⟨rfl, rfl, rfl⟩⟩
  | resolve => exact posted hc
  | conclude => exact same (mem_callers_dismiss.mp hc).1
  | fail => exact same (mem_callers_dismiss.mp hc).1
  | cancel => exact same (mem_callers_dismiss.mp hc).1
  | terminate => exact posted hc

/-- What becomes of a caller in a change: it is still there, it is given an answer, or it gives its
call up. -/
theorem Change.fate (h : l.Change e l') {b : Caller} (hb : b ∈ l.callers ∨ b ∈ l.arriving e) :
    b.id ∈ l'.callers.map (·.id) ∨ b.id ∈ l'.ended.map (·.1) ∨ e = .cancelled b.id := by
  have old : e.isCall = false → b ∈ l.callers := fun noCall => by
    rw [arriving_of_isCall_eq_false noCall] at hb
    exact hb.resolve_right List.not_mem_nil
  -- who is dismissed with an answer is among those who were answered
  have answered : ∀ {k : Ledger} {id : UInt64} {answer : Except TransportError Reply},
      b ∈ k.callers ∨ b.id = id →
        b.id ∈ ((k.dismiss id).answer id answer).callers.map (·.id) ∨
          b.id ∈ ((k.dismiss id).answer id answer).ended.map (·.1) ∨ e = .cancelled b.id := by
    intro k id answer hb
    by_cases hid : b.id = id
    · refine Or.inr (Or.inl ?_)
      rw [hid]
      exact List.mem_map_of_mem (List.mem_append_right k.ended List.mem_cons_self)
    · exact Or.inl (List.mem_map_of_mem (mem_callers_dismiss.mpr ⟨hb.resolve_right hid, hid⟩))
  cases h with
  | rest noCall => exact Or.inl (List.mem_map_of_mem (old noCall))
  | turnAway =>
    refine answered (hb.imp id fun hb => ?_)
    rw [List.mem_singleton.mp hb]
    rfl
  | register =>
    refine Or.inl (List.mem_map_of_mem (List.mem_append.mpr ?_))
    exact hb
  | accept =>
    rw [map_id_callers_accept]
    exact Or.inl (List.mem_map_of_mem (old rfl))
  | resolve response =>
    rw [map_id_callers_post]
    exact Or.inl (List.mem_map_of_mem (old (e.isCall_of_response? response)))
  | conclude noCall => exact answered (k := l.strike _) (Or.inl (old noCall))
  | fail noCall => exact answered (k := l.strike _) (Or.inl (old noCall))
  | @cancel id =>
    by_cases hid : b.id = id
    · exact Or.inr (Or.inr (by rw [hid]))
    · exact Or.inl (List.mem_map_of_mem (mem_callers_dismiss.mpr ⟨old rfl, hid⟩))
  | terminate noCall =>
    refine Or.inl ?_
    show b.id ∈ (l.post _ _).callers.map (·.id)
    rw [map_id_callers_post]
    exact List.mem_map_of_mem (old noCall)

end Ledger

namespace Session

open Ledger (Sound SameCall)

/-! ## Runs -/

variable {s : Session} {e : SessionEvent} {events : List SessionEvent} {made : List Caller}
  {start : LabelCounts (String × String)}

/-- Who waits made a call, and every call that was made is waited for, answered or given up. -/
structure Settled (s : Session) (made : List Caller) (events : List SessionEvent) : Prop where
  origin : ∀ c ∈ s.callers, ∃ b ∈ made, SameCall b c
  fate : ∀ b ∈ made,
    b.id ∈ s.callers.map (·.id) ∨ b.id ∈ s.ended.map (·.1) ∨ .cancelled b.id ∈ events

/-- Answers are kept. -/
theorem mem_ended_step {id : UInt64} (h : id ∈ s.ended.map (·.1)) (e : SessionEvent) :
    id ∈ (s.step e).ended.map (·.1) := by
  rcases s.ended_step e with ended | ⟨c, answer, -, ended⟩
  · rwa [ended]
  · rw [ended, List.map_append]
    exact List.mem_append_left _ h

theorem Settled.step (h : s.Settled made events) (e : SessionEvent) :
    (s.step e).Settled (made ++ s.ledger.arriving e) (events ++ [e]) := by
  have change := s.change_step e
  constructor
  case origin =>
    intro c hc
    obtain ⟨b, hb | hb, same⟩ := change.origin hc
    · obtain ⟨a, ha, hid, hkind, hmethod⟩ := h.origin b hb
      exact ⟨a, List.mem_append_left _ ha, hid.trans same.1, hkind.trans same.2.1,
        hmethod.trans same.2.2⟩
    · exact ⟨b, List.mem_append_right _ hb, same⟩
  case fate =>
    have now : ∀ b, b ∈ s.callers ∨ b ∈ s.ledger.arriving e →
        b.id ∈ (s.step e).callers.map (·.id) ∨ b.id ∈ (s.step e).ended.map (·.1) ∨
          .cancelled b.id ∈ events ++ [e] := by
      intro b hb
      rcases change.fate hb with waits | answered | cancelled
      · exact Or.inl waits
      · exact Or.inr (Or.inl answered)
      · rw [← cancelled]
        exact Or.inr (Or.inr (List.mem_append_right _ List.mem_cons_self))
    intro b hb
    rcases List.mem_append.mp hb with hb | hb
    · rcases h.fate b hb with waits | answered | cancelled
      · obtain ⟨c, hc, hid⟩ := List.mem_map.mp waits
        rw [← hid]
        exact now c (Or.inl hc)
      · exact Or.inr (Or.inl (mem_ended_step answered e))
      · exact Or.inr (Or.inr (List.mem_append_left _ cancelled))
    · exact now b (Or.inr hb)

/-- A call with the answer that its caller was given. -/
abbrev Ending := Caller × Except TransportError Reply

/-- The answers given and the counts are those of a list of endings of calls that were made. -/
structure Sampled (s : Session) (start : LabelCounts (String × String)) (made : List Caller)
    (endings : List Ending) : Prop where
  ended : s.ended = endings.map fun p => (p.1.id, p.2)
  samples : s.samples =
    endings.foldl (fun counts p => counts.add (p.1.method, outcome p.2)) start
  known : ∀ p ∈ endings, p.1 ∈ made
  suits : ∀ p ∈ endings, ∀ reply, p.2 = .ok reply → p.1.kind.Suits reply

/-- One more answer, which is counted. -/
theorem Sampled.concat {endings : List Ending} (h : s.Sampled start made endings) {t : Session}
    {made' : List Caller} (more : ∀ c ∈ made, c ∈ made') {p : Ending} (mem : p.1 ∈ made')
    (suits : ∀ reply, p.2 = .ok reply → p.1.kind.Suits reply)
    (tolls : t.tolls = (s.ended ++ [(p.1.id, p.2)], s.samples.add (p.1.method, outcome p.2))) :
    t.Sampled start made' (endings ++ [p]) where
  ended := by
    rw [List.map_append, ← h.ended]
    exact congrArg Prod.fst tolls
  samples := by
    rw [List.foldl_append, ← h.samples]
    exact congrArg Prod.snd tolls
  known q hq := by
    rcases List.mem_append.mp hq with hq | hq
    · exact more q.1 (h.known q hq)
    · exact List.mem_singleton.mp hq ▸ mem
  suits q hq := by
    rcases List.mem_append.mp hq with hq | hq
    · exact h.suits q hq
    · exact List.mem_singleton.mp hq ▸ suits

/-- An event adds the ending that it brings about, or nothing. -/
theorem Sampled.step {endings : List Ending} (h : s.Sampled start made endings)
    (origin : ∀ c ∈ s.callers, ∃ b ∈ made, SameCall b c) (e : SessionEvent) :
    ∃ endings', (s.step e).Sampled start (made ++ s.ledger.arriving e) endings' := by
  have more : ∀ c ∈ made, c ∈ made ++ s.ledger.arriving e :=
    fun c hc => List.mem_append_left _ hc
  have toll := s.toll_step e
  generalize htolls : (s.step e).tolls = tolls at toll
  cases toll with
  | rest =>
    exact ⟨endings, (congrArg Prod.fst htolls).trans h.ended,
      (congrArg Prod.snd htolls).trans h.samples, fun p hp => more p.1 (h.known p hp), h.suits⟩
  | @answer c answer given =>
    -- the answer is counted for the caller as it came
    obtain ⟨b, hb, hid, hkind, hmethod⟩ :
        ∃ b ∈ made ++ s.ledger.arriving e, SameCall b c := by
      rcases given.mem with hc | hc
      · obtain ⟨b, hb, same⟩ := origin c hc
        exact ⟨b, more b hb, same⟩
      · exact ⟨c, List.mem_append_right _ hc, rfl, rfl, rfl⟩
    rw [← hid, ← hmethod] at htolls
    have suits : ∀ reply, answer = .ok reply → b.kind.Suits reply := by
      intro reply h
      rw [hkind]
      exact given.suits h
    exact ⟨endings ++ [(b, answer)], h.concat more hb suits htolls⟩

variable {buffer : Nat} {journal : Journal}

theorem settled_run (events : List SessionEvent) :
    ((created buffer journal).run events).Settled ((created buffer journal).newcomers events)
      events := by
  induction events using List.reverseRecOn with
  | nil => exact ⟨fun c hc => absurd hc List.not_mem_nil, fun b hb => absurd hb List.not_mem_nil⟩
  | append_singleton events e ih =>
    rw [run_concat, newcomers_concat]
    exact ih.step e

theorem exists_sampled_run (buffer : Nat) (journal : Journal) (events : List SessionEvent) :
    ∃ endings, ((created buffer journal).run events).Sampled journal.metrics.calls
      ((created buffer journal).newcomers events) endings := by
  induction events using List.reverseRecOn with
  | nil =>
    exact ⟨[], rfl, rfl, fun p hp => absurd hp List.not_mem_nil,
      fun p hp => absurd hp List.not_mem_nil⟩
  | append_singleton events e ih =>
    obtain ⟨endings, sampled⟩ := ih
    rw [run_concat, newcomers_concat]
    exact sampled.step (settled_run events).origin e

/-- In any run in which ids do not come round again, each call is counted at most once, and exactly
once unless it is still waited for or was given up. It is counted under its method and the outcome
of the answer that its caller is given. This is the outcome that the caller of a raw call or of a
subscription sees. A typed client sees it as well, except for a value that it cannot read: then it
sees a decode error of a call that was counted as answered. -/
theorem sampled_run (buffer : Nat) (journal : Journal) (events : List SessionEvent)
    (few : events.countP SessionEvent.isCall < 2 ^ 64) :
    let s := (created buffer journal).run events
    let made := (created buffer journal).newcomers events
    ∃ endings : List Ending,
      s.ended = endings.map (fun p => (p.1.id, p.2)) ∧
      s.samples = endings.foldl (fun counts p => counts.add (p.1.method, outcome p.2))
        journal.metrics.calls ∧
      (∀ p ∈ endings, p.1 ∈ made) ∧ (endings.map (·.1.id)).Nodup ∧
      (∀ b ∈ made, b.id ∈ endings.map (·.1.id) ∨ b.id ∈ s.callers.map (·.id) ∨
        .cancelled b.id ∈ events) ∧
      (∀ p ∈ endings, ∀ reply, p.2 = .ok reply → p.1.kind.Suits reply) ∧
      ∀ p ∈ endings, p.1.kind = .structured → ∀ (α : Type) (decode : Json.Decoder α),
        seenOutcome (readAnswer p.1.method decode p.2) =
          if misread decode p.2 then "decode_error" else outcome p.2 := by
  intro s made
  obtain ⟨endings, sampled⟩ := exists_sampled_run buffer journal events
  have ids : s.ended.map (·.1) = endings.map (·.1.id) := by
    rw [sampled.ended, List.map_map]
    rfl
  have sound : s.ledger.Sound _ := sound_created_run events few
  refine ⟨endings, sampled.ended, sampled.samples, sampled.known, ?_, fun b hb => ?_,
    sampled.suits, fun p hp structured α decode => ?_⟩
  · rw [← ids]
    exact sound.nodup_ended
  · rcases (settled_run events).fate b hb with waits | answered | cancelled
    · exact Or.inr (Or.inl waits)
    · exact Or.inl (ids ▸ answered)
    · exact Or.inr (Or.inr cancelled)
  · apply seenOutcome_readAnswer
    rw [← structured]
    exact sampled.suits p hp

/-- A call that is answered with a number, one that runs out of time and one that is given up. -/
def threeFates : List SessionEvent :=
  [.called "net_version" .structured (.ofSeconds 5), .called "net_peerCount" .raw (.ofSeconds 5),
   .called "net_version" .structured (.ofSeconds 5), .accepted 1,
   .textArrived "\x7b\"id\":1,\"result\":3\x7d", .woken 1, .expired 2, .cancelled 3]

/-- Two of the three calls are counted. -/
theorem sampled_threeFates :
    threeFates.countP SessionEvent.isCall < 2 ^ 64 ∧
      ((created 4 {}).run threeFates).samples.entries =
        [(("net_version", "ok"), 1), (("net_peerCount", "timeout"), 1)] ∧
      ∃ endings : List Ending, endings.map (·.1.id) = [1, 2] ∧
        ∀ p ∈ endings, p.1.kind = .structured →
          seenOutcome (readAnswer p.1.method Json.readBool p.2) =
            if misread Json.readBool p.2 then "decode_error" else outcome p.2 := by
  have few : threeFates.countP SessionEvent.isCall < 2 ^ 64 := by decide
  obtain ⟨endings, ended, -, -, -, -, -, typed⟩ := sampled_run 4 {} threeFates few
  have ids : ((created 4 {}).run threeFates).ended.map (·.1) = [1, 2] := by cbv
  rw [ended, List.map_map] at ids
  exact ⟨few, by cbv, endings, ids, fun p hp structured => typed p hp structured Bool Json.readBool⟩

/-- A typed call that is answered with a number. -/
def answeredThree : List SessionEvent :=
  [.called "net_version" .structured (.ofSeconds 5), .accepted 1,
   .textArrived "\x7b\"id\":1,\"result\":3\x7d", .woken 1]

/-- A client that wants a truth value sees a decode error, and the call is counted as answered. -/
theorem sampled_misread :
    ((created 4 {}).run answeredThree).samples.entries = [(("net_version", "ok"), 1)] ∧
      ((created 4 {}).run answeredThree).ended.map
        (fun a => seenOutcome (readAnswer "net_version" Json.readBool a.2)) = ["decode_error"] ∧
      ¬ ∀ (α : Type) (decode : Json.Decoder α) (events : List SessionEvent),
        (∀ b ∈ (created 4 {}).newcomers events, b.kind = .structured) →
        ∃ endings : List Ending,
          ((created 4 {}).run events).ended = endings.map (fun p => (p.1.id, p.2)) ∧
          (∀ p ∈ endings, p.1 ∈ (created 4 {}).newcomers events) ∧
          ((created 4 {}).run events).samples = endings.foldl (fun counts p =>
            counts.add (p.1.method, seenOutcome (readAnswer p.1.method decode p.2))) {} := by
  have counted : ((created 4 {}).run answeredThree).samples.entries =
      [(("net_version", "ok"), 1)] := by cbv
  have answered : ((created 4 {}).run answeredThree).ended =
      [(1, .ok (.value (.number (.int 3))))] := by cbv
  have made : (created 4 {}).newcomers answeredThree =
      [⟨1, "net_version", .structured, .ofSeconds 5, true, none⟩] := by cbv
  refine ⟨counted, by rw [answered]; rfl, fun agrees => ?_⟩
  have typed : ∀ b ∈ (created 4 {}).newcomers answeredThree, b.kind = .structured := by
    rw [made]
    intro b hb
    rw [List.mem_singleton.mp hb]
  obtain ⟨endings, ended, known, samples⟩ := agrees Bool Json.readBool answeredThree typed
  rw [answered] at ended
  obtain ⟨p, rfl, hp⟩ := List.map_eq_singleton_iff.mp ended.symm
  have method : p.1.method = "net_version" := by
    have mine := known p List.mem_cons_self
    rw [made] at mine
    rw [List.mem_singleton.mp mine]
  have label : seenOutcome (readAnswer p.1.method Json.readBool p.2) = "decode_error" := by
    rw [(Prod.mk.inj hp).2]
    rfl
  have entries := congrArg LabelCounts.entries samples
  rw [counted, List.foldl_cons, label, method] at entries
  exact absurd entries (by decide)

end Session

end IstanbulMonitor
