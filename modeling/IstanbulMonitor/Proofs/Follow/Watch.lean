import IstanbulMonitor.Follow.Run
import IstanbulMonitor.Proofs.Monitor.Chain
import Mathlib.Logic.Relation

/-!
# A run and a growing chain

A `Network` is a chain and what its node tells of it; `Upstream` is the node at one moment. `Watch`
puts a run and the node side by side. Its events are the steps of either, in any order: a block may
be mined between any two steps of the run, also while a query is out. The node serves every block
up to its head, and once the subscription exists it announces every block that is mined.
-/

set_option autoImplicit false

namespace IstanbulMonitor.Follow

/-- The blocks of a chain, how each is announced, and what the node answers to queries that ask for
no header. -/
structure Network where
  block : UInt64 → Header
  announcement : UInt64 → Json
  others : (q : Query) → Except MonitorError q.Answer

/-- A node at one moment: its head, the heads that it reported so far in order, its head when the
subscription was created, and the announced blocks that the run has not taken in. -/
structure Upstream where
  height : UInt64
  heads : List UInt64 := []
  opened : Option UInt64 := none
  queue : List UInt64 := []

namespace Upstream

/-- One more block. The numbers of a chain never come to the last one of 64 bits. -/
def mine (x : Upstream) : Upstream :=
  if x.height.toNat + 2 < UInt64.size then
    { x with
      height := x.height + 1
      queue := if x.opened.isSome then x.queue ++ [x.height + 1] else x.queue }
  else x

/-- A node after any number of further blocks. -/
def Later : Upstream → Upstream → Prop := Relation.ReflTransGen fun x y => y = x.mine

/-- What mining a block keeps is kept by mining any number of them. -/
theorem Later.keeps {P : Upstream → Prop} (step : ∀ x, P x → P x.mine) {x y : Upstream}
    (h : Later x y) (hx : P x) : P y := by
  induction h with
  | refl => exact hx
  | tail _ hz ih =>
      subst hz
      exact step _ ih

theorem later_mine (x : Upstream) : Later x x.mine := .single rfl

@[simp] theorem heads_mine (x : Upstream) : x.mine.heads = x.heads := by
  unfold mine
  split <;> rfl

@[simp] theorem opened_mine (x : Upstream) : x.mine.opened = x.opened := by
  unfold mine
  split <;> rfl

/-- The number of the first block that a run takes in after the replay, once that is settled: the
one after the head at the creation of the subscription, or the first polled head, which is the
second head that the node reports. -/
def joined? (mode : FollowMode) (x : Upstream) : Option Nat :=
  match mode with
  | .subscribe => x.opened.map fun height => height.toNat + 1
  | .poll => x.heads[1]?.map UInt64.toNat

/-- Mining raises the head by one, unless it stands at its last number. -/
theorem mine_cases (x : Upstream) :
    x.mine = x ∨
      (x.height.toNat + 2 < UInt64.size ∧ x.mine.height.toNat = x.height.toNat + 1 ∧
        x.mine.queue = if x.opened.isSome then x.queue ++ [x.mine.height] else x.queue) := by
  by_cases hroom : x.height.toNat + 2 < UInt64.size
  · refine Or.inr ⟨hroom, ?_, ?_⟩
    · simp only [mine, hroom, if_true]
      exact toNat_next (Nat.lt_of_succ_lt hroom)
    · simp only [mine, hroom, if_true]
  · exact Or.inl (by simp only [mine, hroom, if_false])

end Upstream

namespace Network

/-- The node answers with its chain as it stands. It remembers the heads that it reports. -/
def gateway (net : Network) : Gateway Upstream
  | .header .latest, x =>
    (.ok (some (net.block x.height)), { x with heads := x.heads ++ [x.height] })
  | .header (.number n), x => (.ok (if n ≤ x.height then some (net.block n) else none), x)
  | q, x => (net.others q, x)

/-- Blocks stand under their own numbers and are announced by them. -/
structure Honest (net : Network) : Prop where
  numbered : ∀ n, (net.block n).number = n
  announced : ∀ n, announcedNumber (net.announcement n) = .ok n

variable {net : Network}

theorem Honest.gateway (honest : net.Honest) : net.gateway.Honest net.block where
  numbered := honest.numbered
  byNumber := by
    intro n x h hserved
    simp only [Network.gateway, Except.ok.injEq] at hserved
    split at hserved
    · exact (Option.some.inj hserved).symm
    · cases hserved
  latest := by
    intro x h hserved
    cases hserved
    rw [honest.numbered]

/-- The node has a block. -/
def There (n : UInt64) (x : Upstream) : Prop := n ≤ x.height

/-- The node serves every block up to its head. -/
theorem reliable_gateway (net : Network) : net.gateway.Reliable net.block There := by
  intro n x hn
  unfold There at hn
  simp only [Network.gateway, if_pos hn]

end Network

/-- A run and the node that it follows. -/
structure Watch where
  run : Run
  node : Upstream

/-- A step of the node or of the run. -/
inductive WatchEvent where
  /-- A block is mined. -/
  | mine
  /-- The run starts. -/
  | start
  /-- The query that is out is answered. -/
  | answer
  /-- The run goes on after its present work. -/
  | conclude
  /-- The node creates the subscription. -/
  | create
  /-- The run hears of the subscription. -/
  | created
  /-- The run takes the next announced head. -/
  | announce
  /-- It is time to poll. -/
  | tick
  /-- Somebody asks the run to stop. -/
  | shutdown
  /-- The run looks whether it is to stop. -/
  | heed

namespace Watch

/-- The query that is out is answered by the node. -/
def answer (net : Network) (w : Watch) : Watch :=
  match w.run.stage with
  | .working held (.ask m q resume) =>
    match net.gateway q w.node with
    | (answer, node) => ⟨{ w.run with stage := .working held (resume answer m) }, node⟩
  | _ => w

/-- The subscription exists at the node, if the run waits for it. -/
def create (w : Watch) : Watch :=
  match w.run.stage, w.node.opened with
  | .waiting _ .subscribe, none => { w with node := { w.node with opened := some w.node.height } }
  | _, _ => w

/-- The run hears that the subscription exists. -/
def created (w : Watch) : Watch :=
  match w.node.opened with
  | some _ => { w with run := w.run.subscribed (.ok ()) }
  | none => w

/-- The next announced head is taken in by a run that waits for it. -/
def announce (net : Network) (w : Watch) : Watch :=
  match w.run.stage, w.node.queue with
  | .waiting _ (.head _), n :: queue =>
    ⟨w.run.announced (net.announcement n), { w.node with queue }⟩
  | _, _ => w

/-- One event; it does nothing where it cannot happen. -/
def step (net : Network) (w : Watch) : WatchEvent → Watch
  | .mine => { w with node := w.node.mine }
  | .start => { w with run := w.run.start }
  | .answer => w.answer net
  | .conclude => { w with run := w.run.conclude }
  | .create => w.create
  | .created => w.created
  | .announce => w.announce net
  | .tick => { w with run := w.run.ticked }
  | .shutdown => { w with run := w.run.shutdown }
  | .heed => { w with run := w.run.heed }

/-- A list of events. -/
def after (net : Network) (w : Watch) (events : List WatchEvent) : Watch :=
  events.foldl (fun w e => w.step net e) w

end Watch

end IstanbulMonitor.Follow
