import IstanbulMonitor.Follow.Run
import IstanbulMonitor.Proofs.Monitor.Gateway

/-!
# Notes of what polling does

The dialogues of a run that polls end with a monitor and with the place that the run has come to.
They do not tell which blocks they handed to be processed, nor which one they asked for in vain.
`catchUpNoted` and `pollNoted` are the same dialogues with a note of that kept beside the result;
without the note they are `catchUp` and `poll` (`map_snd_catchUpNoted`, `map_snd_pollNoted`).
`Run.notes` are the notes of a run that is given one tick after another.
-/

set_option autoImplicit false

namespace IstanbulMonitor

namespace Inquiry

variable {ε α β δ : Type}

theorem bind_assoc (i : Inquiry ε α) (f : α → Inquiry ε β) (k : β → Inquiry ε δ) :
    i >>= f >>= k = i >>= fun a => f a >>= k := by
  funext m
  show ((i m).andThen _).andThen _ = (i m).andThen _
  rw [Dialogue.andThen_assoc]
  congr
  funext m result
  cases result <;> rfl

theorem id_map (i : Inquiry ε α) : id <$> i = i := by
  funext m
  show (i m).andThen _ = i m
  induction i m with
  | done m result => cases result <;> rfl
  | ask m q resume ih => simp only [Dialogue.andThen, ih]

instance : LawfulMonad (Inquiry ε) :=
  LawfulMonad.mk' _ id_map (fun _ _ => rfl) bind_assoc

end Inquiry

namespace Follow

/-! ## Noted dialogues -/

/-- What a run does at a tick: the head that it hears of, the blocks that it hands to be processed,
and the block that it asks for in vain. -/
structure Tick where
  head : Option UInt64 := none
  handed : List Header := []
  missed : Option UInt64 := none

/-- The blocks that are asked for by their numbers. -/
def Tick.asked (t : Tick) : List UInt64 := t.handed.map (·.number) ++ t.missed.toList

/-- `catchUp` with a note. -/
def catchUpNoted (head : UInt64) : Nat → Progress → Inquiry RunError (Tick × Progress)
  | 0, p => return ({ head }, p)
  | n + 1, p => do
    let number := p.last + 1
    match ← (Monitor.header (.number number)).attempt with
    | .error e =>
      tolerate .headerNotFetched e
      return ({ head, missed := number }, p)
    | .ok h =>
      process h p.previous
      let (rest, p) ← catchUpNoted head n ⟨number, h.timestamp⟩
      return ({ rest with handed := h :: rest.handed }, p)

/-- `poll` with a note. -/
def pollNoted (p : Progress) : Inquiry RunError (Option (Tick × Progress)) := do
  match ← Monitor.headNumber.attempt with
  | .error e =>
    tolerate .headNotFetched e
    return some ({}, p)
  | .ok head =>
    match ahead? p.last head with
    | none => return none
    | some n => return some (← catchUpNoted head n p)

theorem map_snd_catchUpNoted (head : UInt64) (n : Nat) (p : Progress) :
    Prod.snd <$> catchUpNoted head n p = catchUp n p := by
  induction n generalizing p with
  | zero => rfl
  | succ n ih =>
    simp only [catchUpNoted, catchUp, map_bind]
    congr
    funext result
    cases result with
    | error e => simp only [map_bind, map_pure]
    | ok h => simp only [map_bind, bind_pure_comp, Functor.map_map, ← ih]

theorem map_snd_pollNoted (p : Progress) : Option.map Prod.snd <$> pollNoted p = poll p := by
  simp only [pollNoted, poll, map_bind]
  congr
  funext result
  cases result with
  | error e => simp only [map_bind, map_pure, Option.map_some]
  | ok head =>
    dsimp only
    cases ahead? p.last head with
    | none => simp only [map_pure, Option.map_none]
    | some n =>
      simp only [bind_pure_comp, Functor.map_map, Option.map_some, ← map_snd_catchUpNoted head n p]

/-! ## Noted runs -/

namespace Run

variable {γ : Type}

/-- A run at work is done with it, and goes on. The node stands at `x` when the work begins. -/
def serve (g : Gateway γ) (r : Run) (x : γ) : Run :=
  match r.stage with
  | .working held d =>
    match d.run (fun q m x => ((g q x).1, m, (g q x).2)) x with
    | (result, m, _) => { r with stage := .working held (.done m result) }.conclude
  | _ => r

/-- The run after some ticks. At each of them the node stands as it happens to. -/
def polled (g : Gateway γ) (r : Run) (xs : List γ) : Run :=
  xs.foldl (fun r x => r.ticked.serve g x) r

/-- What the run does at a tick. -/
def noted (g : Gateway γ) (r : Run) (x : γ) : Tick :=
  match r.stage with
  | .waiting m (.tick p) =>
    match (pollNoted p).runWith g m x with
    | (.ok (some (tick, _)), _, _) => tick
    | _ => {}
  | _ => {}

/-- What the run does at some ticks. -/
def notes (g : Gateway γ) (r : Run) : List γ → List Tick
  | [] => []
  | x :: xs => r.noted g x :: (r.ticked.serve g x).notes g xs

variable {g : Gateway γ} {r : Run} {m m' : Monitor} {x x' : γ}

/-- Work that succeeds takes the run to what comes next. -/
theorem serve_work {held : Bool} {i : Inquiry RunError Next} {next : Next}
    (hrun : i.runWith g m x = (.ok next, m', x')) :
    ((r.work held m i).serve g x).stage =
      (({ r with stage := .working held (.done m' (.ok next)) } : Run).go m' next).stage := by
  unfold Inquiry.runWith at hrun
  simp only [serve, work, hrun]
  rfl

/-- The note of a tick and the run after it come from the same dialogue. -/
theorem serve_ticked {p p' : Progress} {tick : Tick} (hstage : r.stage = .waiting m (.tick p))
    (hrun : (pollNoted p).runWith g m x = (.ok (some (tick, p')), m', x')) :
    r.noted g x = tick ∧ (r.ticked.serve g x).stage = .waiting m' (.tick p') := by
  constructor
  · simp only [noted, hstage, hrun]
  · have hpoll : (poll p).runWith g m x = (.ok (some p'), m', x') := by
      rw [← map_snd_pollNoted, ← bind_pure_comp, Inquiry.runWith_bind, hrun]
      rfl
    have hwork : (do return (← poll p).elim .panic .tick : Inquiry RunError Next).runWith g m x =
        (.ok (.tick p'), m', x') := by
      rw [Inquiry.runWith_bind, hpoll]
      rfl
    simp only [ticked, hstage]
    exact serve_work hwork

end Run

end Follow

end IstanbulMonitor
