import IstanbulMonitor.Monitor.Operations

/-!
# Inquiries against a node

A `Gateway` is a node as a monitor sees it: it answers queries in whatever way and may change while
it does. `Inquiry.runWith` runs an inquiry against it, and `Inquiry.Meets` says what holds of the
result, the monitor and the node when the inquiry ends, with one rule for each way an inquiry is
put together.
-/

set_option autoImplicit false

namespace IstanbulMonitor

/-- A node behind its methods: how it answers a query, and the node afterwards. -/
abbrev Gateway (γ : Type) := (q : Query) → γ → Except MonitorError q.Answer × γ

namespace Inquiry

variable {ε α β γ : Type}

/-- What an inquiry ends with, the monitor and the node afterwards. -/
def runWith (g : Gateway γ) (i : Inquiry ε α) (m : Monitor) (x : γ) :
    Except ε α × Monitor × γ :=
  (i m).run (fun q m x => ((g q x).1, m, (g q x).2)) x

theorem runWith_ofOperation (g : Gateway γ) (f : Monitor → Except ε α × Monitor) (m : Monitor)
    (x : γ) : (ofOperation f).runWith g m x = ((f m).1, (f m).2, x) := rfl

theorem runWith_ask (g : Gateway γ) (q : Query) (m : Monitor) (x : γ) :
    (ask q).runWith g m x = ((g q x).1, m, (g q x).2) := rfl

theorem runWith_bind (g : Gateway γ) (i : Inquiry ε α) (next : α → Inquiry ε β) (m : Monitor)
    (x : γ) :
    (i >>= next).runWith g m x =
      match i.runWith g m x with
      | (.ok a, m, x) => (next a).runWith g m x
      | (.error e, m, x) => (.error e, m, x) := by
  show ((i m).andThen _).run _ x = _
  rw [Dialogue.run_andThen]
  unfold runWith
  rcases (i m).run (fun q m x => ((g q x).1, m, (g q x).2)) x with ⟨result, m', x'⟩
  cases result <;> rfl

/-- An inquiry whose result is not looked at. -/
theorem runWith_discard (g : Gateway γ) (i : Inquiry ε α) (m : Monitor) (x : γ) :
    (i >>= fun _ => pure () : Inquiry ε Unit).runWith g m x =
      ((i.runWith g m x).1.map fun _ => (), (i.runWith g m x).2) := by
  rw [runWith_bind]
  rcases i.runWith g m x with ⟨result, m', x'⟩
  cases result <;> rfl

theorem runWith_attempt {δ : Type} (g : Gateway γ) (i : Inquiry ε α) (m : Monitor) (x : γ) :
    (i.attempt : Inquiry δ (Except ε α)).runWith g m x =
      (.ok (i.runWith g m x).1, (i.runWith g m x).2) := by
  show ((i m).andThen _).run _ x = _
  rw [Dialogue.run_andThen]
  rfl

/-- From a state with `P`, an inquiry ends with a result, and then `Q` holds of it and of the state,
or with an error, and then `E` holds of the state. -/
def Meets (g : Gateway γ) (P : Monitor → γ → Prop) (i : Inquiry ε α)
    (Q : α → Monitor → γ → Prop) (E : Monitor → γ → Prop) : Prop :=
  ∀ m x, P m x →
    match i.runWith g m x with
    | (.ok a, m, x) => Q a m x
    | (.error _, m, x) => E m x

namespace Meets

variable {g : Gateway γ} {P P' E : Monitor → γ → Prop} {Q Q' : α → Monitor → γ → Prop}
  {i : Inquiry ε α}

theorem weaken (h : Meets g P' i Q' E) (pre : ∀ m x, P m x → P' m x)
    (post : ∀ a m x, Q' a m x → Q a m x) : Meets g P i Q E := by
  intro m x hP
  have hi := h m x (pre m x hP)
  rcases hrun : i.runWith g m x with ⟨result, m', x'⟩
  rw [hrun] at hi
  cases result with
  | ok a => exact post a m' x' hi
  | error e => exact hi

theorem weaken_error {E' : Monitor → γ → Prop} (h : Meets g P i Q E')
    (errors : ∀ m x, E' m x → E m x) : Meets g P i Q E := by
  intro m x hP
  have hi := h m x hP
  rcases hrun : i.runWith g m x with ⟨result, m', x'⟩
  rw [hrun] at hi
  cases result with
  | ok a => exact hi
  | error e => exact errors m' x' hi

/-- If the same is wanted of the state whatever the result is, the result need not be looked at. -/
theorem iff_after {R : Monitor → γ → Prop} :
    Meets g P i (fun _ => R) R ↔
      ∀ m x, P m x → R (i.runWith g m x).2.1 (i.runWith g m x).2.2 := by
  have hcase : ∀ m x,
      (match i.runWith g m x with
        | (.ok _, m, x) => R m x
        | (.error _, m, x) => R m x) ↔ R (i.runWith g m x).2.1 (i.runWith g m x).2.2 := by
    intro m x
    rcases i.runWith g m x with ⟨result, m', x'⟩
    cases result <;> exact Iff.rfl
  exact forall₂_congr fun m x => imp_congr_right fun _ => hcase m x

theorem pure {a : α} (h : ∀ m x, P m x → Q a m x) :
    Meets g P (pure a : Inquiry ε α) Q E := h

theorem fail {e : ε} (h : ∀ m x, P m x → E m x) :
    Meets g P (Inquiry.fail e : Inquiry ε α) Q E := h

theorem change {f : Monitor → Monitor} {R : Unit → Monitor → γ → Prop}
    (h : ∀ m x, P m x → R () (f m) x) : Meets g P (Inquiry.change f : Inquiry ε Unit) R E := h

/-- A change of the monitor, and a result that does not depend on it. -/
theorem change_pure {f : Monitor → Monitor} {a : α} (h : ∀ m x, P m x → Q a (f m) x) :
    Meets g P (Inquiry.change f >>= fun _ => Pure.pure a : Inquiry ε α) Q E := h

theorem current {R : Monitor → Monitor → γ → Prop} (h : ∀ m x, P m x → R m m x) :
    Meets g P (Inquiry.current : Inquiry ε Monitor) R E := h

theorem ask {q : Query} {R : q.Answer → Monitor → γ → Prop}
    (answered : ∀ m x a, P m x → (g q x).1 = .ok a → R a m (g q x).2)
    (failed : ∀ m x, P m x → E m (g q x).2) : Meets g P (Inquiry.ask q) R E := by
  intro m x hP
  rw [runWith_ask]
  cases hq : (g q x).1 with
  | ok a => exact answered m x a hP hq
  | error e => exact failed m x hP

theorem ofOperation {f : Monitor → Except ε α × Monitor}
    (done : ∀ m x a, P m x → (f m).1 = .ok a → Q a (f m).2 x)
    (failed : ∀ m x e, P m x → (f m).1 = .error e → E (f m).2 x) :
    Meets g P (Inquiry.ofOperation f) Q E := by
  intro m x hP
  rw [runWith_ofOperation]
  cases hf : (f m).1 with
  | ok a => exact done m x a hP hf
  | error e => exact failed m x e hP hf

theorem bind {R : β → Monitor → γ → Prop} {next : α → Inquiry ε β} (first : Meets g P i Q E)
    (rest : ∀ a, Meets g (Q a) (next a) R E) : Meets g P (i >>= next) R E := by
  intro m x hP
  rw [runWith_bind]
  have hi := first m x hP
  rcases hrun : i.runWith g m x with ⟨result, m', x'⟩
  rw [hrun] at hi
  cases result with
  | ok a => exact rest a m' x' hi
  | error e => exact hi

end Meets

end Inquiry

end IstanbulMonitor
