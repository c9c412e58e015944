import IstanbulMonitor.Proofs.Monitor.Gateway

/-!
# Inquiries against a node that changes by itself

Between two queries of an inquiry time passes, and the node may have changed when it hears the next
one. `Inquiry.Ensures` says of every such run that an invariant holds whenever a query is out, and
what holds of the result, the monitor and the node in the end. There is one rule for each way an
inquiry is put together. If the node changes by queries only, the run is that of `Inquiry.runWith`
(`Inquiry.Ensures.runWith`). An inquiry `Upholds` a property of the monitor if it leaves it true
however it ends.
-/

set_option autoImplicit false

namespace IstanbulMonitor

namespace Dialogue

variable {α β γ : Type}

/-- While the node changes along `later` between the queries, `I` holds whenever one is out, and `Q`
holds in the end. -/
def Ensures (g : Gateway γ) (later : γ → γ → Prop) (I : Monitor → γ → Prop)
    (Q : α → Monitor → γ → Prop) : Dialogue α → γ → Prop
  | .done m a, x => Q a m x
  | .ask m q resume, x =>
    I m x ∧ ∀ y, later x y → (resume (g q y).1 m).Ensures g later I Q (g q y).2

variable {g : Gateway γ} {later : γ → γ → Prop} {I : Monitor → γ → Prop}

theorem Ensures.weaken {Q R : α → Monitor → γ → Prop} (post : ∀ a m x, Q a m x → R a m x)
    {d : Dialogue α} {x : γ} (h : d.Ensures g later I Q x) : d.Ensures g later I R x := by
  induction d generalizing x with
  | done m a => exact post a m x h
  | ask m q resume ih =>
      refine ⟨h.1, ?_⟩
      intro y hy
      exact ih (g q y).1 m (h.2 y hy)

/-- What holds whenever a query is out may be weakened as well. -/
theorem Ensures.weaken_waiting {J : Monitor → γ → Prop} {Q : α → Monitor → γ → Prop}
    (waiting : ∀ m x, I m x → J m x) {d : Dialogue α} {x : γ} (h : d.Ensures g later I Q x) :
    d.Ensures g later J Q x := by
  induction d generalizing x with
  | done m a => exact h
  | ask m q resume ih =>
      refine ⟨waiting m x h.1, ?_⟩
      intro y hy
      exact ih (g q y).1 m (h.2 y hy)

theorem Ensures.andThen {Q : α → Monitor → γ → Prop} {R : β → Monitor → γ → Prop}
    {next : Monitor → α → Dialogue β}
    (rest : ∀ a m x, Q a m x → (next m a).Ensures g later I R x)
    {d : Dialogue α} {x : γ} (h : d.Ensures g later I Q x) :
    (d.andThen next).Ensures g later I R x := by
  induction d generalizing x with
  | done m a => exact rest a m x h
  | ask m q resume ih =>
      refine ⟨h.1, ?_⟩
      intro y hy
      exact ih (g q y).1 m (h.2 y hy)

/-- What a dialogue ensures, and what it ensures besides. -/
theorem Ensures.and {Q R : α → Monitor → γ → Prop} {d : Dialogue α} {x : γ}
    (h : d.Ensures g later I Q x) (h' : d.Ensures g later I R x) :
    d.Ensures g later I (fun a m x => Q a m x ∧ R a m x) x := by
  induction d generalizing x with
  | done m a => exact ⟨h, h'⟩
  | ask m q resume ih =>
      refine ⟨h.1, ?_⟩
      intro y hy
      exact ih (g q y).1 m (h.2 y hy) (h'.2 y hy)

/-- A dialogue stays as it is while the node changes, if what it ensures does. -/
theorem Ensures.of_later {Q : α → Monitor → γ → Prop} (trans : ∀ x y z, later x y → later y z →
      later x z) (invariant : ∀ m x y, later x y → I m x → I m y)
    (post : ∀ a m x y, later x y → Q a m x → Q a m y) {d : Dialogue α} {x y : γ}
    (h : d.Ensures g later I Q x) (hxy : later x y) : d.Ensures g later I Q y := by
  cases d with
  | done m a => exact post a m x y hxy h
  | ask m q resume =>
      refine ⟨invariant m x y hxy h.1, ?_⟩
      intro z hz
      exact h.2 z (trans x y z hxy hz)

/-- The answer of the node takes a dialogue on. -/
theorem Ensures.answered {Q : α → Monitor → γ → Prop} (refl : ∀ x, later x x) {m : Monitor}
    {q : Query} {resume : Except MonitorError q.Answer → Monitor → Dialogue α} {x : γ}
    (h : (Dialogue.ask m q resume).Ensures g later I Q x) :
    (resume (g q x).1 m).Ensures g later I Q (g q x).2 :=
  h.2 x (refl x)

/-- A node that only changes by queries. -/
theorem Ensures.run {Q : α → Monitor → γ → Prop} {d : Dialogue α} {x : γ}
    (h : d.Ensures g Eq I Q x) :
    let after := d.run (fun q m x => ((g q x).1, m, (g q x).2)) x
    Q after.1 after.2.1 after.2.2 := by
  induction d generalizing x with
  | done m a => exact h
  | ask m q resume ih => exact ih (g q x).1 m (h.2 x rfl)

/-- What holds after the run is ensured, if nothing is wanted of the time between. -/
theorem Ensures.of_run {Q : α → Monitor → γ → Prop} {d : Dialogue α} {x : γ}
    (h : let after := d.run (fun q m x => ((g q x).1, m, (g q x).2)) x
      Q after.1 after.2.1 after.2.2) : d.Ensures g Eq (fun _ _ => True) Q x := by
  induction d generalizing x with
  | done m a => exact h
  | ask m q resume ih =>
      refine ⟨trivial, ?_⟩
      rintro _ rfl
      exact ih (g q x).1 m h

end Dialogue

namespace Inquiry

variable {ε δ α β γ : Type}

/-- From a state with `P`, an inquiry keeps `I` whenever a query is out. It ends with a result, and
then `Q` holds of it and of the state, or with an error, and then `E` does. -/
def Ensures (g : Gateway γ) (later : γ → γ → Prop) (I P : Monitor → γ → Prop) (i : Inquiry ε α)
    (Q : α → Monitor → γ → Prop) (E : ε → Monitor → γ → Prop) : Prop :=
  ∀ m x, P m x → (i m).Ensures g later I
    (fun result m x =>
      match result with
      | .ok a => Q a m x
      | .error e => E e m x) x

namespace Ensures

variable {g : Gateway γ} {later : γ → γ → Prop} {I P P' : Monitor → γ → Prop}
  {Q Q' : α → Monitor → γ → Prop} {E E' : ε → Monitor → γ → Prop} {i : Inquiry ε α}

theorem weaken (h : Ensures g later I P' i Q' E') (pre : ∀ m x, P m x → P' m x)
    (post : ∀ a m x, Q' a m x → Q a m x) (errors : ∀ e m x, E' e m x → E e m x) :
    Ensures g later I P i Q E := by
  intro m x hP
  refine Dialogue.Ensures.weaken ?_ (h m x (pre m x hP))
  intro result m' x' hQ
  cases result with
  | ok a => exact post a m' x' hQ
  | error e => exact errors e m' x' hQ

theorem or_left {R : α → Monitor → γ → Prop} (h : Ensures g later I P i Q E) :
    Ensures g later I P i (fun a m x => Q a m x ∨ R a m x) E :=
  h.weaken (fun _ _ h => h) (fun _ _ _ h => .inl h) fun _ _ _ h => h

theorem and (h : Ensures g later I P i Q E) (h' : Ensures g later I P' i Q' E') :
    Ensures g later I (fun m x => P m x ∧ P' m x) i (fun a m x => Q a m x ∧ Q' a m x)
      fun e m x => E e m x ∧ E' e m x := by
  rintro m x ⟨hP, hP'⟩
  refine ((h m x hP).and (h' m x hP')).weaken ?_
  intro result m' x' both
  cases result <;> exact both

theorem pure {a : α} (h : ∀ m x, P m x → Q a m x) :
    Ensures g later I P (pure a : Inquiry ε α) Q E := h

theorem fail {e : ε} (h : ∀ m x, P m x → E e m x) :
    Ensures g later I P (Inquiry.fail e : Inquiry ε α) Q E := h

theorem change {f : Monitor → Monitor} {R : Unit → Monitor → γ → Prop}
    (h : ∀ m x, P m x → R () (f m) x) :
    Ensures g later I P (Inquiry.change f : Inquiry ε Unit) R E := h

/-- A change of the monitor, and a result that does not depend on it. -/
theorem change_pure {f : Monitor → Monitor} {a : α} (h : ∀ m x, P m x → Q a (f m) x) :
    Ensures g later I P (Inquiry.change f >>= fun _ => Pure.pure a : Inquiry ε α) Q E := h

theorem current {R : Monitor → Monitor → γ → Prop} (h : ∀ m x, P m x → R m m x) :
    Ensures g later I P (Inquiry.current : Inquiry ε Monitor) R E := h

theorem ofOperation {f : Monitor → Except ε α × Monitor}
    (done : ∀ m x a, P m x → (f m).1 = .ok a → Q a (f m).2 x)
    (failed : ∀ m x e, P m x → (f m).1 = .error e → E e (f m).2 x) :
    Ensures g later I P (Inquiry.ofOperation f) Q E := by
  intro m x hP
  cases hf : (f m).1 with
  | ok a =>
      have hdone := done m x a hP hf
      simpa only [Inquiry.ofOperation, Dialogue.Ensures, hf] using hdone
  | error e =>
      have hfailed := failed m x e hP hf
      simpa only [Inquiry.ofOperation, Dialogue.Ensures, hf] using hfailed

theorem ask {q : Query} {R : q.Answer → Monitor → γ → Prop} {F : MonitorError → Monitor → γ → Prop}
    (out : ∀ m x, P m x → I m x)
    (answered : ∀ m x y a, P m x → later x y → (g q y).1 = .ok a → R a m (g q y).2)
    (failed : ∀ m x y e, P m x → later x y → (g q y).1 = .error e → F e m (g q y).2) :
    Ensures g later I P (Inquiry.ask q) R F := by
  intro m x hP
  refine ⟨out m x hP, ?_⟩
  intro y hy
  cases hq : (g q y).1 with
  | ok a => exact answered m x y a hP hy hq
  | error e => exact failed m x y e hP hy hq

theorem bind {R : β → Monitor → γ → Prop} {next : α → Inquiry ε β}
    (first : Ensures g later I P i Q E) (rest : ∀ a, Ensures g later I (Q a) (next a) R E) :
    Ensures g later I P (i >>= next) R E := by
  intro m x hP
  refine Dialogue.Ensures.andThen ?_ (first m x hP)
  intro result m' x' hQ
  cases result with
  | ok a => exact rest a m' x' hQ
  | error e => exact hQ

/-- What comes after an inquiry that cannot fail. -/
theorem bind_sure {R : β → Monitor → γ → Prop} {next : α → Inquiry ε β}
    (first : Ensures g later I P i Q fun _ _ _ => False)
    (rest : ∀ a, Ensures g later I (Q a) (next a) R E) :
    Ensures g later I P (i >>= next) R E :=
  bind (first.weaken (fun _ _ h => h) (fun _ _ _ h => h) fun _ _ _ h => h.elim) rest

/-- The outcome of an attempt is a result in any case. -/
theorem attempt {R : Except ε α → Monitor → γ → Prop} {F : δ → Monitor → γ → Prop}
    (h : Ensures g later I P i (fun a => R (.ok a)) fun e => R (.error e)) :
    Ensures g later I P (i.attempt : Inquiry δ (Except ε α)) R F := by
  intro m x hP
  refine Dialogue.Ensures.andThen ?_ (h m x hP)
  intro result m' x' hQ
  cases result <;> exact hQ

theorem mapError {f : ε → δ} {F : δ → Monitor → γ → Prop}
    (h : Ensures g later I P i Q fun e => F (f e)) : Ensures g later I P (i.mapError f) Q F := by
  intro m x hP
  refine Dialogue.Ensures.andThen ?_ (h m x hP)
  intro result m' x' hQ
  cases result <;> exact hQ

/-- Against a node that only changes by queries, an inquiry ends as it is run. -/
theorem runWith (h : Ensures g Eq I P i Q E) {m : Monitor} {x : γ} (hP : P m x) :
    match i.runWith g m x with
    | (.ok a, m, x) => Q a m x
    | (.error e, m, x) => E e m x := by
  have hrun := (h m x hP).run
  unfold Inquiry.runWith
  rcases hafter : (i m).run (fun q m x => ((g q x).1, m, (g q x).2)) x with ⟨result, m', x'⟩
  rw [hafter] at hrun
  cases result <;> exact hrun

/-- An inquiry that meets something also ensures it, against a node that only changes by queries. -/
theorem of_meets {F : Monitor → γ → Prop} (h : Meets g P i Q F) :
    Ensures g Eq (fun _ _ => True) P i Q fun _ => F := by
  intro m x hP
  apply Dialogue.Ensures.of_run
  have hi := h m x hP
  unfold Inquiry.runWith at hi
  rcases hafter : (i m).run (fun q m x => ((g q x).1, m, (g q x).2)) x with ⟨result, m', x'⟩
  rw [hafter] at hi
  cases result <;> exact hi

end Ensures

/-- An inquiry that upholds a property of the monitor, however it ends. -/
def Upholds (g : Gateway γ) (later : γ → γ → Prop) (P : Monitor → Prop) (i : Inquiry ε α) : Prop :=
  i.Ensures g later (fun _ _ => True) (fun m _ => P m) (fun _ m _ => P m) fun _ m _ => P m

namespace Upholds

variable {g : Gateway γ} {later : γ → γ → Prop} {P : Monitor → Prop} {i : Inquiry ε α}

theorem pure (a : α) : Upholds g later P (pure a : Inquiry ε α) := Ensures.pure fun _ _ h => h

theorem fail (e : ε) : Upholds g later P (fail e : Inquiry ε α) := Ensures.fail fun _ _ h => h

theorem ask (q : Query) : Upholds g later P (ask q) :=
  Ensures.ask (fun _ _ _ => trivial) (fun _ _ _ _ h _ _ => h) fun _ _ _ _ h _ _ => h

theorem current : Upholds g later P (current : Inquiry ε Monitor) := Ensures.current fun _ _ h => h

theorem change {f : Monitor → Monitor} (keeps : ∀ m, P m → P (f m)) :
    Upholds g later P (change f : Inquiry ε Unit) :=
  Ensures.change fun m _ h => keeps m h

theorem ofOperation {f : Monitor → Except ε α × Monitor} (keeps : ∀ m, P m → P (f m).2) :
    Upholds g later P (ofOperation f) :=
  Ensures.ofOperation (fun m _ _ h _ => keeps m h) fun m _ _ h _ => keeps m h

theorem bind {next : α → Inquiry ε β} (first : Upholds g later P i)
    (rest : ∀ a, Upholds g later P (next a)) : Upholds g later P (i >>= next) :=
  Ensures.bind first rest

theorem attempt (h : Upholds g later P i) :
    Upholds g later P (i.attempt : Inquiry δ (Except ε α)) :=
  Ensures.attempt h

theorem mapError {f : ε → δ} (h : Upholds g later P i) : Upholds g later P (i.mapError f) :=
  Ensures.mapError h

/-- Against a node that only changes by queries, the property holds in the end. -/
theorem runWith (h : Upholds g Eq P i) {m : Monitor} (hm : P m) (x : γ) :
    P (i.runWith g m x).2.1 := by
  have hrun := Ensures.runWith h (x := x) hm
  rcases hafter : i.runWith g m x with ⟨result, m', x'⟩
  rw [hafter] at hrun
  cases result <;> exact hrun

end Upholds

end Inquiry

end IstanbulMonitor
