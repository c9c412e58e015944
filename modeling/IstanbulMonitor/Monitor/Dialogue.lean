import IstanbulMonitor.Monitor.Query
import IstanbulMonitor.Monitor.State

/-!
# Dialogues with the node

An operation that needs answers of the node is a `Dialogue`: it is done, or it
asks a query and goes on with the answer. While a query is out the monitor is
given away, and it comes back with the answer; so others may use it in the
meantime. `Dialogue.run` gives every query to one who answers it.

An `Inquiry` is a dialogue to be started, which ends with a result or an error.
-/

set_option autoImplicit false

namespace IstanbulMonitor

/-- An operation in progress. -/
inductive Dialogue (α : Type) where
  | done (monitor : Monitor) (result : α)
  | ask (monitor : Monitor) (query : Query)
      (resume : Except MonitorError query.Answer → Monitor → Dialogue α)

namespace Dialogue

variable {α β : Type}

/-- The monitor as it stands. -/
def monitor : Dialogue α → Monitor
  | .done m _ => m
  | .ask m _ _ => m

/-- A dialogue that another one follows. -/
def andThen (next : Monitor → α → Dialogue β) : Dialogue α → Dialogue β
  | .done m a => next m a
  | .ask m q resume => .ask m q fun answer m => (resume answer m).andThen next

/-- The dialogue with every query answered by `respond`, which may keep a state of its own. -/
def run {γ : Type}
    (respond : (q : Query) → Monitor → γ → Except MonitorError q.Answer × Monitor × γ) :
    γ → Dialogue α → α × Monitor × γ
  | x, .done m a => (a, m, x)
  | x, .ask m q resume =>
    match respond q m x with
    | (answer, m, x) => run respond x (resume answer m)

theorem andThen_assoc {γ : Type} (d : Dialogue α) (f : Monitor → α → Dialogue β)
    (g : Monitor → β → Dialogue γ) :
    (d.andThen f).andThen g = d.andThen fun m a => (f m a).andThen g := by
  induction d with
  | done m a => rfl
  | ask m q resume ih => simp only [andThen, ih]

/-- One dialogue after another is run by running the first and then the second. -/
theorem run_andThen {γ : Type}
    (respond : (q : Query) → Monitor → γ → Except MonitorError q.Answer × Monitor × γ)
    (next : Monitor → α → Dialogue β) (x : γ) (d : Dialogue α) :
    (d.andThen next).run respond x =
      match d.run respond x with
      | (a, m, x) => (next m a).run respond x := by
  induction d generalizing x with
  | done m a => rfl
  | ask m q resume ih => simp only [andThen, run, ih]

end Dialogue

/-- An operation on a monitor that may ask the node and may fail. -/
def Inquiry (ε α : Type) : Type := Monitor → Dialogue (Except ε α)

namespace Inquiry

variable {ε α β : Type}

/-- An inquiry that another one follows, unless it fails. -/
def andThen (i : Inquiry ε α) (next : α → Inquiry ε β) : Inquiry ε β := fun m =>
  (i m).andThen fun m result =>
    match result with
    | .ok a => next a m
    | .error e => .done m (.error e)

instance : Monad (Inquiry ε) where
  pure a := fun m => .done m (.ok a)
  bind := andThen

/-- The inquiry that fails. -/
def fail (e : ε) : Inquiry ε α := fun m => .done m (.error e)

/-- The outcome of an inquiry that may fail, as the result of one that does not. -/
def attempt (i : Inquiry ε α) {δ : Type} : Inquiry δ (Except ε α) := fun m =>
  (i m).andThen fun m result => .done m (.ok result)

/-- An inquiry with its errors changed. -/
def mapError {δ : Type} (f : ε → δ) (i : Inquiry ε α) : Inquiry δ α := fun m =>
  (i m).andThen fun m result => .done m (result.mapError f)

/-- An operation that needs no answer of the node. -/
def ofOperation (f : Monitor → Except ε α × Monitor) : Inquiry ε α := fun m =>
  match f m with
  | (result, m) => .done m result

/-- The monitor as it stands. -/
def current : Inquiry ε Monitor := fun m => .done m (.ok m)

/-- A change of the monitor. -/
def change (f : Monitor → Monitor) : Inquiry ε Unit := fun m => .done (f m) (.ok ())

/-- A query; an error that answers it is one of the inquiry. -/
def ask (q : Query) : Inquiry MonitorError q.Answer := fun m =>
  .ask m q fun answer m => .done m answer

end Inquiry

end IstanbulMonitor
