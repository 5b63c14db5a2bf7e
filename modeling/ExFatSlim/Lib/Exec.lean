import Mathlib.Logic.Basic
import Mathlib.Tactic.Common

/-- How a computation stops without a value: an error that the caller can
match on, a panic, or a loop that used up the rounds it was given. -/
inductive Fault (ε : Type) where
  | error (e : ε)
  | panic
  | diverge
  deriving DecidableEq, Repr

/-- A computation over a state that outlives every outcome: what was changed
before a fault stays changed after it. -/
def Exec (ε σ α : Type) := σ → Except (Fault ε) α × σ

namespace Exec

variable {ε σ τ α β : Type}

def ret (a : α) : Exec ε σ α := fun s => (.ok a, s)

def andThen (m : Exec ε σ α) (f : α → Exec ε σ β) : Exec ε σ β := fun s =>
  match m s with
  | (.ok a, s') => f a s'
  | (.error e, s') => (.error e, s')

instance : Monad (Exec ε σ) where
  pure := ret
  bind := andThen

instance : MonadStateOf σ (Exec ε σ) where
  get := fun s => (.ok s, s)
  set s := fun _ => (.ok (), s)
  modifyGet f := fun s => (.ok (f s).1, (f s).2)

def stop (f : Fault ε) : Exec ε σ α := fun s => (.error f, s)

def raise (e : ε) : Exec ε σ α := stop (.error e)

def panic : Exec ε σ α := stop .panic

def diverge : Exec ε σ α := stop .diverge

/-- A check that panics when it fails. -/
def assert (p : Prop) [Decidable p] : Exec ε σ Unit := if p then pure () else panic

/-- Runs a computation and hands its error, if it raises one, to what follows. -/
def attempt (m : Exec ε σ α) : Exec ε σ (Except ε α) := fun s =>
  match m s with
  | (.ok a, s') => (.ok (.ok a), s')
  | (.error (.error e), s') => (.ok (.error e), s')
  | (.error .panic, s') => (.error .panic, s')
  | (.error .diverge, s') => (.error .diverge, s')

/-- Runs a computation on a part of the state. -/
def zoom (look : σ → τ) (put : τ → σ → σ) (m : Exec ε τ α) : Exec ε σ α := fun s =>
  ((m (look s)).1, put (m (look s)).2 s)

@[simp] theorem pure_apply (a : α) (s : σ) : (pure a : Exec ε σ α) s = (.ok a, s) := rfl

theorem bind_apply (m : Exec ε σ α) (f : α → Exec ε σ β) (s : σ) :
    (m >>= f) s = match m s with
      | (.ok a, s') => f a s'
      | (.error e, s') => (.error e, s') := rfl

@[simp] theorem get_apply (s : σ) : (get : Exec ε σ σ) s = (.ok s, s) := rfl

@[simp] theorem set_apply (t s : σ) : (set t : Exec ε σ PUnit) s = (.ok (), t) := rfl

@[simp] theorem modify_apply (f : σ → σ) (s : σ) :
    (modify f : Exec ε σ PUnit) s = (.ok (), f s) := rfl

@[simp] theorem stop_apply (f : Fault ε) (s : σ) : (stop f : Exec ε σ α) s = (.error f, s) := rfl

@[simp] theorem raise_apply (e : ε) (s : σ) :
    (raise e : Exec ε σ α) s = (.error (.error e), s) := rfl

@[simp] theorem panic_apply (s : σ) : (panic : Exec ε σ α) s = (.error .panic, s) := rfl

@[simp] theorem diverge_apply (s : σ) : (diverge : Exec ε σ α) s = (.error .diverge, s) := rfl

theorem bind_of_ok {m : Exec ε σ α} {f : α → Exec ε σ β} {s s' : σ} {a : α}
    (run : m s = (.ok a, s')) : (m >>= f) s = f a s' := by
  rw [bind_apply, run]

theorem bind_of_error {m : Exec ε σ α} {f : α → Exec ε σ β} {s s' : σ} {e : Fault ε}
    (run : m s = (.error e, s')) : (m >>= f) s = (.error e, s') := by
  rw [bind_apply, run]

theorem bind_assoc {γ : Type} (m : Exec ε σ α) (f : α → Exec ε σ β) (g : β → Exec ε σ γ) :
    m >>= f >>= g = m >>= fun a => f a >>= g := by
  funext s
  simp only [bind_apply]
  rcases m s with ⟨_ | a, s'⟩ <;> rfl

/-- Naming the result changes no state. -/
theorem bind_pure_state (m : Exec ε σ α) (g : α → β) (s : σ) : ((m >>= fun a => pure (g a)) s).2 = (m s).2 := by
  rw [bind_apply]
  rcases m s with ⟨_ | a, s'⟩ <;> rfl

/-- A sequence returns exactly when both of its parts do. -/
theorem bind_eq_ok {m : Exec ε σ α} {f : α → Exec ε σ β} {s t : σ} {b : β} :
    (m >>= f) s = (.ok b, t) ↔ ∃ a s', m s = (.ok a, s') ∧ f a s' = (.ok b, t) := by
  rw [bind_apply]
  rcases outcome : m s with ⟨_ | a, s'⟩ <;> simp

/-- A run by its outcome. -/
theorem run_of_fst {m : Exec ε σ α} {s : σ} {r : Except (Fault ε) α} (outcome : (m s).1 = r) :
    m s = (r, (m s).2) := by
  rw [← outcome]

theorem attempt_of_ok {m : Exec ε σ α} {s s' : σ} {a : α} (run : m s = (.ok a, s')) :
    attempt m s = (.ok (.ok a), s') := by
  rw [attempt, run]

theorem attempt_of_error {m : Exec ε σ α} {s s' : σ} {e : ε} (run : m s = (.error (.error e), s')) :
    attempt m s = (.ok (.error e), s') := by
  rw [attempt, run]

theorem assert_of {p : Prop} [Decidable p] (holds : p) (s : σ) :
    (assert p : Exec ε σ Unit) s = (.ok (), s) := by
  simp [assert, holds]

theorem zoom_apply (look : σ → τ) (put : τ → σ → σ) (m : Exec ε τ α) (s : σ) :
    zoom look put m s = ((m (look s)).1, put (m (look s)).2 s) := rfl

theorem zoom_of_run {look : σ → τ} {put : τ → σ → σ} {m : Exec ε τ α} {s : σ} {t : τ}
    {r : Except (Fault ε) α} (run : m (look s) = (r, t)) : zoom look put m s = (r, put t s) := by
  rw [zoom_apply, run]

theorem zoom_eq {look : σ → τ} {put : τ → σ → σ} {m : Exec ε τ α} {s s' : σ}
    {r : Except (Fault ε) α} (run : zoom look put m s = (r, s')) :
    ∃ t, m (look s) = (r, t) ∧ s' = put t s := by
  rw [zoom_apply, Prod.mk.injEq] at run
  exact ⟨(m (look s)).2, Prod.ext run.1 rfl, run.2.symm⟩

end Exec
