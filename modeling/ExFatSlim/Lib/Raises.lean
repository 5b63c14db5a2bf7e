import ExFatSlim.Lib.Exec

namespace Exec

variable {ε σ τ α β : Type} {p : ε → Prop}

/-- Every error that `m` raises satisfies `p`. -/
def Raises (p : ε → Prop) (m : Exec ε σ α) : Prop := ∀ s e, (m s).1 = .error (.error e) → p e

namespace Raises

theorem pure (a : α) : Raises p (Pure.pure a : Exec ε σ α) := fun _ _ none_ => by cases none_

theorem raise {e : ε} (here : p e) : Raises p (Exec.raise e : Exec ε σ α) := fun _ _ same => by
  cases same
  exact here

theorem panic : Raises p (Exec.panic : Exec ε σ α) := fun _ _ none_ => by cases none_

theorem diverge : Raises p (Exec.diverge : Exec ε σ α) := fun _ _ none_ => by cases none_

theorem get : Raises p (MonadState.get : Exec ε σ σ) := fun _ _ none_ => by cases none_

theorem set (t : σ) : Raises p (MonadStateOf.set t : Exec ε σ PUnit) := fun _ _ none_ => by cases none_

theorem modify (f : σ → σ) : Raises p (MonadStateOf.modifyGet fun s => (PUnit.unit, f s) : Exec ε σ PUnit) :=
  fun _ _ none_ => by cases none_

theorem ite {q : Prop} [Decidable q] {m m' : Exec ε σ α} (yes : Raises p m) (no : Raises p m') :
    Raises p (if q then m else m') := by
  split
  · exact yes
  · exact no

theorem bind {m : Exec ε σ α} {f : α → Exec ε σ β} (first : Raises p m) (rest : ∀ a, Raises p (f a)) :
    Raises p (m >>= f) := by
  intro s e outcome
  rw [bind_apply] at outcome
  split at outcome
  · exact rest _ _ e outcome
  · rename_i run
    cases outcome
    exact first s e (by rw [run])

/-- A run on a part of the state, seen from the whole. -/
theorem zoom {look : τ → σ} {put : σ → τ → τ} {m : Exec ε σ α} (raises : Raises p m) :
    Raises p (Exec.zoom look put m) :=
  fun t e outcome => raises (look t) e outcome

/-- An error that no part raises is not the outcome. -/
theorem ne_of_not {m : Exec ε σ α} {e : ε} (raises : Raises p m) (other : ¬ p e) (s : σ) :
    (m s).1 ≠ .error (.error e) :=
  fun outcome => other (raises s e outcome)

end Raises

end Exec
