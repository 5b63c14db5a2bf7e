import ExFatSlim.Lib.Exec

namespace Exec

variable {ε σ τ α β : Type} {f : σ → σ}

/-- It makes no difference to `m` whether `f` is applied to the state before it or after it. -/
def Commutes (f : σ → σ) (m : Exec ε σ α) : Prop := ∀ s, m (f s) = ((m s).1, f (m s).2)

namespace Commutes

theorem pure (a : α) : Commutes f (Pure.pure a : Exec ε σ α) := fun _ => rfl

theorem raise (e : ε) : Commutes f (Exec.raise e : Exec ε σ α) := fun _ => rfl

theorem panic : Commutes f (Exec.panic : Exec ε σ α) := fun _ => rfl

theorem diverge : Commutes f (Exec.diverge : Exec ε σ α) := fun _ => rfl

theorem modify {g : σ → σ} (same : ∀ s, g (f s) = f (g s)) :
    Commutes f (MonadStateOf.modifyGet fun s => (PUnit.unit, g s) : Exec ε σ PUnit) :=
  fun s => Prod.ext rfl (same s)

theorem ite {p : Prop} [Decidable p] {m m' : Exec ε σ α} (yes : Commutes f m) (no : Commutes f m') :
    Commutes f (if p then m else m') := by
  split
  · exact yes
  · exact no

theorem bind {m : Exec ε σ α} {k : α → Exec ε σ β} (first : Commutes f m) (rest : ∀ a, Commutes f (k a)) :
    Commutes f (m >>= k) := by
  intro s
  rw [bind_apply, bind_apply, first s]
  rcases m s with ⟨e | a, s'⟩
  · rfl
  · exact rest a s'

/-- What follows a `get` may not see what `f` changes. -/
theorem get {k : σ → Exec ε σ β} (same : ∀ s, k (f s) = k s) (rest : ∀ s, Commutes f (k s)) :
    Commutes f (MonadState.get >>= k) := by
  intro s
  rw [bind_of_ok (get_apply _), bind_of_ok (get_apply _), same]
  exact rest s s

/-- A step that is taken or not before the rest. -/
theorem when {p : Prop} [Decidable p] {m : Exec ε σ Unit} {k : Unit → Exec ε σ α} (step : Commutes f m)
    (rest : ∀ u, Commutes f (k u)) : Commutes f (if p then m >>= k else k ()) :=
  .ite (.bind step rest) (rest ())

/-- A run on a part of the state that `f` does not touch. -/
theorem zoom {look : σ → τ} {put : τ → σ → σ} (m : Exec ε τ α) (same : ∀ s, look (f s) = look s)
    (apart : ∀ t s, put t (f s) = f (put t s)) : Commutes f (Exec.zoom look put m) := by
  intro s
  rw [zoom_apply, zoom_apply, same, apart]

end Commutes

end Exec
