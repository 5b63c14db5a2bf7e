import ExFatSlim.Lib.Exec

namespace Exec

variable {ε σ τ α β : Type} {R : σ → σ → Prop} {Q : τ → τ → Prop}

/-- Every outcome of `m`, a fault as well, leaves a state that `R` relates to the first one. -/
def Respects (R : σ → σ → Prop) (m : Exec ε σ α) : Prop := ∀ s, R s (m s).2

/-- So does every outcome with a value. -/
def Settles (R : σ → σ → Prop) (m : Exec ε σ α) : Prop := ∀ s a s', m s = (.ok a, s') → R s s'

namespace Respects

theorem settles {m : Exec ε σ α} (respects : Respects R m) : Settles R m := by
  intro s a s' run
  have related := respects s
  rwa [run] at related

theorem mono {R' : σ → σ → Prop} {m : Exec ε σ α} (respects : Respects R m)
    (weaker : ∀ s s', R s s' → R' s s') : Respects R' m :=
  fun s => weaker s _ (respects s)

theorem attempt {m : Exec ε σ α} (respects : Respects R m) : Respects R (Exec.attempt m) := by
  intro s
  have related := respects s
  unfold Exec.attempt
  split <;> simp_all

variable [Std.Refl R]

theorem pure (a : α) : Respects R (Pure.pure a : Exec ε σ α) := fun s => Std.Refl.refl s

theorem stop (f : Fault ε) : Respects R (Exec.stop f : Exec ε σ α) := fun s => Std.Refl.refl s

theorem raise (e : ε) : Respects R (Exec.raise e : Exec ε σ α) := stop _

theorem panic : Respects R (Exec.panic : Exec ε σ α) := stop _

theorem diverge : Respects R (Exec.diverge : Exec ε σ α) := stop _

theorem get : Respects R (MonadState.get : Exec ε σ σ) := fun s => Std.Refl.refl s

theorem assert (p : Prop) [Decidable p] : Respects R (Exec.assert p : Exec ε σ Unit) := by
  unfold Exec.assert
  split
  · exact pure ()
  · exact panic

end Respects

theorem Respects.ite {p : Prop} [Decidable p] {m m' : Exec ε σ α} (yes : Respects R m)
    (no : Respects R m') : Respects R (if p then m else m') := by
  split
  · exact yes
  · exact no

theorem Respects.bind [Trans R R R] {m : Exec ε σ α} {f : α → Exec ε σ β} (first : Respects R m)
    (rest : ∀ a, Respects R (f a)) : Respects R (m >>= f) := by
  intro s
  have related := first s
  rw [bind_apply]
  split
  · rename_i a s' run
    rw [run] at related
    exact Trans.trans related (rest a s')
  · rename_i e s' run
    rwa [run] at related

/-- A step that respects `R` before others that respect another relation. -/
theorem Respects.after {R' : σ → σ → Prop} {m : Exec ε σ α} {f : α → Exec ε σ β} (first : Respects R m)
    (rest : ∀ a, Respects R' (f a)) (weaker : ∀ s s', R s s' → R' s s')
    (compose : ∀ s s' s'', R s s' → R' s' s'' → R' s s'') :
    Respects R' (m >>= f) := by
  intro s
  have related := first s
  rw [bind_apply]
  split
  · rename_i a s' run
    rw [run] at related
    exact compose s s' _ related (rest a s')
  · rename_i e s' run
    rw [run] at related
    exact weaker s s' related

theorem Respects.modify {f : σ → σ} (related : ∀ s, R s (f s)) :
    Respects R (MonadStateOf.modifyGet fun s => (PUnit.unit, f s) : Exec ε σ PUnit) :=
  related

/-- A step that is taken or not before the rest. -/
theorem Respects.when [Trans R R R] {p : Prop} [Decidable p] {m : Exec ε σ Unit} {k : Unit → Exec ε σ α}
    (step : Respects R m) (rest : ∀ u, Respects R (k u)) : Respects R (if p then m >>= k else k ()) :=
  .ite (.bind step rest) (rest ())

/-- Two steps that respect `R` only together. -/
theorem Respects.bind_bind {γ : Type} [Trans R R R] {m : Exec ε σ α} {f : α → Exec ε σ β}
    {g : α → β → Exec ε σ γ} (pair : Respects R (m >>= f)) (rest : ∀ a b, Respects R (g a b)) :
    Respects R (m >>= fun a => f a >>= g a) := by
  intro s
  have related := pair s
  rw [bind_apply] at related ⊢
  split at related
  · rename_i a s' run
    rw [bind_apply]
    split
    · rename_i b s'' run'
      rw [run'] at related
      exact Trans.trans related (rest a b s'')
    · rename_i e s'' run'
      rwa [run'] at related
  · exact related

theorem Settles.bind [Trans R R R] {m : Exec ε σ α} {f : α → Exec ε σ β} (first : Settles R m)
    (rest : ∀ a, Settles R (f a)) : Settles R (m >>= f) := by
  intro s b s' run
  obtain ⟨a, t, run, run'⟩ := bind_eq_ok.mp run
  exact Trans.trans (first s a t run) (rest a t b s' run')

theorem Settles.ite {p : Prop} [Decidable p] {m m' : Exec ε σ α} (yes : Settles R m)
    (no : Settles R m') : Settles R (if p then m else m') := by
  split
  · exact yes
  · exact no

/-- Every outcome respects `R`, and an outcome with a value `K` as well. -/
structure Meets (R K : σ → σ → Prop) (m : Exec ε σ α) : Prop where
  always : Respects R m
  settles : Settles K m

namespace Meets

variable {K : σ → σ → Prop}

/-- What respects `K` whatever the outcome, where `K` says more than `R`. -/
theorem of_respects {m : Exec ε σ α} (respects : Respects K m) (weaker : ∀ s s', K s s' → R s s') : Meets R K m :=
  ⟨respects.mono weaker, respects.settles⟩

theorem raise [Std.Refl R] (e : ε) : Meets R K (Exec.raise e : Exec ε σ α) :=
  ⟨.raise e, fun _ _ _ run => by cases run⟩

theorem pure [Std.Refl R] [Std.Refl K] (a : α) : Meets R K (Pure.pure a : Exec ε σ α) :=
  ⟨.pure a, (Respects.pure a).settles⟩

theorem ite {p : Prop} [Decidable p] {m m' : Exec ε σ α} (yes : Meets R K m) (no : Meets R K m') :
    Meets R K (if p then m else m') :=
  ⟨.ite yes.always no.always, .ite yes.settles no.settles⟩

theorem bind [Trans R R R] [Trans K K K] {m : Exec ε σ α} {f : α → Exec ε σ β} (first : Meets R K m)
    (rest : ∀ a, Meets R K (f a)) : Meets R K (m >>= f) :=
  ⟨.bind first.always fun a => (rest a).always, .bind first.settles fun a => (rest a).settles⟩

end Meets

/-- A run on a part of the state, seen from the whole. -/
theorem Respects.zoom {look : τ → σ} {put : σ → τ → τ} {m : Exec ε σ α} (respects : Respects R m)
    (lift : ∀ t s, R (look t) s → Q t (put s t)) : Respects Q (Exec.zoom look put m) :=
  fun t => lift t _ (respects (look t))

end Exec
