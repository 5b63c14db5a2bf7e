import ExFatSlim.Lib.Exec

namespace Exec

variable {ε σ τ υ α β : Type} {good : σ → Prop} {abs : σ → τ} {s : σ} {t u : τ}

/-- The run of `m` from `s` ends with `r` in a good state that `abs` shows as `t`. -/
def Leads (good : σ → Prop) (abs : σ → τ) (m : Exec ε σ α) (s : σ) (r : Except (Fault ε) α)
    (t : τ) : Prop :=
  ∃ s', m s = (r, s') ∧ good s' ∧ abs s' = t

namespace Leads

theorem of_run {m : Exec ε σ α} {s' : σ} {r : Except (Fault ε) α} (run : m s = (r, s'))
    (fine : good s') (shown : abs s' = t) : Leads good abs m s r t :=
  ⟨s', run, fine, shown⟩

theorem pure (fine : good s) (a : α) :
    Leads good abs (Pure.pure a : Exec ε σ α) s (.ok a) (abs s) :=
  ⟨s, rfl, fine, rfl⟩

theorem raise (fine : good s) (e : ε) :
    Leads good abs (Exec.raise e : Exec ε σ α) s (.error (.error e)) (abs s) :=
  ⟨s, rfl, fine, rfl⟩

/-- What follows may rely on nothing but the abstraction of the state in between. -/
theorem bind {m : Exec ε σ α} {f : α → Exec ε σ β} {a : α} {r : Except (Fault ε) β}
    (first : Leads good abs m s (.ok a) t)
    (rest : ∀ s', good s' → abs s' = t → Leads good abs (f a) s' r u) :
    Leads good abs (m >>= f) s r u := by
  obtain ⟨s', run, fine, shown⟩ := first
  obtain ⟨s'', run', fine', shown'⟩ := rest s' fine shown
  exact ⟨s'', (bind_of_ok run).trans run', fine', shown'⟩

theorem bind_error {m : Exec ε σ α} {f : α → Exec ε σ β} {e : Fault ε}
    (first : Leads good abs m s (.error e) t) : Leads good abs (m >>= f) s (.error e) t := by
  obtain ⟨s', run, fine, shown⟩ := first
  exact ⟨s', bind_of_error run, fine, shown⟩

/-- A step that neither fails nor changes the state. -/
theorem step {m : Exec ε σ α} {f : α → Exec ε σ β} {a : α} {r : Except (Fault ε) β}
    (run : m s = (.ok a, s)) (rest : Leads good abs (f a) s r t) :
    Leads good abs (m >>= f) s r t := by
  obtain ⟨s', run', fine, shown⟩ := rest
  exact ⟨s', (bind_of_ok run).trans run', fine, shown⟩

theorem get {f : σ → Exec ε σ β} {r : Except (Fault ε) β} (rest : Leads good abs (f s) s r t) :
    Leads good abs (MonadState.get >>= f) s r t :=
  step (get_apply s) rest

/-- A run on a part of the state, seen from the whole. -/
theorem zoom {whole : υ → Prop} {show' : υ → τ} {look : υ → σ} {put : σ → υ → υ} {v : υ} {w : τ}
    {m : Exec ε σ α} {r : Except (Fault ε) α} (run : Leads good abs m (look v) r t)
    (lift : ∀ s', good s' → abs s' = t → whole (put s' v) ∧ show' (put s' v) = w) :
    Leads whole show' (Exec.zoom look put m) v r w := by
  obtain ⟨s', run, fine, shown⟩ := run
  obtain ⟨fine', shown'⟩ := lift s' fine shown
  exact ⟨_, zoom_of_run run, fine', shown'⟩

end Leads

end Exec
