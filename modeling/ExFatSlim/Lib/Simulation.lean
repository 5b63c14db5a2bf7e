import Mathlib.Logic.Basic

/-- A machine that answers calls. -/
def Machine (ι ο σ : Type) := ι → σ → ο × σ

namespace Machine

variable {ι ο σ τ υ : Type}

/-- The answers to the calls of a run, and the state that the run leaves. -/
def run (m : Machine ι ο σ) : List ι → σ → List ο × σ
  | [], s => ([], s)
  | call :: calls, s => ((m call s).1 :: (run m calls (m call s).2).1, (run m calls (m call s).2).2)

/-- Every call of the run is allowed in the state in which it is made. -/
def Allows (m : Machine ι ο σ) (allowed : ι → σ → Prop) : List ι → σ → Prop
  | [], _ => True
  | call :: calls, s => allowed call s ∧ Allows m allowed calls (m call s).2

/-- An allowed call gets the answer that the other machine gives, and leaves a
state that stands for the one that the other machine goes to. -/
def Simulates (m : Machine ι ο σ) (spec : Machine ι ο τ) (allowed : ι → σ → Prop) (shows : σ → τ → Prop) : Prop :=
  ∀ call s t, shows s t → allowed call s → (m call s).1 = (spec call t).1 ∧ shows (m call s).2 (spec call t).2

variable {m : Machine ι ο σ} {spec : Machine ι ο τ} {allowed : ι → σ → Prop} {shows : σ → τ → Prop}

@[simp] theorem run_nil (s : σ) : m.run [] s = ([], s) := rfl

@[simp] theorem run_cons (call : ι) (calls : List ι) (s : σ) : m.run (call :: calls) s =
    ((m call s).1 :: (m.run calls (m call s).2).1, (m.run calls (m call s).2).2) := rfl

/-- A run gets the answers of the other machine. -/
theorem Simulates.run (simulates : m.Simulates spec allowed shows) (calls : List ι) : ∀ {s : σ} {t : τ}, shows s t →
    m.Allows allowed calls s → (m.run calls s).1 = (spec.run calls t).1 ∧
      shows (m.run calls s).2 (spec.run calls t).2 := by
  induction calls with
  | nil => exact fun shown _ => ⟨rfl, shown⟩
  | cons call calls ih =>
    intro s t shown allows
    obtain ⟨answer, shown'⟩ := simulates call s t shown allows.1
    obtain ⟨answers, last⟩ := ih shown' allows.2
    exact ⟨congrArg₂ List.cons answer answers, last⟩

/-- Every call of the run is allowed in the states in which the two machines are when it is made. -/
def Guards (m : Machine ι ο σ) (spec : Machine ι ο τ) (guard : ι → σ → τ → Prop) : List ι → σ → τ → Prop
  | [], _, _ => True
  | call :: calls, s, t => guard call s t ∧ Guards m spec guard calls (m call s).2 (spec call t).2

/-- As `Simulates`, where it depends on both states what is allowed. -/
def Follows (m : Machine ι ο σ) (spec : Machine ι ο τ) (guard : ι → σ → τ → Prop) (shows : σ → τ → Prop) : Prop :=
  ∀ call s t, shows s t → guard call s t → (m call s).1 = (spec call t).1 ∧ shows (m call s).2 (spec call t).2

variable {guard : ι → σ → τ → Prop}

theorem Follows.run (follows : m.Follows spec guard shows) (calls : List ι) : ∀ {s : σ} {t : τ}, shows s t →
    m.Guards spec guard calls s t → (m.run calls s).1 = (spec.run calls t).1 ∧
      shows (m.run calls s).2 (spec.run calls t).2 := by
  induction calls with
  | nil => exact fun shown _ => ⟨rfl, shown⟩
  | cons call calls ih =>
    intro s t shown guards
    obtain ⟨answer, shown'⟩ := follows call s t shown guards.1
    obtain ⟨answers, last⟩ := ih shown' guards.2
    exact ⟨congrArg₂ List.cons answer answers, last⟩

end Machine
