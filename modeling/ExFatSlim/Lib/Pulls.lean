import ExFatSlim.Lib.Exec

namespace Exec

variable {ε σ α β E : Type}

/-- The calls of `pull` hand out these elements one after the other, and leave the state `t`. -/
def Pulls (pull : Exec ε σ (Option E)) : List E → σ → σ → Prop
  | [], s, t => s = t
  | e :: es, s, t => ∃ s', pull s = (.ok (some e), s') ∧ Pulls pull es s' t

/-- A value or an error, in contrast to a panic and to a lack of rounds. -/
def IsResult : Except (Fault ε) α → Prop
  | .ok _ => True
  | .error (.error _) => True
  | .error .panic => False
  | .error .diverge => False

theorem IsResult.bind {m : Exec ε σ α} {f : α → Exec ε σ β} {s : σ} (first : IsResult (m s).1)
    (rest : ∀ a t, IsResult (f a t).1) :
    IsResult ((m >>= f) s).1 := by
  rw [bind_apply]
  rcases run : m s with ⟨f | a, t⟩
  · rw [run] at first
    cases f <;> exact first
  · exact rest a t

/-- Some number of rounds is enough for a result. -/
def Finishes (m : Nat → Exec ε σ α) (s : σ) : Prop := ∃ fuel, IsResult (m fuel s).1

variable {pull : Exec ε σ (Option E)} {es es' : List E} {s t t' : σ} {e : E}

namespace Pulls

theorem nil (s : σ) : Pulls pull [] s s := rfl

theorem cons {s' : σ} (rest : Pulls pull es s' t) (run : pull s = (.ok (some e), s')) : Pulls pull (e :: es) s t :=
  ⟨s', run, rest⟩

theorem one (run : pull s = (.ok (some e), t)) : Pulls pull [e] s t := ⟨t, run, rfl⟩

theorem append (first : Pulls pull es s t) (second : Pulls pull es' t t') : Pulls pull (es ++ es') s t' := by
  induction es generalizing s with
  | nil =>
    cases first
    exact second
  | cons e es ih =>
    obtain ⟨s', run, rest⟩ := first
    exact ⟨s', run, ih rest⟩

/-- Of two series of calls from one state, one begins with the other. -/
theorem compare (left : Pulls pull es s t) (right : Pulls pull es' s t') :
    (∃ rest, es' = es ++ rest ∧ Pulls pull rest t t') ∨ ∃ rest, es = es' ++ rest ∧ Pulls pull rest t' t := by
  induction es generalizing s es' with
  | nil =>
    cases left
    exact Or.inl ⟨es', rfl, right⟩
  | cons e es ih =>
    cases es' with
    | nil =>
      cases right
      exact Or.inr ⟨e :: es, rfl, left⟩
    | cons e' es' =>
      obtain ⟨s₁, run, left⟩ := left
      obtain ⟨s₂, run', right⟩ := right
      cases run.symm.trans run'
      rcases ih left right with ⟨rest, rfl, pulls⟩ | ⟨rest, rfl, pulls⟩
      · exact Or.inl ⟨rest, rfl, pulls⟩
      · exact Or.inr ⟨rest, rfl, pulls⟩

/-- Where the calls hand out nothing, no more elements come. -/
theorem eq_nil_of_not (pulls : Pulls pull es s t) (none_ : ∀ e, (pull s).1 ≠ .ok (some e)) : es = [] ∧ s = t := by
  cases es with
  | nil => exact ⟨rfl, pulls⟩
  | cons e es =>
    obtain ⟨s', run, _⟩ := pulls
    exact absurd (congrArg Prod.fst run) (none_ e)

end Pulls

/-- How far a loop over the elements comes with its rounds: it has used them
up, a call has failed, there were no more elements, or the elements so far have
stopped it. -/
inductive Drains (pull : Exec ε σ (Option E)) (stop : List E → Prop) (fuel : Nat) (s : σ) : Except (Fault ε) α → Prop
  | spent {es : List E} {t : σ} :
    Pulls pull es s t → ¬ stop es → fuel ≤ es.length → Drains pull stop fuel s (.error .diverge)
  | failed {es : List E} {t : σ} {f : Fault ε} : Pulls pull es s t → ¬ stop es → (pull t).1 = .error f →
      Drains pull stop fuel s (.error f)
  | ended {es : List E} {t : σ} {r : Except (Fault ε) α} : Pulls pull es s t → (pull t).1 = .ok none → IsResult r →
      Drains pull stop fuel s r
  | stopped {es : List E} {t : σ} {r : Except (Fault ε) α} :
    Pulls pull es s t → stop es → IsResult r → Drains pull stop fuel s r

namespace Drains

variable {stop stop' : List E → Prop} {fuel fuel' : Nat} {r : Except (Fault ε) α}

/-- A loop that has read some elements, and goes on from there. -/
theorem after (read : Pulls pull es s t) (same : ∀ es', stop (es ++ es') ↔ stop' es')
    (fewer : fuel ≤ es.length + fuel')
    (drains : Drains pull stop' fuel' t r) : Drains pull stop fuel s r := by
  cases drains with
  | spent pulls going enough =>
    refine .spent (read.append pulls) (mt (same _).mp going) ?_
    rw [List.length_append]
    omega
  | failed pulls going fault => exact .failed (read.append pulls) (mt (same _).mp going) fault
  | ended pulls none_ result => exact .ended (read.append pulls) none_ result
  | stopped pulls halt result => exact .stopped (read.append pulls) ((same _).mpr halt) result

/-- Why a loop comes to a result after these elements: they stop it, there are no more, or the
next call returns an error. -/
def Cause (pull : Exec ε σ (Option E)) (stop : List E → Prop) (es : List E) (t : σ) : Prop :=
  stop es ∨ (pull t).1 = .ok none ∨ ∃ e, (pull t).1 = .error (.error e)

/-- A loop that has not been stopped has not passed the cause. -/
theorem Cause.ahead (cause : Cause pull stop es t) (grows : ∀ es es', stop es → stop (es ++ es'))
    (pulls : Pulls pull es s t)
    (pulls' : Pulls pull es' s t') (going : ¬ stop es') : ∃ rest, es = es' ++ rest ∧ Pulls pull rest t' t := by
  rcases pulls.compare pulls' with ⟨rest, rfl, later⟩ | ahead
  · rcases cause with halt | cause
    · exact absurd (grows es rest halt) going
    · have none_ : ∀ e, (pull t).1 ≠ .ok (some e) := by
        intro e same
        rcases cause with none_ | ⟨f, fault⟩
        · cases none_.symm.trans same
        · cases fault.symm.trans same
      obtain ⟨rfl, rfl⟩ := later.eq_nil_of_not none_
      exact ⟨[], by rw [List.append_nil, List.append_nil], .nil t⟩
  · exact ahead

/-- A loop that drains its source comes to a result exactly when the source ends
or fails with an error, or some first elements of it stop the loop. -/
theorem finishes_iff {m : Nat → Exec ε σ α} (grows : ∀ es es', stop es → stop (es ++ es'))
    (drains : ∀ fuel, Drains pull stop fuel s (m fuel s).1) :
    Finishes m s ↔ ∃ es t, Pulls pull es s t ∧ Cause pull stop es t := by
  constructor
  · rintro ⟨fuel, result⟩
    have reached := drains fuel
    generalize (m fuel s).1 = r at reached result
    cases reached with
    | spent pulls going enough => exact result.elim
    | @failed es t f pulls going fault =>
      cases f with
      | error e => exact ⟨es, t, pulls, Or.inr (Or.inr ⟨e, fault⟩)⟩
      | panic => exact result.elim
      | diverge => exact result.elim
    | @ended es t _ pulls none_ _ => exact ⟨es, t, pulls, Or.inr (Or.inl none_)⟩
    | @stopped es t _ pulls halt _ => exact ⟨es, t, pulls, Or.inl halt⟩
  · rintro ⟨es, t, pulls, cause⟩
    refine ⟨es.length + 1, ?_⟩
    have reached := drains (es.length + 1)
    generalize (m (es.length + 1) s).1 = r at reached
    cases reached with
    | spent pulls' going enough =>
      obtain ⟨rest, rfl, _⟩ := cause.ahead grows pulls pulls' going
      rw [List.length_append] at enough
      omega
    | failed pulls' going fault =>
      obtain ⟨rest, rfl, later⟩ := cause.ahead grows pulls pulls' going
      obtain ⟨rfl, rfl⟩ := later.eq_nil_of_not fun e same => by cases fault.symm.trans same
      rcases cause with halt | ended | ⟨e, error⟩
      · rw [List.append_nil] at halt
        exact (going halt).elim
      · cases ended.symm.trans fault
      · cases error.symm.trans fault
        trivial
    | ended _ _ result => exact result
    | stopped _ _ result => exact result

end Drains

end Exec
