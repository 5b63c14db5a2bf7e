import ExFatSlim.SlotCacheCoherence

namespace ExFatSlim.SlotCache

variable {size n : Nat} {c c' : SlotCache size n} {d d' : BlockDevice size} {own : Set Nat}

@[simp] theorem log_view (a : Access) (s : Nat) : (c.log a).view d s = c.view d s := rfl

theorem Coherent.log (coherent : c.Coherent own d) (a : Access) : (c.log a).Coherent own d :=
  ⟨coherent.distinct, coherent.synced, coherent.owned⟩

/-- A flush leaves every slot where it is: it holds what it held. -/
def Steady (c c' : SlotCache size n) : Prop :=
  c'.hand = c.hand ∧ ∀ i, (c'.cache i).sectorId = (c.cache i).sectorId ∧
    (c'.cache i).isValid = (c.cache i).isValid ∧ (c'.cache i).block = (c.cache i).block

theorem Steady.refl (c : SlotCache size n) : Steady c c := ⟨rfl, fun _ => ⟨rfl, rfl, rfl⟩⟩

theorem Steady.trans {a b e : SlotCache size n} (first : Steady a b) (second : Steady b e) :
    Steady a e := by
  refine ⟨second.1.trans first.1, fun i => ?_⟩
  obtain ⟨id, valid, block⟩ := first.2 i
  obtain ⟨id', valid', block'⟩ := second.2 i
  exact ⟨id'.trans id, valid'.trans valid, block'.trans block⟩

theorem Steady.filledTo {k : Nat} (steady : Steady c c') (filled : c.FilledTo k) : c'.FilledTo k := by
  refine ⟨fun i => ?_, by rw [steady.1]; exact filled.2⟩
  rw [(steady.2 i).2.1]
  exact filled.1 i

theorem Steady.holds (steady : Steady c c') {i : Fin n} {s : Nat} : c'.Holds i s ↔ c.Holds i s := by
  rw [Holds, Holds, (steady.2 i).1, (steady.2 i).2.1]

theorem Coherent.evolved_self (coherent : c.Coherent own d) : Evolved own c d c d :=
  (SameSlots.refl c).evolved rfl coherent

theorem slotFlush_apply (i : Fin n) (c : SlotCache size n) (d : BlockDevice size) :
    slotFlush i (c, d) =
      if (c.cache i).isDirty then writeBack i (c, d) else (.ok (), c, d) := by
  cases dirty : (c.cache i).isDirty <;> simp [slotFlush, writeBack, Exec.bind_apply, dirty]

/-- Either the slot is clean afterwards, or the device failed. -/
theorem slotFlush_spec (coherent : c.Coherent own d) (i : Fin n) :
    (∃ c' d', slotFlush i (c, d) = (.ok (), c', d') ∧ Evolved own c d c' d' ∧ Steady c c' ∧
      (c'.cache i).isDirty = false ∧ ∀ j, (c.cache j).isDirty = false → (c'.cache j).isDirty = false) ∨
    (¬ d.Reliable ∧ slotFlush i (c, d) = (.error (.error .io), c, d.afterRead)) := by
  rw [slotFlush_apply]
  cases dirty : (c.cache i).isDirty with
  | false =>
    exact Or.inl ⟨c, d, by simp, coherent.evolved_self, .refl c, dirty, fun _ clean => clean⟩
  | true =>
    obtain ⟨valid, mine⟩ := coherent.owned i dirty
    simp only [if_true, writeBack_apply]
    by_cases works : d.succeeds = true
    · simp only [works, if_true]
      obtain ⟨coherent', view⟩ := coherent.writtenBack valid works
      refine Or.inl ⟨_, _, rfl, ⟨coherent', fun s _ => view s, fun s other => ?_, rfl, ?_,
        fun reliable => reliable.afterWrite _ _⟩, ⟨rfl, fun j => ?_⟩, by simp, fun j clean => ?_⟩
      · have apart : s ≠ (c.cache i).sectorId := fun equal => other (equal ▸ mine)
        simp [BlockDevice.afterWrite_of_succeeds works, apart]
      · intro j dirtyJ
        by_cases same : j = i
        · subst same; simp at dirtyJ
        · rw [put_cache_ne same] at dirtyJ ⊢
          exact ⟨dirtyJ, rfl⟩
      · by_cases same : j = i
        · subst same; simp
        · simp [put_cache_ne same]
      · by_cases same : j = i
        · subst same; simp
        · rwa [put_cache_ne same]
    · exact Or.inr ⟨fun reliable => works reliable.succeeds, by simp [works]⟩

theorem flushSlots_spec (slots : List (Fin n)) : ∀ {c : SlotCache size n} {d : BlockDevice size},
    c.Coherent own d → ∃ r c' d', flushSlots slots (c, d) = (r, c', d') ∧ Evolved own c d c' d' ∧
      Steady c c' ∧ (∀ j, (c.cache j).isDirty = false → (c'.cache j).isDirty = false) ∧
      ((r = .ok () ∧ ∀ i ∈ slots, (c'.cache i).isDirty = false) ∨
        (r = .error (.error .io) ∧ ¬ d.Reliable)) := by
  induction slots with
  | nil =>
    intro c d coherent
    exact ⟨.ok (), c, d, rfl, coherent.evolved_self, .refl c, fun _ clean => clean,
      Or.inl ⟨rfl, by simp⟩⟩
  | cons i rest ih =>
    intro c d coherent
    rcases slotFlush_spec coherent i with ⟨c', d', run, evolved, steady, clean, stays⟩ | ⟨faulty, run⟩
    · obtain ⟨r, e, x, runRest, evolved', steady', stays', outcome⟩ := ih evolved.coherent
      refine ⟨r, e, x, ?_, evolved.trans evolved', steady.trans steady',
        fun j before => stays' j (stays j before), ?_⟩
      · rw [flushSlots, Exec.bind_of_ok run, runRest]
      · rcases outcome with ⟨ok, others⟩ | ⟨error, faulty⟩
        · refine Or.inl ⟨ok, fun j member => ?_⟩
          rcases List.mem_cons.mp member with rfl | member
          · exact stays' j clean
          · exact others j member
        · exact Or.inr ⟨error, fun reliable => faulty (evolved.reliable reliable)⟩
    · exact ⟨_, _, _, by rw [flushSlots, Exec.bind_of_error run], coherent.evolved_self.afterRead,
        .refl c, fun _ before => before, Or.inr ⟨rfl, faulty⟩⟩

theorem flushSectorIn_apply (s : Nat) (slots : List (Fin n)) (c : SlotCache size n)
    (d : BlockDevice size) :
    flushSectorIn s slots (c, d) =
      match slots.find? (fun i => (c.cache i).sectorId = s) with
      | some i => slotFlush i (c, d)
      | none => (.ok (), c, d) := by
  induction slots with
  | nil => rfl
  | cons i rest ih =>
    by_cases here : (c.cache i).sectorId = s
    · simp [flushSectorIn, Exec.bind_apply, here]
    · simp only [flushSectorIn, Exec.bind_apply, Exec.get_apply, if_neg here, ih]
      simp [here]

/-- With the valid slots in front, the first slot with the sector id of a held
sector is the one that holds it. -/
theorem find_of_filledTo {k s : Nat} (filled : c.FilledTo k) (distinct : c.Distinct) {j : Fin n}
    (holds : c.Holds j s) :
    (List.finRange n).find? (fun i => (c.cache i).sectorId = s) = some j := by
  rw [List.find?_eq_some_iff_getElem]
  refine ⟨by simpa using holds.2, j.val, by simp, by simp, ?_⟩
  intro i before
  have inFront : (c.cache ⟨i, before.trans j.isLt⟩).isValid = true :=
    (filled.1 _).mpr (before.trans ((filled.1 j).mp holds.1))
  simp only [List.getElem_finRange, Bool.not_eq_true', decide_eq_false_iff_not]
  intro equal
  have same := distinct ⟨i, before.trans j.isLt⟩ j s ⟨inFront, equal⟩ holds
  exact absurd (congrArg Fin.val same) (Nat.ne_of_lt before)

theorem flushSector_spec (coherent : c.Coherent own d) (s : Nat) :
    ∃ r c' d', flushSector s (c, d) = (r, c', d') ∧ Evolved own c d c' d' ∧ Steady c c' ∧
      (∀ j, (c.cache j).isDirty = false → (c'.cache j).isDirty = false) ∧
      (r = .ok () ∨ (r = .error (.error .io) ∧ ¬ d.Reliable)) ∧
      (r = .ok () → ∀ k, c.FilledTo k → ∀ j, c.Holds j s → (c'.cache j).isDirty = false) := by
  rw [flushSector, flushSectorIn_apply]
  cases found : (List.finRange n).find? fun i => (c.cache i).sectorId = s with
  | none =>
    refine ⟨_, _, _, rfl, coherent.evolved_self, .refl c, fun _ clean => clean, Or.inl rfl, ?_⟩
    intro _ k filled j holds
    rw [find_of_filledTo filled coherent.distinct holds] at found
    simp at found
  | some i =>
    rcases slotFlush_spec coherent i with ⟨c', d', run, evolved, steady, clean, stays⟩ | ⟨faulty, run⟩
    · refine ⟨_, _, _, run, evolved, steady, stays, Or.inl rfl, ?_⟩
      intro _ k filled j holds
      rw [find_of_filledTo filled coherent.distinct holds] at found
      cases found
      exact clean
    · exact ⟨_, _, _, run, coherent.evolved_self.afterRead, .refl c, fun _ before => before,
        Or.inr ⟨rfl, faulty⟩, by simp⟩

theorem read_apply (s : Nat) (c : SlotCache size n) (d : BlockDevice size) :
    read s (c, d) = match readInner s (c, d) with
      | (.ok i, c', d') => (.ok (c'.cache i).block, c'.log (.look s), d')
      | (.error e, c', d') => (.error e, c'.log (.look s), d') := by
  simp only [read, logged, Exec.bind_apply]
  rcases readInner s (c, d) with ⟨_ | i, c', d'⟩ <;> rfl

theorem readMut_apply (s : Nat) (f : Block size → Block size) (c : SlotCache size n)
    (d : BlockDevice size) :
    readMut s f (c, d) = match readInner s (c, d) with
      | (.ok i, c', d') => (.ok (f (c'.cache i).block),
          (c'.put i { c'.cache i with isDirty := true, block := f (c'.cache i).block }).log (.change s),
          d')
      | (.error e, c', d') => (.error e, c'.log (.change s), d') := by
  simp only [readMut, logged, Exec.bind_apply]
  rcases readInner s (c, d) with ⟨_ | i, c', d'⟩ <;> rfl

theorem write_of_hit {i : Fin n} {s : Nat} (hit : c.cacheHit s = (some i, c.hitAt i)) (b : Block size) :
    write s b (c, d) = (if d.succeeds then .ok () else .error (.error .io),
      ((c.hitAt i).put i { (c.hitAt i).cache i with isDirty := false, block := b }).log (.change s),
      d.afterWrite s b) := by
  simp [write, logged, Exec.bind_apply, hit, ioWrite_apply]

theorem write_of_miss {s : Nat} (missed : c.cacheHit s = (none, c)) (b : Block size) :
    write s b (c, d) = (if d.succeeds then .ok () else .error (.error .io),
      c.log (.change s), d.afterWrite s b) := by
  simp [write, logged, Exec.bind_apply, missed, ioWrite_apply]

/-- A later cache and device that differ in the content of sector `s`, which is `b` now. -/
structure Stored (own : Set Nat) (c : SlotCache size n) (d : BlockDevice size) (s : Nat)
    (b : Block size) (c' : SlotCache size n) (d' : BlockDevice size) : Prop where
  coherent : c'.Coherent own d'
  view : ∀ t ∈ own, c'.view d' t = Function.update (c.view d) s b t
  foreign : ∀ t, t ∉ own → d'.blocks t = d.blocks t
  dirty : ∀ i, (c'.cache i).isDirty = true → (c'.cache i).sectorId = s ∨
    ((c.cache i).isDirty = true ∧ (c'.cache i).sectorId = (c.cache i).sectorId)
  reliable : d.Reliable → d'.Reliable
  filled : ∀ k, c.FilledTo k → ∃ k', c'.FilledTo k'

/-- A device write to a sector that no slot holds. -/
theorem Coherent.bypassed (coherent : c.Coherent own d) {s : Nat} (absent : ∀ i, ¬ c.Holds i s)
    (works : d.succeeds = true) (b : Block size) :
    c.Coherent own (d.afterWrite s b) ∧ c.view (d.afterWrite s b) = Function.update (c.view d) s b := by
  rw [BlockDevice.afterWrite_of_succeeds works]
  refine ⟨⟨coherent.distinct, ?_, coherent.owned⟩, ?_⟩
  · intro i valid clean mine
    have apart : (c.cache i).sectorId ≠ s := fun equal => absent i ⟨valid, equal⟩
    simpa [apart] using coherent.synced i valid clean mine
  · funext t
    refine view_eq_of coherent.distinct ?_ ?_
    · intro i holds
      have apart : t ≠ s := fun equal => absent i (equal ▸ holds)
      rw [Function.update_of_ne apart, view_of_holds coherent.distinct holds]
    · intro none
      by_cases same : t = s
      · simp [same]
      · simp [same, view_of_missing none]

theorem FilledTo.of_valid {k : Nat} (filled : c.FilledTo k) (hand : c'.hand = c.hand)
    (valid : ∀ i, (c'.cache i).isValid = (c.cache i).isValid) : c'.FilledTo k := by
  refine ⟨fun i => ?_, hand ▸ filled.2⟩
  rw [valid i]
  exact filled.1 i

theorem Evolved.readMut {i : Fin n} {s : Nat} (evolved : Evolved own c d c' d') (holds : c'.Holds i s)
    (mine : s ∈ own) (filled : ∀ k, c.FilledTo k → ∃ k', c'.FilledTo k') (b : Block size) (a : Access) :
    Stored own c d s b ((c'.put i { c'.cache i with isDirty := true, block := b }).log a) d' := by
  obtain ⟨coherent, view⟩ := evolved.coherent.stored holds d' b true (fun _ _ => rfl) (by simp)
    (fun _ => mine)
  refine ⟨coherent.log a, ?_, evolved.foreign, ?_, evolved.reliable, ?_⟩
  · intro t mineT
    rw [log_view, view t]
    by_cases same : t = s
    · simp [same]
    · simp [same, evolved.view t mineT]
  · intro j dirty
    by_cases same : j = i
    · subst same
      exact Or.inl (by simpa using holds.2)
    · rw [log_cache, put_cache_ne same] at dirty ⊢
      exact Or.inr (evolved.dirty j dirty)
  · intro k old
    obtain ⟨k', now⟩ := filled k old
    refine ⟨k', now.of_valid rfl fun j => ?_⟩
    by_cases same : j = i
    · subst same; simp
    · rw [log_cache, put_cache_ne same]

theorem read_spec (coherent : c.Coherent own d) (reliable : d.Reliable) (s : Nat) :
    ∃ b c' d', read s (c, d) = (.ok b, c'.log (.look s), d') ∧ (s ∈ own → b = c.view d s) ∧
      Evolved own c d c' d' ∧ ∀ k, c.FilledTo k → ∃ k', c'.FilledTo k' := by
  rw [read_apply]
  have outcome := readInner_spec coherent s
  rcases run : readInner s (c, d) with ⟨_ | i, c', d'⟩
  · rw [run] at outcome
    cases outcome with
    | failed _ faulty => exact absurd reliable faulty
    | garbled _ _ evolved _ _ fails =>
      exact absurd (evolved.reliable reliable).succeeds (by simp [fails])
  · rw [run] at outcome
    cases outcome with
    | fetched evolved holds filled =>
      refine ⟨_, c', d', rfl, fun mine => ?_, evolved, filled⟩
      rw [← evolved.view s mine, view_of_holds evolved.coherent.distinct holds]

theorem readMut_spec (coherent : c.Coherent own d) (reliable : d.Reliable) {s : Nat} (mine : s ∈ own)
    (f : Block size → Block size) :
    ∃ c' d', readMut s f (c, d) = (.ok (f (c.view d s)), c', d') ∧
      Stored own c d s (f (c.view d s)) c' d' ∧ c'.trace = .change s :: c.trace := by
  rw [readMut_apply]
  have outcome := readInner_spec coherent s
  rcases run : readInner s (c, d) with ⟨_ | i, c', d'⟩
  · rw [run] at outcome
    cases outcome with
    | failed _ faulty => exact absurd reliable faulty
    | garbled _ _ evolved _ _ fails =>
      exact absurd (evolved.reliable reliable).succeeds (by simp [fails])
  · rw [run] at outcome
    cases outcome with
    | fetched evolved holds filled =>
      have content : (c'.cache i).block = c.view d s := by
        rw [← evolved.view s mine, view_of_holds evolved.coherent.distinct holds]
      simp only [content]
      exact ⟨_, _, rfl, evolved.readMut holds mine filled _ _, congrArg _ evolved.trace⟩

/-- The write goes to the device at once, so no slot gets dirty by it. -/
theorem write_spec (coherent : c.Coherent own d) (works : d.succeeds = true) {s : Nat} (mine : s ∈ own)
    (b : Block size) :
    ∃ c', write s b (c, d) = (.ok (), c', d.afterWrite s b) ∧
      Stored own c d s b c' (d.afterWrite s b) ∧ c'.trace = .change s :: c.trace ∧
      ∀ i, (c'.cache i).isDirty = true →
        (c.cache i).isDirty = true ∧ (c'.cache i).sectorId = (c.cache i).sectorId := by
  have elsewhere : ∀ t, t ≠ s → (d.afterWrite s b).blocks t = d.blocks t := fun t other => by
    simp [BlockDevice.afterWrite_of_succeeds works, other]
  have foreign : ∀ t, t ∉ own → (d.afterWrite s b).blocks t = d.blocks t :=
    fun t other => elsewhere t fun equal => other (equal ▸ mine)
  rcases cacheHit_spec c s with ⟨i, hit, holds⟩ | ⟨missed, absent⟩
  · have same := hitAt_sameSlots c i
    obtain ⟨stored, view⟩ := (same.coherent coherent).stored (same.holds.mpr holds)
      (d.afterWrite s b) b false elsewhere (by simp [BlockDevice.afterWrite_of_succeeds works])
      (by simp)
    have dirty : ∀ j, (((c.hitAt i).put i { (c.hitAt i).cache i with isDirty := false, block := b }).cache
        j).isDirty = true → (c.cache j).isDirty = true ∧ (((c.hitAt i).put i
          { (c.hitAt i).cache i with isDirty := false, block := b }).cache j).sectorId = (c.cache j).sectorId := by
      intro j dirty
      by_cases at_i : j = i
      · subst at_i; simp at dirty
      · rw [put_cache_ne at_i] at dirty ⊢
        exact ⟨(same j).2.1.symm.trans dirty, (same j).1⟩
    refine ⟨_, by rw [write_of_hit hit, works]; rfl, ⟨stored.log _, ?_, foreign,
      fun j now => Or.inr (dirty j now), fun reliable => reliable.afterWrite s b, ?_⟩, rfl, dirty⟩
    · intro t _
      rw [log_view, view t, show (c.hitAt i).view d = c.view d from funext fun t => same.view t]
    · intro k old
      refine ⟨k, (old.hitAt holds).of_valid rfl fun j => ?_⟩
      by_cases at_i : j = i
      · subst at_i; simp
      · rw [log_cache, put_cache_ne at_i]
  · obtain ⟨stored, view⟩ := coherent.bypassed absent works b
    exact ⟨_, by rw [write_of_miss missed, works]; rfl, ⟨stored.log _, fun t _ => by rw [log_view, view],
      foreign, fun j dirty => Or.inr ⟨dirty, rfl⟩, fun reliable => reliable.afterWrite s b,
      fun k old => ⟨k, old⟩⟩, rfl, fun j dirty => ⟨dirty, rfl⟩⟩

end ExFatSlim.SlotCache
