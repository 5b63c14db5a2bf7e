import ExFatSlim.SlotCacheRuns

namespace ExFatSlim

namespace CacheOp

variable {size n : Nat}

/-- The sector an operation is about. -/
def sector? : CacheOp size → Option Nat
  | .read s => some s
  | .readMut s _ => some s
  | .write s _ => some s
  | .flushSector s => some s
  | .flush => none

/-- The latest content known to be accepted, sector by sector, after one more
operation. A call that failed leaves nothing to rely on for its own sector. -/
def accept (op : CacheOp size) (r : Except (Fault ExFatError) (Option (Block size)))
    (known : Nat → Option (Block size)) : Nat → Option (Block size) :=
  match op, r with
  | .readMut s _, .ok b => Function.update known s b
  | .write s b, .ok _ => Function.update known s (some b)
  | _, .ok _ => known
  | op, .error _ =>
    match op.sector? with
    | some s => Function.update known s none
    | none => known

/-- The run keeps its promises: after each operation every valid slot that is
not dirty agrees with the device, and a read that succeeds shows the latest
content accepted. -/
def StaysCoherent : List (CacheOp size) → (Nat → Option (Block size)) → CacheIo size n → Prop
  | [], _, _ => True
  | op :: rest, known, io =>
    (op.run io).2.1.Synced (op.run io).2.2 ∧
    (∀ s b, op = .read s → (op.run io).1 = .ok (some b) → ∀ b', known s = some b' → b = b') ∧
    StaysCoherent rest (op.accept (op.run io).1 known) (op.run io).2

/-- The two ways a device error corrupts the cache: the device fails to fill a
victim slot that still stands for another sector and leaves other bytes in it;
or it fails a full-block write of a cached sector, whose slot already has the
new bytes and counts as clean. -/
def Damages (op : CacheOp size) (io : CacheIo size n) : Prop :=
  match op with
  | .read s | .readMut s _ =>
    (io.1.cacheHit s).1 = none ∧ ∃ i c d, SlotCache.chooseVictim io = (.ok i, c, d) ∧
      (c.cache i).isValid = true ∧ d.succeeds = false ∧ d.fetched s ≠ (c.cache i).block
  | .write s b => (io.1.cacheHit s).1 ≠ none ∧ io.2.succeeds = false ∧ b ≠ io.2.blocks s
  | .flushSector _ | .flush => False

/-- No operation of the run meets a damaging device error. -/
def Undamaged : List (CacheOp size) → CacheIo size n → Prop
  | [], _ => True
  | op :: rest, io => ¬ op.Damages io ∧ Undamaged rest (op.run io).2

end CacheOp

namespace SlotCache

variable {size n : Nat} {c c' : SlotCache size n} {d d' : BlockDevice size}

/-- What the cache shows agrees with everything that was accepted. -/
def Agrees (c : SlotCache size n) (d : BlockDevice size) (known : Nat → Option (Block size)) : Prop :=
  ∀ s b, known s = some b → c.view d s = b

/-- One operation that met no damaging error, whether it succeeded or not. -/
structure Undamaging (op : CacheOp size) (c : SlotCache size n) (d : BlockDevice size)
    (r : Except (Fault ExFatError) (Option (Block size))) (c' : SlotCache size n)
    (d' : BlockDevice size) : Prop where
  coherent : c'.Coherent .univ d'
  agrees : ∀ known, c.Agrees d known → c'.Agrees d' (op.accept r known)
  shown : ∀ s b, op = .read s → r = .ok (some b) → b = c.view d s

theorem Agrees.update {known : Nat → Option (Block size)} (agrees : c.Agrees d known) {s : Nat}
    {b : Block size} (view : c'.view d' = Function.update (c.view d) s b) :
    c'.Agrees d' (Function.update known s (some b)) := by
  intro t x expected
  rw [view]
  by_cases same : t = s
  · subst same
    simpa using expected
  · rw [Function.update_of_ne same] at expected ⊢
    exact agrees t x expected

theorem Agrees.forget {known : Nat → Option (Block size)} (agrees : c.Agrees d known) {s : Nat}
    (view : ∀ t, t ≠ s → c'.view d' t = c.view d t) :
    c'.Agrees d' (Function.update known s none) := by
  intro t x expected
  by_cases same : t = s
  · simp [same] at expected
  · rw [Function.update_of_ne same] at expected
    rw [view t same]
    exact agrees t x expected

theorem Evolved.agrees {known : Nat → Option (Block size)} (evolved : Evolved .univ c d c' d')
    (agrees : c.Agrees d known) : c'.Agrees d' known :=
  fun t x expected => (evolved.view t trivial).trans (agrees t x expected)

/-- A slot that is filled with other bytes by a failing read, and still counts
as a clean copy of its old sector, disagrees with the device. -/
theorem garbled_not_synced {i : Fin n} {s : Nat} (coherent : c.Coherent .univ d)
    (valid : (c.cache i).isValid = true) (clean : (c.cache i).isDirty = false)
    (changed : d.fetched s ≠ (c.cache i).block) :
    ¬ (c.put i { c.cache i with block := d.fetched s }).Synced d.afterRead := by
  intro synced
  have now := synced i (by simpa using valid) (by simpa using clean)
  rw [put_cache_self, BlockDevice.afterRead_blocks] at now
  exact changed (now.trans (coherent.synced i valid clean trivial).symm)

/-- A fetch that garbles a slot is the damage of a read; any other fetch does none. -/
theorem readInner_damages (coherent : c.Coherent .univ d) {s : Nat} {r : Except (Fault ExFatError) (Fin n)}
    (run : readInner s (c, d) = (r, c', d')) :
    (¬ (CacheOp.read s).Damages (c, d) ∧ Evolved .univ c d c' d') ∨
      ((CacheOp.read s).Damages (c, d) ∧ r = .error (.error .io) ∧ ¬ c'.Synced d') := by
  by_cases damages : (CacheOp.read s).Damages (c, d)
  · refine Or.inr ⟨damages, ?_⟩
    obtain ⟨missed, i, e, x, victim, valid, fails, changed⟩ := damages
    have miss : c.cacheHit s = (none, c) := by
      rcases cacheHit_spec c s with ⟨j, hit, _⟩ | ⟨miss, _⟩
      · simp [hit] at missed
      · exact miss
    have outcome := chooseVictim_spec c d
    rw [victim] at outcome
    rw [readInner_of_miss miss, Exec.bind_of_ok victim, Exec.bind_apply, ioRead_apply, fails] at run
    simp only [Bool.false_eq_true, if_false, Prod.mk.injEq] at run
    obtain ⟨failed, rfl, rfl⟩ := run
    exact ⟨failed.symm, garbled_not_synced (outcome.evolved coherent).coherent valid
      (outcome.chosen coherent).1 changed⟩
  · refine Or.inl ⟨damages, ?_⟩
    have outcome := readInner_spec coherent s
    rw [run] at outcome
    cases outcome with
    | fetched evolved => exact evolved
    | failed evolved => exact evolved
    | garbled missed chosen _ valid _ fails changed =>
      exact absurd ⟨missed, _, _, _, chosen, valid, fails, changed⟩ damages

/-- What one operation comes to: it does no damage, and then all promises are
kept, or it leaves a clean slot that disagrees with the device. -/
def DamageSplit (op : CacheOp size) (c : SlotCache size n) (d : BlockDevice size) : Prop :=
  (¬ op.Damages (c, d) ∧ Undamaging op c d (op.run (c, d)).1 (op.run (c, d)).2.1 (op.run (c, d)).2.2) ∨
    (op.Damages (c, d) ∧ ¬ (op.run (c, d)).2.1.Synced (op.run (c, d)).2.2)

theorem damageSplit_of_run {op : CacheOp size} {r : Except (Fault ExFatError) (Option (Block size))}
    (run : op.run (c, d) = (r, c', d'))
    (split : (¬ op.Damages (c, d) ∧ Undamaging op c d r c' d') ∨ (op.Damages (c, d) ∧ ¬ c'.Synced d')) :
    DamageSplit op c d := by
  rw [DamageSplit, run]
  exact split

theorem read_damageSplit (coherent : c.Coherent .univ d) (s : Nat) : DamageSplit (.read s) c d := by
  rcases fetch : readInner s (c, d) with ⟨e | i, c₁, d₁⟩
  · have whole : (CacheOp.read s).run (c, d) = (.error e, c₁.log (.look s), d₁) :=
      Exec.bind_of_error (by rw [read_apply, fetch])
    apply damageSplit_of_run whole
    rcases readInner_damages coherent fetch with ⟨safe, evolved⟩ | ⟨damages, _, broken⟩
    · exact Or.inl ⟨safe, evolved.coherent.log _, fun known agrees =>
        (evolved.agrees agrees).forget fun t _ => rfl, by simp⟩
    · exact Or.inr ⟨damages, broken⟩
  · have whole : (CacheOp.read s).run (c, d) = (.ok (some (c₁.cache i).block), c₁.log (.look s), d₁) :=
      Exec.bind_of_ok (by rw [read_apply, fetch])
    apply damageSplit_of_run whole
    rcases readInner_damages coherent fetch with ⟨safe, evolved⟩ | ⟨_, failed, _⟩
    · have outcome := readInner_spec coherent s
      rw [fetch] at outcome
      cases outcome with
      | fetched _ holds =>
        refine Or.inl ⟨safe, evolved.coherent.log _, fun known agrees => evolved.agrees agrees, ?_⟩
        intro t b same shown
        cases same
        cases shown
        rw [← evolved.view s trivial, view_of_holds evolved.coherent.distinct holds]
    · cases failed

theorem readMut_damageSplit (coherent : c.Coherent .univ d) (s : Nat) (f : Block size → Block size) :
    DamageSplit (.readMut s f) c d := by
  rcases fetch : readInner s (c, d) with ⟨e | i, c₁, d₁⟩
  · have whole : (CacheOp.readMut s f).run (c, d) = (.error e, c₁.log (.change s), d₁) :=
      Exec.bind_of_error (by rw [readMut_apply, fetch])
    apply damageSplit_of_run whole
    rcases readInner_damages coherent fetch with ⟨safe, evolved⟩ | ⟨damages, _, broken⟩
    · exact Or.inl ⟨safe, evolved.coherent.log _, fun known agrees =>
        (evolved.agrees agrees).forget fun t _ => rfl, by simp⟩
    · exact Or.inr ⟨damages, broken⟩
  · have whole : (CacheOp.readMut s f).run (c, d) = (.ok (some (f (c₁.cache i).block)),
        (c₁.put i { c₁.cache i with isDirty := true, block := f (c₁.cache i).block }).log (.change s),
        d₁) :=
      Exec.bind_of_ok (by rw [readMut_apply, fetch])
    apply damageSplit_of_run whole
    rcases readInner_damages coherent fetch with ⟨safe, evolved⟩ | ⟨_, failed, _⟩
    · have outcome := readInner_spec coherent s
      rw [fetch] at outcome
      cases outcome with
      | fetched _ holds filled =>
        have stored := evolved.readMut holds trivial filled (f (c₁.cache i).block) (.change s)
        exact Or.inl ⟨safe, stored.coherent, fun known agrees =>
          agrees.update (funext fun t => stored.view t trivial), by simp⟩
    · cases failed

theorem write_damageSplit (coherent : c.Coherent .univ d) (s : Nat) (b : Block size) :
    DamageSplit (.write s b) c d := by
  by_cases works : d.succeeds = true
  · obtain ⟨c', run, stored, _⟩ := write_spec coherent works trivial b
    exact damageSplit_of_run (Exec.bind_of_ok run)
      (Or.inl ⟨by simp [CacheOp.Damages, works], stored.coherent,
        fun known agrees => agrees.update (funext fun t => stored.view t trivial), by simp⟩)
  have fails : d.succeeds = false := by simpa using works
  rcases cacheHit_spec c s with ⟨i, hit, holds⟩ | ⟨missed, absent⟩
  · have whole := write_of_hit (d := d) hit b
    rw [fails, BlockDevice.afterWrite_of_fails fails] at whole
    apply damageSplit_of_run (Exec.bind_of_error whole)
    have same := hitAt_sameSlots c i
    by_cases equal : b = d.blocks s
    · obtain ⟨coherent', view⟩ := (same.coherent coherent).stored (same.holds.mpr holds)
        d.afterRead b false (fun _ _ => rfl) (fun _ => equal.symm) (by simp)
      refine Or.inl ⟨by simp [CacheOp.Damages, equal], coherent'.log _, fun known agrees =>
        agrees.forget fun t other => ?_, by simp⟩
      rw [log_view, view t, Function.update_of_ne other, same.view]
    · refine Or.inr ⟨⟨by simp [hit], fails, equal⟩, fun synced => ?_⟩
      have now := synced i (by simpa [(same i).2.2.1] using holds.1) (by simp)
      simp only [log_cache, put_cache_self, BlockDevice.afterRead_blocks, (same i).1, holds.2] at now
      exact equal now
  · have whole := write_of_miss (d := d) missed b
    rw [fails, BlockDevice.afterWrite_of_fails fails] at whole
    have kept := coherent.evolved_self.afterRead
    exact damageSplit_of_run (Exec.bind_of_error whole)
      (Or.inl ⟨by simp [CacheOp.Damages, missed], kept.coherent.log _, fun known agrees =>
        (kept.agrees agrees).forget fun t _ => rfl, by simp⟩)

theorem flushSector_damageSplit (coherent : c.Coherent .univ d) (s : Nat) :
    DamageSplit (.flushSector s) c d := by
  obtain ⟨r, c', d', run, evolved, _, _, outcome, _⟩ := flushSector_spec coherent s
  rcases outcome with rfl | ⟨rfl, _⟩
  · exact damageSplit_of_run (Exec.bind_of_ok run)
      (Or.inl ⟨id, evolved.coherent, fun known agrees => evolved.agrees agrees, by simp⟩)
  · exact damageSplit_of_run (Exec.bind_of_error run)
      (Or.inl ⟨id, evolved.coherent, fun known agrees =>
        (evolved.agrees agrees).forget fun t _ => rfl, by simp⟩)

theorem flush_damageSplit (coherent : c.Coherent .univ d) : DamageSplit .flush c d := by
  obtain ⟨r, c', d', run, evolved, _, _, outcome⟩ := flushSlots_spec (List.finRange n) coherent
  rcases outcome with ⟨rfl, _⟩ | ⟨rfl, _⟩
  · exact damageSplit_of_run (Exec.bind_of_ok run)
      (Or.inl ⟨id, evolved.coherent, fun known agrees => evolved.agrees agrees, by simp⟩)
  · exact damageSplit_of_run (Exec.bind_of_error run)
      (Or.inl ⟨id, evolved.coherent, fun known agrees => evolved.agrees agrees, by simp⟩)

theorem damageSplit (coherent : c.Coherent .univ d) (op : CacheOp size) : DamageSplit op c d := by
  cases op with
  | read s => exact read_damageSplit coherent s
  | readMut s f => exact readMut_damageSplit coherent s f
  | write s b => exact write_damageSplit coherent s b
  | flushSector s => exact flushSector_damageSplit coherent s
  | flush => exact flush_damageSplit coherent

theorem staysCoherent_iff (ops : List (CacheOp size)) :
    ∀ {c : SlotCache size n} {d : BlockDevice size} {known : Nat → Option (Block size)},
      c.Coherent .univ d → c.Agrees d known →
      (CacheOp.StaysCoherent ops known (c, d) ↔ CacheOp.Undamaged ops (c, d)) := by
  induction ops with
  | nil => intros; exact Iff.rfl
  | cons op rest ih =>
    intro c d known coherent agrees
    rcases damageSplit coherent op with ⟨safe, kept⟩ | ⟨damages, broken⟩
    · have next := ih kept.coherent (kept.agrees known agrees)
      constructor
      · rintro ⟨_, _, later⟩
        exact ⟨safe, next.mp later⟩
      · rintro ⟨_, later⟩
        refine ⟨fun i valid clean => kept.coherent.synced i valid clean trivial, ?_, next.mpr later⟩
        intro s b same ok b' expected
        rw [kept.shown s b same ok, agrees s b' expected]
    · exact ⟨fun stays => absurd stays.1 broken, fun undamaged => absurd damages undamaged.1⟩

/-- A run on a device that may fail at any access keeps the cache coherent,
and every sector's accepted content, exactly when no device error of the run
is a damaging one. -/
theorem slotCache_coherent_iff_undamaged [NeZero n] (blocks : Nat → Block size)
    (script : List (Option (Block size))) (ops : List (CacheOp size)) :
    CacheOp.StaysCoherent ops (fun s => some (blocks s))
        ((SlotCache.new : SlotCache size n), ⟨blocks, script, []⟩) ↔
      CacheOp.Undamaged ops ((SlotCache.new : SlotCache size n), ⟨blocks, script, []⟩) := by
  refine staysCoherent_iff ops (new_coherent _ _) ?_
  intro s b expected
  rw [new_view]
  exact Option.some.inj expected

/-- One slot: sector 1 is cached, then the read of sector 2 fails. The failed
read is a damaging error, because its bytes stay in the slot of sector 1. -/
theorem slotCache_coherent_iff_undamaged_one_slot :
    ¬ CacheOp.Undamaged [.read 1, .read 2] ((SlotCache.new : SlotCache 512 1),
      ⟨fun _ _ => 0, [none, some fun _ => 255], []⟩) := by
  rw [← slotCache_coherent_iff_undamaged]
  rintro ⟨_, _, synced, _⟩
  have byte := congrFun (synced 0 rfl rfl) 0
  exact absurd byte (by decide)

/-- A failed read of sector 2 makes a later read of sector 1 show its bytes;
and a failed write of a cached sector leaves a clean slot the device does not agree with. -/
theorem slotCache_incoherent_after_device_error :
    ¬ CacheOp.StaysCoherent [.read 1, .read 2, .read 1] (fun _ => some fun _ => 0)
      ((SlotCache.new : SlotCache 512 1), ⟨fun _ _ => 0, [none, some fun _ => 255], []⟩) ∧
    ¬ CacheOp.StaysCoherent [.read 1, .write 1 (fun _ => 7)] (fun _ => some fun _ => 0)
      ((SlotCache.new : SlotCache 512 4), ⟨fun _ _ => 0, [none, some fun _ => 0], []⟩) := by
  constructor
  · rintro ⟨_, _, _, _, _, shown, _⟩
    have byte := congrFun (shown 1 (fun _ => 255) rfl rfl (fun _ => 0) rfl) 0
    exact absurd byte (by decide)
  · rintro ⟨_, _, synced, _⟩
    have byte := congrFun (synced 0 rfl rfl) 0
    exact absurd byte (by decide)

end SlotCache

end ExFatSlim
