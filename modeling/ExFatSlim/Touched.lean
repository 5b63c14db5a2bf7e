import ExFatSlim.ReadOnly

namespace ExFatSlim

open Exec

/-- The cache that a touched sector is flushed in. -/
def TouchedKind.cache : TouchedKind → Option CacheKind
  | .data => some .data
  | .dir => some .data
  | .fat => some .fat
  | .bitmap => some .bitmap
  | .none => Option.none

namespace FileDirty

variable {home : Nat → CacheKind} {t : FileDirty}

/-- A flush of the touched set reaches sector `s` of cache `k`. -/
def Covers (t : FileDirty) (k : CacheKind) (s : Nat) : Prop :=
  t.overflowed = true ∨ ∃ item ∈ t.sectors, item.kind.cache = some k ∧ item.sector = s

/-- Each sector is recorded for the cache in charge of it. -/
def AtHome (home : Nat → CacheKind) (t : FileDirty) : Prop :=
  ∀ item ∈ t.sectors, item.kind.cache = some (home item.sector)

theorem atHome_new : FileDirty.new.AtHome home := by simp [AtHome, FileDirty.new]

theorem not_covers_new (k : CacheKind) (s : Nat) : ¬ FileDirty.new.Covers k s := by
  simp [Covers, FileDirty.new]

theorem AtHome.insert (atHome : t.AtHome home) {kind : TouchedKind} {s : Nat}
    (here : kind.cache = some (home s)) : (t.insert ⟨kind, s⟩).AtHome home := by
  unfold FileDirty.insert
  split
  · exact atHome
  · split
    · intro item member
      rcases List.mem_append.mp member with old | added
      · exact atHome item old
      · cases List.mem_singleton.mp added
        exact here
    · exact atHome

theorem Covers.insert {k : CacheKind} {s : Nat} (covers : t.Covers k s) (item : TouchedSector) :
    (t.insert item).Covers k s := by
  unfold FileDirty.insert
  split
  · exact covers
  · split
    · rcases covers with all | ⟨old, member, matched⟩
      · exact Or.inl all
      · exact Or.inr ⟨old, List.mem_append_left _ member, matched⟩
    · exact Or.inl rfl

/-- The record that is already there for the sector may be of another kind, but
it is for the same cache. -/
theorem AtHome.covers_insert (atHome : t.AtHome home) {kind : TouchedKind} {s : Nat}
    (here : kind.cache = some (home s)) : (t.insert ⟨kind, s⟩).Covers (home s) s := by
  unfold FileDirty.insert
  split
  · rename_i known
    obtain ⟨item, member, same⟩ := List.any_eq_true.mp known
    have same : item.sector = s := by simpa using same
    exact Or.inr ⟨item, member, by rw [atHome item member, same], same⟩
  · split
    · exact Or.inr ⟨⟨kind, s⟩, by simp, here, rfl⟩
    · exact Or.inl rfl

end FileDirty

variable {size n : Nat} {home : Nat → CacheKind} {α : Type}

namespace FileSystem

/-- A later state with no new dirty sector, if every change was made through
the cache in charge of the sector. -/
structure Keeps (home : Nat → CacheKind) (fs fs' : FileSystem size n) : Prop where
  changed : ∀ k s, fs.Changed k s → fs'.Changed k s
  sound : fs'.AtHome home → fs.Sound home → fs'.Sound home
  dirty : fs'.AtHome home → fs.Sound home → ∀ k, fs'.dirty k ⊆ fs.dirty k

instance : Std.Refl (Keeps home : FileSystem size n → FileSystem size n → Prop) where
  refl _ := ⟨fun _ _ => id, fun _ => id, fun _ _ _ _ => id⟩

instance : Trans (Keeps home : FileSystem size n → FileSystem size n → Prop) (Keeps home) (Keeps home) where
  trans first second := by
    have earlier : ∀ {fs fs' : FileSystem size n}, Keeps home fs fs' → fs'.AtHome home → fs.AtHome home :=
      fun keeps atHome k s changed => atHome k s (keeps.changed k s changed)
    refine ⟨fun k s changed => second.changed k s (first.changed k s changed), fun atHome sound => ?_,
      fun atHome sound k s dirty => ?_⟩
    · exact second.sound atHome (first.sound (earlier second atHome) sound)
    · have before := earlier second atHome
      exact first.dirty before sound k (second.dirty atHome (first.sound before sound) k dirty)

theorem Looks.keeps {fs fs' : FileSystem size n} (looks : Looks home fs fs') : Keeps home fs fs' :=
  ⟨fun k s => (looks.changed k s).mpr, fun _ sound => (looks.served sound).sound,
    fun _ sound => (looks.served sound).dirty⟩

/-- A state that differs in nothing the caches and the device hold. -/
theorem keeps_of_same {fs fs' : FileSystem size n} (caches : ∀ k, fs'.cacheOf k = fs.cacheOf k)
    (dev : fs.dev.Reliable → fs'.dev = fs.dev) : Keeps home fs fs' := by
  refine ⟨fun k s changed => ?_, fun _ sound k => ?_, fun _ _ k s => ?_⟩
  · rwa [Changed, caches k]
  · rw [caches k, dev (sound k).reliable]
    exact sound k
  · simp only [FileSystem.dirty, caches k]
    exact id

theorem write_keeps (k : CacheKind) (s : Nat) (b : Block size) :
    Respects (Keeps home) (onCache k (SlotCache.write s b) : ExFat (FileSystem size n) Unit) := by
  intro fs
  have logs := (onCache_logs (SlotCache.write_trace s b) fs).changed (k := k)
  have fact : (onCache k (SlotCache.write s b) fs).2.AtHome home → fs.Sound home →
      (onCache k (SlotCache.write s b) fs).2.Sound home ∧
        ∀ j, (onCache k (SlotCache.write s b) fs).2.dirty j ⊆ fs.dirty j := by
    intro atHome sound
    have here : home s = k := atHome k s ((logs k s).mpr (Or.inl ⟨rfl, rfl⟩))
    obtain ⟨fs', run, wrote, _, dirty⟩ := onCache_write sound here b
    rw [run]
    exact ⟨wrote.sound, dirty⟩
  exact ⟨fun j t old => (logs j t).mpr (Or.inr old), fun atHome sound => (fact atHome sound).1,
    fun atHome sound => (fact atHome sound).2⟩

/-- Flushing shows in no trace. -/
theorem onCache_changed_of_quiet {k : CacheKind} {m : ExFat (CacheIo size n) α}
    (trace : ∀ io, (m io).2.1.trace = io.1.trace) (fs : FileSystem size n) (j : CacheKind) (s : Nat) :
    (onCache k m fs).2.Changed j s ↔ fs.Changed j s := by
  by_cases same : j = k
  · subst same
    simp [Changed, onCache, zoom_apply, trace]
  · simp [Changed, onCache, zoom_apply, cacheOf_putCache_ne same]

theorem getCurrentTimestamp_keeps :
    Respects (Keeps home) (getCurrentTimestamp : ExFat (FileSystem size n) EncodedTimestamp) := by
  intro fs
  cases provider : fs.timeProvider with
  | some getTimestamp =>
    have run : getCurrentTimestamp fs = (getTimestamp fs.clock).encode { fs with clock := fs.clock + 1 } := by
      simp [getCurrentTimestamp, bind_apply, provider]
    have ticked : Keeps home fs { fs with clock := fs.clock + 1 } :=
      keeps_of_same (fun k => by cases k <;> rfl) fun _ => rfl
    have encoded : Respects (Keeps home)
        ((getTimestamp fs.clock).encode : ExFat (FileSystem size n) EncodedTimestamp) :=
      .bind (.assert _) fun _ => .pure _
    rw [run]
    exact Trans.trans ticked (encoded _)
  | none =>
    have run : getCurrentTimestamp fs = (.ok {}, fs) := by
      simp [getCurrentTimestamp, bind_apply, provider]
    rw [run]
    exact Std.Refl.refl fs

theorem findFreeClusters_keeps (fromCluster : Option Nat) (numClusters : Nat) (policy : SearchPolicy) :
    Respects (Keeps home)
      (Allocator.findFreeClusters fromCluster numClusters policy : ExFat (FileSystem size n) _) := by
  refine .bind .get fun fs => ?_
  refine .bind ((Allocator.findWrapping_looks _ _ _).mono fun _ _ => Looks.keeps) fun run => ?_
  refine .bind (u32_respects _) fun next => .bind (.modify fun fs => ?_) fun _ => .pure _
  exact keeps_of_same (fun k => by cases k <;> rfl) fun _ => rfl

theorem devRead_keeps (s : Nat) :
    Respects (Keeps home) (devRead s : ExFat (FileSystem size n) (Block size)) := by
  intro fs
  have read : Keeps home fs { fs with dev := fs.dev.afterRead } :=
    keeps_of_same (fun k => by cases k <;> rfl) BlockDevice.Reliable.afterRead
  have rest : Respects (Keeps home) (if fs.dev.succeeds then pure (fs.dev.fetched s) else raise .io :
      ExFat (FileSystem size n) (Block size)) := .ite (.pure _) (.raise _)
  exact Trans.trans read (rest { fs with dev := fs.dev.afterRead })

theorem loadUpcaseTable_keeps (firstCluster : Nat) (details : FileSystemDetails) :
    Respects (Keeps home) (loadUpcaseTable firstCluster details : ExFat (FileSystem size n) UpcaseTable) :=
  .bind (getHeapSectorId_respects _ _) fun _ => .bind (devRead_keeps _) fun _ => .pure _

theorem mount_keeps : Respects (Keeps home) (mount : ExFat (FileSystem size n) Unit) := by
  refine .bind .get fun fs => .ite (.pure _) (.bind (devRead_keeps 0) fun boot => ?_)
  refine .bind (tryFrom_respects _) fun boot => .bind (getHeapSectorId_respects _ _) fun sectorId => ?_
  refine .bind (devRead_keeps _) fun data => .bind (scanRootEntries_respects _ _) fun found => ?_
  split
  · exact .raise _
  · refine .when (.raise _) fun _ => ?_
    split
    · exact .raise _
    · refine .bind (loadUpcaseTable_keeps _ _) fun table => .bind (.modify fun fs => ?_) fun _ => ?_
      · exact keeps_of_same (fun k => by cases k <;> rfl) fun _ => rfl
      · refine .bind (getHeapSectorId_respects _ _) fun first => .modify fun fs => ?_
        exact keeps_of_same (fun k => by cases k <;> rfl) fun _ => rfl

end FileSystem

namespace Session

variable {s s' : Session size n}

/-- A session of sound caches whose records are for the caches in charge. -/
structure Tracked (home : Nat → CacheKind) (s : Session size n) : Prop where
  sound : s.fs.Sound home
  atHome : s.touched.AtHome home

/-- A dirty sector that the touched set does not cover. -/
def Loose (s : Session size n) (k : CacheKind) (t : Nat) : Prop :=
  t ∈ s.fs.dirty k ∧ ¬ s.touched.Covers k t

/-- A later session in which every new dirty sector is covered, if every change
was made through the cache in charge of the sector. -/
structure Tracks (home : Nat → CacheKind) (s s' : Session size n) : Prop where
  changed : ∀ k t, s.fs.Changed k t → s'.fs.Changed k t
  tracked : s'.fs.AtHome home → s.Tracked home → s'.Tracked home
  loose : s'.fs.AtHome home → s.Tracked home → ∀ k t, s'.Loose k t → s.Loose k t

theorem Tracks.atHome (tracks : Tracks home s s') (atHome : s'.fs.AtHome home) : s.fs.AtHome home :=
  fun k t changed => atHome k t (tracks.changed k t changed)

instance : Std.Refl (Tracks home : Session size n → Session size n → Prop) where
  refl _ := ⟨fun _ _ => id, fun _ => id, fun _ _ _ _ => id⟩

instance : Trans (Tracks home : Session size n → Session size n → Prop) (Tracks home) (Tracks home) where
  trans first second := by
    refine ⟨fun k t changed => second.changed k t (first.changed k t changed), fun atHome tracked => ?_,
      fun atHome tracked k t loose => ?_⟩
    · exact second.tracked atHome (first.tracked (second.atHome atHome) tracked)
    · have before := second.atHome atHome
      exact first.loose before tracked k t (second.loose atHome (first.tracked before tracked) k t loose)

/-- A change of the file system alone. -/
theorem Tracks.of_keeps {fs' : FileSystem size n} (keeps : FileSystem.Keeps home s.fs fs') :
    Tracks home s { s with fs := fs' } where
  changed := keeps.changed
  tracked atHome tracked := ⟨keeps.sound atHome tracked.sound, tracked.atHome⟩
  loose atHome tracked k _ loose := ⟨keeps.dirty atHome tracked.sound k loose.1, loose.2⟩

theorem onFs_tracks {m : ExFat (FileSystem size n) α} (keeps : Respects (FileSystem.Keeps home) m) :
    Respects (Tracks home) (onFs m) :=
  keeps.zoom fun _ _ => .of_keeps

theorem onFs_looks {m : ExFat (FileSystem size n) α} (looks : Respects (FileSystem.Looks home) m) :
    Respects (Tracks home) (onFs m) :=
  onFs_tracks (looks.mono fun _ _ => FileSystem.Looks.keeps)

/-- A change of a sector together with its record. -/
theorem Tracks.changes {kind : TouchedKind} {k : CacheKind} {t : Nat} {b : Block size}
    {fs' : FileSystem size n} (cached : kind.cache = some k)
    (logs : FileSystem.Logs k (.change t) s.fs fs')
    (wrote : home t = k → s.fs.Sound home → FileSystem.Wrote home k t b s.fs fs') :
    Tracks home s ⟨fs', s.touched.insert ⟨kind, t⟩⟩ := by
  have here : fs'.AtHome home → home t = k :=
    fun atHome => atHome k t ((logs.changed k t).mpr (Or.inl ⟨rfl, rfl⟩))
  refine ⟨fun j r old => (logs.changed j r).mpr (Or.inr old), fun atHome tracked => ?_,
    fun atHome tracked j r loose => ?_⟩
  · exact ⟨(wrote (here atHome) tracked.sound).sound, tracked.atHome.insert (by rw [cached, here atHome])⟩
  · have owner := here atHome
    subst owner
    rcases (wrote rfl tracked.sound).dirty j loose.1 with old | ⟨rfl, rfl⟩
    · exact ⟨old, fun covers => loose.2 (covers.insert _)⟩
    · exact absurd (tracked.atHome.covers_insert cached) loose.2

theorem wrote_readMut {k : CacheKind} {t : Nat} (f : Block size → Block size) {fs : FileSystem size n}
    (here : home t = k) (sound : fs.Sound home) : ∃ b, (FileSystem.onCache k (SlotCache.readMut t f) fs).1 = .ok b ∧
      FileSystem.Wrote home k t (f (fs.sector home t)) fs (FileSystem.onCache k (SlotCache.readMut t f) fs).2 := by
  obtain ⟨fs', run, wrote, _⟩ := FileSystem.onCache_readMut sound here f
  rw [run]
  exact ⟨_, rfl, wrote⟩

theorem readMut_insert_tracks {kind : TouchedKind} {k : CacheKind} (cached : kind.cache = some k) (t : Nat)
    (f : Block size → Block size) :
    Respects (Tracks home) (onCache k (SlotCache.readMut t f) >>= fun _ =>
      (insert ⟨kind, t⟩ : ExFat (Session size n) Unit)) := by
  intro s
  have logs := FileSystem.onCache_logs (k := k) (SlotCache.readMut_trace t f) s.fs
  have wrote := fun (here : home t = k) (sound : s.fs.Sound home) => wrote_readMut f here sound
  rcases run : FileSystem.onCache k (SlotCache.readMut t f) s.fs with ⟨e | b, fs'⟩
  all_goals
    rw [run] at logs wrote
    rw [bind_apply, onCache, onFs, zoom_of_run run]
  · -- a sound cache in charge of the sector does not fail
    have never : fs'.AtHome home → s.Tracked home → False := by
      intro atHome tracked
      have here := atHome k t ((logs.changed k t).mpr (Or.inl ⟨rfl, rfl⟩))
      obtain ⟨b, ok, _⟩ := wrote here tracked.sound
      cases ok
    exact ⟨fun j r old => (logs.changed j r).mpr (Or.inr old),
      fun atHome tracked => (never atHome tracked).elim,
      fun atHome tracked => (never atHome tracked).elim⟩
  · exact .changes cached logs fun here sound => (wrote here sound).choose_spec.2

theorem insert_readMut_tracks {kind : TouchedKind} {k : CacheKind} (cached : kind.cache = some k) (t : Nat)
    (f : Block size → Block size) :
    Respects (Tracks home) (insert ⟨kind, t⟩ >>= fun _ =>
      (onCache k (SlotCache.readMut t f) : ExFat (Session size n) _)) := by
  intro s
  exact .changes cached (FileSystem.onCache_logs (SlotCache.readMut_trace t f) s.fs)
    fun here sound => (wrote_readMut f here sound).choose_spec.2

/-- What a touched item stands for is clean after its round. -/
theorem flushTouched_spec (sound : s.fs.Sound home) (item : TouchedSector) :
    ∃ fs', flushTouched item s = (.ok (), { s with fs := fs' }) ∧ FileSystem.Served home s.fs fs' ∧
      ∀ k, item.kind.cache = some k → item.sector ∉ fs'.dirty k := by
  have flushed : ∀ k, ∃ fs', onCache k (SlotCache.flushSector item.sector) s = (.ok (), { s with fs := fs' }) ∧
      FileSystem.Served home s.fs fs' ∧ item.sector ∉ fs'.dirty k := by
    intro k
    obtain ⟨fs', run, served, clean⟩ := FileSystem.onCache_flushSector sound k item.sector
    exact ⟨fs', onCache_of_run run, served, clean⟩
  obtain ⟨kind, sector⟩ := item
  cases kind with
  | none => exact ⟨s.fs, rfl, .refl sound, by simp [TouchedKind.cache]⟩
  | data | dir =>
    obtain ⟨fs', run, served, clean⟩ := flushed .data
    exact ⟨fs', run, served, fun k cached => by cases cached; exact clean⟩
  | fat =>
    obtain ⟨fs', run, served, clean⟩ := flushed .fat
    exact ⟨fs', run, served, fun k cached => by cases cached; exact clean⟩
  | bitmap =>
    obtain ⟨fs', run, served, clean⟩ := flushed .bitmap
    exact ⟨fs', run, served, fun k cached => by cases cached; exact clean⟩

theorem flushAllTouched_spec (items : List TouchedSector) : ∀ {s : Session size n}, s.fs.Sound home →
    ∃ fs', flushAllTouched items s = (.ok (), { s with fs := fs' }) ∧ FileSystem.Served home s.fs fs' ∧
      ∀ item ∈ items, ∀ k, item.kind.cache = some k → item.sector ∉ fs'.dirty k := by
  induction items with
  | nil => exact fun {s} sound => ⟨s.fs, rfl, .refl sound, by simp⟩
  | cons item rest ih =>
    intro s sound
    obtain ⟨fs₁, run₁, served₁, clean₁⟩ := flushTouched_spec sound item
    obtain ⟨fs₂, run₂, served₂, clean₂⟩ := ih (s := { s with fs := fs₁ }) served₁.sound
    refine ⟨fs₂, by rw [flushAllTouched, bind_of_ok run₁, run₂], served₁.trans served₂, ?_⟩
    intro other member k cached
    rcases List.mem_cons.mp member with rfl | member
    · exact fun dirty => clean₁ k cached (served₂.dirty k dirty)
    · exact clean₂ other member k cached

/-- After a flush nothing is recorded any more, and whatever was covered is clean. -/
theorem flush_spec (sound : s.fs.Sound home) :
    ∃ fs', flush s = (.ok (), ⟨fs', .new⟩) ∧ FileSystem.Served home s.fs fs' ∧
      ∀ k t, s.touched.Covers k t → t ∉ fs'.dirty k := by
  rw [flush, bind_of_ok (get_apply s)]
  by_cases overflowed : s.touched.overflowed = true
  · rw [if_pos overflowed]
    obtain ⟨fs₁, run₁, served₁, clean₁⟩ := FileSystem.onCache_flush sound .fat
    obtain ⟨fs₂, run₂, served₂, clean₂⟩ := FileSystem.onCache_flush served₁.sound .bitmap
    obtain ⟨fs₃, run₃, served₃, clean₃⟩ := FileSystem.onCache_flush served₂.sound .data
    refine ⟨fs₃, ?_, served₁.trans (served₂.trans served₃), fun k t _ dirty => ?_⟩
    · rw [bind_of_ok (onCache_of_run run₁), bind_of_ok (onCache_of_run run₂), bind_of_ok (onCache_of_run run₃)]
      rfl
    · cases k with
      | fat => simpa [clean₁] using served₂.dirty _ (served₃.dirty _ dirty)
      | bitmap => simpa [clean₂] using served₃.dirty _ dirty
      | data => simp [clean₃] at dirty
  · rw [if_neg overflowed]
    obtain ⟨fs', run, served, clean⟩ :=
      flushAllTouched_spec s.touched.sort.sectors (s := { s with touched := s.touched.sort }) sound
    refine ⟨fs', ?_, served, fun k t covers => ?_⟩
    · rw [bind_of_ok (modify_apply _ s), bind_of_ok (get_apply _), bind_of_ok run]
      rfl
    · obtain ⟨item, member, cached, rfl⟩ := covers.resolve_left overflowed
      exact clean item ((List.perm_insertionSort _ _).mem_iff.mpr member) k cached

/-- A later session, in which every change so far is still on record. -/
def Grows (s s' : Session size n) : Prop := ∀ k t, s.fs.Changed k t → s'.fs.Changed k t

instance : Std.Refl (Grows : Session size n → Session size n → Prop) where
  refl _ _ _ := id

instance : Trans (Grows : Session size n → Session size n → Prop) Grows Grows where
  trans first second k t changed := second k t (first k t changed)

theorem onCache_grows (k : CacheKind) {m : ExFat (CacheIo size n) α}
    (trace : ∀ io, (m io).2.1.trace = io.1.trace) : Respects Grows (onCache k m) :=
  fun s j t => (FileSystem.onCache_changed_of_quiet trace s.fs j t).mpr

theorem flushTouched_grows (item : TouchedSector) :
    Respects Grows (flushTouched item : ExFat (Session size n) Unit) := by
  have flushed : ∀ k, Respects Grows
      (onCache k (SlotCache.flushSector item.sector) : ExFat (Session size n) Unit) :=
    fun k => onCache_grows k (SlotCache.flushSector_trace item.sector)
  unfold flushTouched
  split
  · exact flushed _
  · exact flushed _
  · exact flushed _
  · exact flushed _
  · exact .pure ()

theorem flushAllTouched_grows (items : List TouchedSector) :
    Respects Grows (flushAllTouched items : ExFat (Session size n) Unit) := by
  induction items with
  | nil => exact .pure ()
  | cons item rest ih => exact .bind (flushTouched_grows item) fun _ => ih

theorem flush_grows : Respects Grows (flush : ExFat (Session size n) Unit) := by
  have flushed : ∀ k, Respects Grows (onCache k SlotCache.flush : ExFat (Session size n) Unit) :=
    fun k => onCache_grows k (SlotCache.flushSlots_trace (List.finRange n))
  have cleared : ∀ f : FileDirty → FileDirty, Respects Grows
      (modify fun s => { s with touched := f s.touched } : ExFat (Session size n) Unit) :=
    fun f => .modify fun s _ _ => id
  refine .bind .get fun s => .ite ?_ ?_
  · exact .bind (flushed _) fun _ => .bind (flushed _) fun _ => .bind (flushed _) fun _ => cleared fun _ => .new
  · exact .bind (cleared _) fun _ => .bind .get fun s => .bind (flushAllTouched_grows _) fun _ =>
      cleared fun _ => .new

theorem flush_tracks : Respects (Tracks home) (flush : ExFat (Session size n) Unit) := by
  intro s
  refine ⟨flush_grows s, fun atHome tracked => ?_, fun atHome tracked k t loose => ?_⟩
  all_goals
    obtain ⟨fs', run, served, clean⟩ := flush_spec tracked.sound
  · rw [run]
    exact ⟨served.sound, FileDirty.atHome_new⟩
  · rw [run] at loose
    exact ⟨served.dirty k loose.1, fun covers => clean k t covers loose.1⟩

/-- Every run that returns ends with an empty touched set. -/
def Drains (m : ExFat (Session size n) α) : Prop :=
  ∀ s a s', m s = (.ok a, s') → s'.touched = .new

theorem Drains.bind {β : Type} {m : ExFat (Session size n) α} {f : α → ExFat (Session size n) β}
    (drains : ∀ a, Drains (f a)) : Drains (m >>= f) := by
  intro s b s' run
  obtain ⟨a, t, _, rest⟩ := bind_eq_ok.mp run
  exact drains a t b s' rest

theorem flush_drains : Drains (flush : ExFat (Session size n) Unit) := by
  have cleared : Drains (modify fun s => { s with touched := .new } : ExFat (Session size n) Unit) := by
    intro s u s' run
    cases run
    rfl
  refine .bind fun s => ?_
  split
  · exact .bind fun _ => .bind fun _ => .bind fun _ => cleared
  · exact .bind fun _ => .bind fun _ => .bind fun _ => cleared

theorem flush_pure_drains (a : α) : Drains (flush >>= fun _ => (pure a : ExFat (Session size n) α)) := by
  intro s b s' run
  obtain ⟨u, t, first, rest⟩ := bind_eq_ok.mp run
  cases rest
  exact flush_drains s u s' first

end Session

end ExFatSlim
