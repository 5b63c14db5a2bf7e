import ExFatSlim.State
import ExFatSlim.SlotCacheRuns
import ExFatSlim.Lib.Leads

namespace ExFatSlim

/-- Everything of a file system but its caches and its device. -/
structure Setup where
  isMounted : Bool
  details : FileSystemDetails
  upcaseTable : UpcaseTable
  bitmap : AllocationBitmapSlim
  nextSearchCluster : Nat
  startOfFatSector : Option Nat
  timeProvider : Option (Nat → Timestamp)
  clock : Nat
  usizeBits : Nat

/-- A volume without caches: a plain array of sectors. -/
structure Volume (size : Nat) where
  setup : Setup
  sectors : Nat → Block size

/-- The volume with another content of one sector. -/
def Volume.store {size : Nat} (v : Volume size) (s : Nat) (b : Block size) : Volume size :=
  { v with sectors := Function.update v.sectors s b }

@[simp] theorem Volume.store_setup {size : Nat} (v : Volume size) (s : Nat) (b : Block size) :
    (v.store s b).setup = v.setup := rfl

@[simp] theorem Volume.store_sectors_self {size : Nat} (v : Volume size) (s : Nat) (b : Block size) :
    (v.store s b).sectors s = b := Function.update_self ..

theorem Volume.store_sectors_ne {size : Nat} (v : Volume size) {s t : Nat} (other : t ≠ s)
    (b : Block size) : (v.store s b).sectors t = v.sectors t := Function.update_of_ne other ..

namespace FileSystem

variable {size n : Nat}

def setup (fs : FileSystem size n) : Setup where
  isMounted := fs.isMounted
  details := fs.fs
  upcaseTable := fs.upcaseTable
  bitmap := fs.allocator.bitmap
  nextSearchCluster := fs.allocator.nextSearchCluster
  startOfFatSector := fs.fat.startOfFatSector
  timeProvider := fs.timeProvider
  clock := fs.clock
  usizeBits := fs.usizeBits

/-- The content of a sector as the cache in charge of it shows it. -/
def sector (fs : FileSystem size n) (home : Nat → CacheKind) (s : Nat) : Block size :=
  (fs.cacheOf (home s)).view fs.dev s

/-- The volume that a file system stands for, `home` naming the cache in
charge of each sector. -/
def volume (home : Nat → CacheKind) (fs : FileSystem size n) : Volume size where
  setup := fs.setup
  sectors := fs.sector home

/-- Each cache is sound on the sectors it is in charge of. -/
def Sound (home : Nat → CacheKind) (fs : FileSystem size n) : Prop :=
  ∀ k, (fs.cacheOf k).Sound {s | home s = k} fs.dev

/-- The sectors with a dirty slot in a cache. -/
def dirty (fs : FileSystem size n) (k : CacheKind) : Set Nat :=
  {s | ∃ i, (fs.cacheOf k).Holds i s ∧ ((fs.cacheOf k).cache i).isDirty = true}

variable {home : Nat → CacheKind} {fs fs' : FileSystem size n}

@[simp] theorem volume_setup : (fs.volume home).setup = fs.setup := rfl

@[simp] theorem volume_sectors (s : Nat) : (fs.volume home).sectors s = fs.sector home s := rfl

@[simp] theorem putCache_dev (k : CacheKind) (c : SlotCache size n) (d : BlockDevice size) :
    (fs.putCache k c d).dev = d := by
  cases k <;> rfl

@[simp] theorem putCache_setup (k : CacheKind) (c : SlotCache size n) (d : BlockDevice size) :
    (fs.putCache k c d).setup = fs.setup := by
  cases k <;> rfl

@[simp] theorem cacheOf_putCache_self (k : CacheKind) (c : SlotCache size n) (d : BlockDevice size) :
    (fs.putCache k c d).cacheOf k = c := by
  cases k <;> rfl

theorem cacheOf_putCache_ne {j k : CacheKind} (other : j ≠ k) (c : SlotCache size n)
    (d : BlockDevice size) : (fs.putCache k c d).cacheOf j = fs.cacheOf j := by
  cases j <;> cases k <;> first | rfl | exact absurd rfl other

end FileSystem

namespace SlotCache

variable {size n : Nat} {c : SlotCache size n} {d d' : BlockDevice size} {own : Set Nat}

/-- A cache stays sound, with the same view, when the device changes elsewhere. -/
theorem Sound.moved (sound : c.Sound own d) (reliable : d'.Reliable)
    (same : ∀ s ∈ own, d'.blocks s = d.blocks s) :
    c.Sound own d' ∧ ∀ s ∈ own, c.view d' s = c.view d s := by
  obtain ⟨⟨distinct, synced, owned⟩, _, filled⟩ := sound
  refine ⟨⟨⟨distinct, fun i valid clean mine => ?_, owned⟩, reliable, filled⟩, fun s mine => ?_⟩
  · rw [same _ mine]
    exact synced i valid clean mine
  · refine view_eq_of distinct (fun i holds => (view_of_holds distinct holds).symm) fun missing => ?_
    rw [same s mine, view_of_missing missing]

end SlotCache

namespace FileSystem

variable {size n : Nat} {home : Nat → CacheKind} {fs fs' : FileSystem size n}

/-- What an operation on one cache makes of the whole: the cache in charge
shows `b` for every sector, and the other caches see nothing of it. -/
theorem Sound.putCache (sound : fs.Sound home) {k : CacheKind} {c : SlotCache size n}
    {d : BlockDevice size} {b : Nat → Block size} (sound' : c.Sound {s | home s = k} d)
    (view : ∀ s, home s = k → c.view d s = b s)
    (foreign : ∀ s, home s ≠ k → d.blocks s = fs.dev.blocks s)
    (kept : ∀ s, home s ≠ k → b s = fs.sector home s) :
    (fs.putCache k c d).Sound home ∧
      (fs.putCache k c d).volume home = ⟨fs.setup, b⟩ := by
  have others : ∀ j, j ≠ k → (fs.cacheOf j).Sound {s | home s = j} d ∧
      ∀ s, home s = j → (fs.cacheOf j).view d s = (fs.cacheOf j).view fs.dev s := by
    intro j other
    exact (sound j).moved sound'.reliable fun s here => foreign s fun there => other (here.symm.trans there)
  constructor
  · intro j
    by_cases same : j = k
    · subst same
      simpa using sound'
    · rw [cacheOf_putCache_ne same, putCache_dev]
      exact (others j same).1
  · have sectors : (fs.putCache k c d).sector home = b := by
      funext s
      by_cases here : home s = k
      · subst here
        rw [sector, cacheOf_putCache_self, putCache_dev]
        exact view s rfl
      · rw [sector, cacheOf_putCache_ne here, putCache_dev, (others _ here).2 s rfl, kept s here]
        rfl
    rw [volume, putCache_setup, sectors]

theorem dirty_putCache {k : CacheKind} {c : SlotCache size n} {d : BlockDevice size} {extra : Set Nat}
    (before : ∀ i s, c.Holds i s → (c.cache i).isDirty = true → s ∈ fs.dirty k ∨ s ∈ extra) (j : CacheKind) :
    (fs.putCache k c d).dirty j ⊆ fs.dirty j ∪ {s | j = k ∧ s ∈ extra} := by
  rintro s ⟨i, holds, dirty⟩
  by_cases same : j = k
  · subst same
    rw [cacheOf_putCache_self] at holds dirty
    exact (before i s holds dirty).imp id fun member => ⟨rfl, member⟩
  · rw [cacheOf_putCache_ne same] at holds dirty
    exact Or.inl ⟨i, holds, dirty⟩

/-- The cache that served an access has it in its trace, and no other cache has. -/
def Logs (k : CacheKind) (a : Access) (fs fs' : FileSystem size n) : Prop :=
  ∀ j, (fs'.cacheOf j).trace = if j = k then a :: (fs.cacheOf j).trace else (fs.cacheOf j).trace

theorem logs_putCache {k : CacheKind} {a : Access} {c : SlotCache size n} {d : BlockDevice size}
    (trace : c.trace = a :: (fs.cacheOf k).trace) : Logs k a fs (fs.putCache k c d) := by
  intro j
  by_cases same : j = k
  · subst same
    simp [trace]
  · simp [cacheOf_putCache_ne same, same]

/-- A later state that shows the same volume and has no new dirty sector. -/
structure Served (home : Nat → CacheKind) (fs fs' : FileSystem size n) : Prop where
  sound : fs'.Sound home
  volume : fs'.volume home = fs.volume home
  dirty : ∀ k, fs'.dirty k ⊆ fs.dirty k

/-- A later state that differs in the content of sector `s`, which is `b` now. -/
structure Wrote (home : Nat → CacheKind) (k : CacheKind) (s : Nat) (b : Block size)
    (fs fs' : FileSystem size n) : Prop where
  sound : fs'.Sound home
  volume : fs'.volume home = (fs.volume home).store s b
  dirty : ∀ j, fs'.dirty j ⊆ fs.dirty j ∪ {t | j = k ∧ t = s}

theorem Served.refl (sound : fs.Sound home) : Served home fs fs := ⟨sound, rfl, fun _ _ => id⟩

theorem Served.trans {fs'' : FileSystem size n} (first : Served home fs fs')
    (second : Served home fs' fs'') : Served home fs fs'' :=
  ⟨second.sound, second.volume.trans first.volume, fun k _ late => first.dirty k (second.dirty k late)⟩

/-- An evolved cache in its place. -/
theorem Sound.evolved (sound : fs.Sound home) {k : CacheKind} {c : SlotCache size n}
    {d : BlockDevice size} (evolved : SlotCache.Evolved {s | home s = k} (fs.cacheOf k) fs.dev c d)
    (filled : ∃ k', c.FilledTo k') (a : Access) :
    Served home fs (fs.putCache k (c.log a) d) ∧ Served home fs (fs.putCache k c d) := by
  have dirty : ∀ i s, c.Holds i s → (c.cache i).isDirty = true → s ∈ fs.dirty k ∨ s ∈ (∅ : Set Nat) := by
    intro i s holds now
    obtain ⟨before, id⟩ := evolved.dirty i now
    have owned := ((sound k).coherent.owned i before).1
    exact Or.inl ⟨i, ⟨owned, id.symm.trans holds.2⟩, before⟩
  have placed : ∀ e : SlotCache size n, e.Sound {s | home s = k} d → (∀ s, e.view d s = c.view d s) →
      (∀ i s, e.Holds i s → (e.cache i).isDirty = true → s ∈ fs.dirty k ∨ s ∈ (∅ : Set Nat)) →
      Served home fs (fs.putCache k e d) := by
    intro e soundE view dirtyE
    obtain ⟨sound', volume⟩ := sound.putCache (b := fs.sector home) soundE
      (fun s here => by
        rw [view s, evolved.view s here, sector, here])
      (fun s there => evolved.foreign s there) (fun s _ => rfl)
    refine ⟨sound', volume, fun j s member => ?_⟩
    exact (dirty_putCache dirtyE j member).resolve_right (by simp)
  have reliable := evolved.reliable (sound k).reliable
  exact ⟨placed _ ⟨evolved.coherent.log a, reliable, filled⟩ (fun s => rfl) dirty,
    placed _ ⟨evolved.coherent, reliable, filled⟩ (fun s => rfl) dirty⟩

theorem Sound.stored (sound : fs.Sound home) {k : CacheKind} {c : SlotCache size n}
    {d : BlockDevice size} {s : Nat} {b : Block size} (here : home s = k)
    (stored : SlotCache.Stored {s | home s = k} (fs.cacheOf k) fs.dev s b c d) :
    Wrote home k s b fs (fs.putCache k c d) := by
  obtain ⟨sound', volume⟩ := sound.putCache (b := Function.update (fs.sector home) s b)
    (stored.sound (sound k))
    (fun t mine => by
      rw [stored.view t mine]
      by_cases same : t = s
      · simp [same]
      · simp [same, sector, show home t = k from mine])
    (fun t there => stored.foreign t there)
    (fun t there => by
      have apart : t ≠ s := fun equal => there (equal ▸ here)
      rw [Function.update_of_ne apart])
  refine ⟨sound', volume, fun j t member => ?_⟩
  have dirty : ∀ i t, c.Holds i t → (c.cache i).isDirty = true → t ∈ fs.dirty k ∨ t ∈ ({s} : Set Nat) := by
    intro i t holds now
    rcases stored.dirty i now with id | ⟨before, id⟩
    · exact Or.inr (holds.2.symm.trans id)
    · exact Or.inl ⟨i, ⟨((sound k).coherent.owned i before).1, id.symm.trans holds.2⟩, before⟩
  exact dirty_putCache dirty j member

theorem onCache_of_run {α : Type} {k : CacheKind} {m : ExFat (CacheIo size n) α} {c : SlotCache size n}
    {d : BlockDevice size} {r : Except (Fault ExFatError) α}
    (run : m (fs.cacheOf k, fs.dev) = (r, c, d)) : onCache k m fs = (r, fs.putCache k c d) := by
  rw [onCache, Exec.zoom_apply, run]

theorem onCache_read (sound : fs.Sound home) (k : CacheKind) (s : Nat) :
    ∃ b fs', onCache k (SlotCache.read s) fs = (.ok b, fs') ∧ (home s = k → b = fs.sector home s) ∧
      Served home fs fs' ∧ Logs k (.look s) fs fs' := by
  obtain ⟨coherent, reliable, m, filled⟩ := sound k
  obtain ⟨b, c, d, run, shown, evolved, filled'⟩ := SlotCache.read_spec coherent reliable s
  refine ⟨b, fs.putCache k (c.log (.look s)) d, onCache_of_run run, fun here => ?_,
    (sound.evolved evolved (filled' m filled) _).1, logs_putCache (congrArg _ evolved.trace)⟩
  rw [shown here, sector, here]

theorem onCache_readMut (sound : fs.Sound home) {k : CacheKind} {s : Nat} (here : home s = k)
    (f : Block size → Block size) :
    ∃ fs', onCache k (SlotCache.readMut s f) fs = (.ok (f (fs.sector home s)), fs') ∧
      Wrote home k s (f (fs.sector home s)) fs fs' ∧ Logs k (.change s) fs fs' := by
  obtain ⟨coherent, reliable, m, filled⟩ := sound k
  obtain ⟨c, d, run, stored, trace⟩ := SlotCache.readMut_spec coherent reliable here f
  have content : (fs.cacheOf k).view fs.dev s = fs.sector home s := by rw [sector, here]
  rw [content] at run stored
  exact ⟨_, onCache_of_run run, sound.stored here stored, logs_putCache trace⟩

theorem onCache_write (sound : fs.Sound home) {k : CacheKind} {s : Nat} (here : home s = k)
    (b : Block size) :
    ∃ fs', onCache k (SlotCache.write s b) fs = (.ok (), fs') ∧ Wrote home k s b fs fs' ∧
      Logs k (.change s) fs fs' ∧ ∀ j, fs'.dirty j ⊆ fs.dirty j := by
  obtain ⟨coherent, reliable, m, filled⟩ := sound k
  obtain ⟨c, run, stored, trace, dirty⟩ := SlotCache.write_spec coherent reliable.succeeds here b
  have old : ∀ i t, c.Holds i t → (c.cache i).isDirty = true → t ∈ fs.dirty k ∨ t ∈ (∅ : Set Nat) := by
    intro i t holds now
    obtain ⟨before, id⟩ := dirty i now
    exact Or.inl ⟨i, ⟨(coherent.owned i before).1, id.symm.trans holds.2⟩, before⟩
  exact ⟨_, onCache_of_run run, sound.stored here stored, logs_putCache trace,
    fun j t member => (dirty_putCache old j member).resolve_right (by simp)⟩

/-- What flushing makes of the whole, when a slot with sector `s` comes out clean. -/
theorem Sound.flushed (sound : fs.Sound home) {k : CacheKind} {c : SlotCache size n} {d : BlockDevice size}
    (evolved : SlotCache.Evolved {s | home s = k} (fs.cacheOf k) fs.dev c d)
    (steady : SlotCache.Steady (fs.cacheOf k) c) {s : Nat}
    (clean : ∀ i, (fs.cacheOf k).Holds i s → (c.cache i).isDirty = false) :
    Served home fs (fs.putCache k c d) ∧ s ∉ (fs.putCache k c d).dirty k := by
  obtain ⟨m, filled⟩ := (sound k).filled
  refine ⟨(sound.evolved evolved ⟨m, steady.filledTo filled⟩ (.look s)).2, ?_⟩
  rintro ⟨i, holds, dirty⟩
  rw [cacheOf_putCache_self] at holds dirty
  rw [clean i (steady.holds.mp holds)] at dirty
  cases dirty

theorem onCache_flushSector (sound : fs.Sound home) (k : CacheKind) (s : Nat) :
    ∃ fs', onCache k (SlotCache.flushSector s) fs = (.ok (), fs') ∧ Served home fs fs' ∧
      s ∉ fs'.dirty k := by
  obtain ⟨coherent, reliable, m, filled⟩ := sound k
  obtain ⟨r, c, d, run, evolved, steady, _, outcome, clean⟩ := SlotCache.flushSector_spec coherent s
  have ok : r = .ok () := outcome.resolve_right fun failed => failed.2 reliable
  subst ok
  exact ⟨_, onCache_of_run run, sound.flushed evolved steady (clean rfl m filled)⟩

theorem onCache_flush (sound : fs.Sound home) (k : CacheKind) :
    ∃ fs', onCache k SlotCache.flush fs = (.ok (), fs') ∧ Served home fs fs' ∧ fs'.dirty k = ∅ := by
  obtain ⟨coherent, reliable, m, filled⟩ := sound k
  obtain ⟨r, c, d, run, evolved, steady, _, outcome⟩ :=
    SlotCache.flushSlots_spec (List.finRange n) coherent
  obtain ⟨ok, clean⟩ := outcome.resolve_right fun failed => failed.2 reliable
  subst ok
  have flushed := fun s => sound.flushed evolved steady (s := s) fun i _ => clean i (List.mem_finRange i)
  exact ⟨_, onCache_of_run run, (flushed 0).1, Set.eq_empty_iff_forall_notMem.mpr fun s => (flushed s).2⟩

theorem sound_of_new [NeZero n] (home : Nat → CacheKind) (reliable : fs.dev.Reliable)
    (fresh : ∀ k, fs.cacheOf k = .new) : fs.Sound home := by
  intro k
  rw [fresh k]
  exact ⟨SlotCache.new_coherent _ _, reliable, SlotCache.new_filledTo⟩

end FileSystem

namespace Session

variable {size n : Nat} {α : Type} {s : Session size n}

theorem onFs_of_run {m : ExFat (FileSystem size n) α} {r : Except (Fault ExFatError) α}
    {fs' : FileSystem size n} (run : m s.fs = (r, fs')) : onFs m s = (r, { s with fs := fs' }) := by
  rw [onFs, Exec.zoom_of_run run]

theorem onCache_of_run {k : CacheKind} {m : ExFat (CacheIo size n) α} {r : Except (Fault ExFatError) α}
    {fs' : FileSystem size n} (run : FileSystem.onCache k m s.fs = (r, fs')) :
    onCache k m s = (r, { s with fs := fs' }) :=
  onFs_of_run run

end Session

end ExFatSlim
