import ExFatSlim.Volume
import ExFatSlim.Lib.Respects

namespace ExFatSlim

namespace SlotCache

variable {size n : Nat}

/-- Choosing a slot asks for no sector, so that the trace is as before. -/
theorem chooseVictim_trace (io : CacheIo size n) : (chooseVictim io).2.1.trace = io.1.trace := by
  obtain ⟨c, d⟩ := io
  have outcome := chooseVictim_spec c d
  rcases run : chooseVictim (c, d) with ⟨r, c', d'⟩
  rw [run] at outcome
  cases outcome with
  | clean _ trace => exact trace
  | written _ trace => exact trace
  | failed _ trace => exact trace

theorem readInner_trace (s : Nat) (io : CacheIo size n) : (readInner s io).2.1.trace = io.1.trace := by
  obtain ⟨c, d⟩ := io
  rcases cacheHit_spec c s with ⟨i, hit, _⟩ | ⟨missed, _⟩
  · rw [readInner_of_hit hit]
    rfl
  · rw [readInner_of_miss missed, Exec.bind_apply]
    have kept := chooseVictim_trace (c, d)
    rcases victim : chooseVictim (c, d) with ⟨_ | i, c', d'⟩
    · rwa [victim] at kept
    · rw [victim] at kept
      simp only [Exec.bind_apply, ioRead_apply]
      split
      · rename_i run
        split at run <;> cases run
        exact kept
      · rename_i run
        split at run <;> cases run
        exact kept

/-- An access puts itself at the head of the trace, with whatever outcome. -/
theorem read_trace (s : Nat) (io : CacheIo size n) :
    (read s io).2.1.trace = .look s :: io.1.trace := by
  obtain ⟨c, d⟩ := io
  have kept := readInner_trace s (c, d)
  rw [read_apply]
  rcases run : readInner s (c, d) with ⟨_ | i, c', d'⟩ <;>
  · rw [run] at kept
    exact congrArg _ kept

theorem readMut_trace (s : Nat) (f : Block size → Block size) (io : CacheIo size n) :
    (readMut s f io).2.1.trace = .change s :: io.1.trace := by
  obtain ⟨c, d⟩ := io
  have kept := readInner_trace s (c, d)
  rw [readMut_apply]
  rcases run : readInner s (c, d) with ⟨_ | i, c', d'⟩ <;>
  · rw [run] at kept
    exact congrArg _ kept

theorem write_trace (s : Nat) (b : Block size) (io : CacheIo size n) :
    (write s b io).2.1.trace = .change s :: io.1.trace := by
  obtain ⟨c, d⟩ := io
  rcases cacheHit_spec c s with ⟨i, hit, _⟩ | ⟨missed, _⟩
  · rw [write_of_hit hit]
    rfl
  · rw [write_of_miss missed]
    rfl

theorem slotFlush_trace (i : Fin n) (io : CacheIo size n) : (slotFlush i io).2.1.trace = io.1.trace := by
  obtain ⟨c, d⟩ := io
  rw [slotFlush_apply]
  split
  · rw [writeBack_apply]
    split <;> rfl
  · rfl

theorem flushSlots_trace (slots : List (Fin n)) (io : CacheIo size n) :
    (flushSlots slots io).2.1.trace = io.1.trace := by
  induction slots generalizing io with
  | nil => rfl
  | cons i rest ih =>
    have kept := slotFlush_trace i io
    rw [flushSlots, Exec.bind_apply]
    rcases run : slotFlush i io with ⟨_ | u, io'⟩
    · rwa [run] at kept
    · rw [run] at kept
      exact (ih io').trans kept

/-- Flushing is no access. -/
theorem flushSector_trace (s : Nat) (io : CacheIo size n) :
    (flushSector s io).2.1.trace = io.1.trace := by
  obtain ⟨c, d⟩ := io
  rw [flushSector, flushSectorIn_apply]
  split
  · exact slotFlush_trace _ _
  · rfl

end SlotCache

namespace FileSystem

variable {size n : Nat} {α : Type} {home : Nat → CacheKind} {fs fs' fs'' : FileSystem size n}

/-- A sector was asked for through a cache in order to change it. -/
def Changed (fs : FileSystem size n) (k : CacheKind) (s : Nat) : Prop :=
  .change s ∈ (fs.cacheOf k).trace

/-- Every sector that was ever changed was changed through the cache in charge of it. -/
def AtHome (home : Nat → CacheKind) (fs : FileSystem size n) : Prop :=
  ∀ k s, fs.Changed k s → home s = k

/-- A later state of a file system that was only looked at. -/
structure Looks (home : Nat → CacheKind) (fs fs' : FileSystem size n) : Prop where
  changed : ∀ k s, fs'.Changed k s ↔ fs.Changed k s
  served : fs.Sound home → Served home fs fs'

instance : Std.Refl (Looks home : FileSystem size n → FileSystem size n → Prop) where
  refl _ := ⟨fun _ _ => Iff.rfl, fun sound => .refl sound⟩

instance : Trans (Looks home : FileSystem size n → FileSystem size n → Prop) (Looks home) (Looks home) where
  trans first second := ⟨fun k s => (second.changed k s).trans (first.changed k s),
    fun sound => (first.served sound).trans (second.served (first.served sound).sound)⟩

theorem onCache_logs {k : CacheKind} {a : Access} {m : ExFat (CacheIo size n) α}
    (trace : ∀ io, (m io).2.1.trace = a :: io.1.trace) (fs : FileSystem size n) :
    Logs k a fs (onCache k m fs).2 :=
  logs_putCache (trace _)

theorem Logs.changed_look {k : CacheKind} {s : Nat} (logs : Logs k (.look s) fs fs') (j : CacheKind)
    (t : Nat) : fs'.Changed j t ↔ fs.Changed j t := by
  unfold Changed
  rw [logs j]
  split <;> simp

theorem Logs.changed {k : CacheKind} {s : Nat} (logs : Logs k (.change s) fs fs') (j : CacheKind)
    (t : Nat) : fs'.Changed j t ↔ (j = k ∧ t = s) ∨ fs.Changed j t := by
  unfold Changed
  rw [logs j]
  split
  · rename_i same
    simp [same]
  · rename_i other
    simp [other]

theorem read_looks (k : CacheKind) (s : Nat) :
    Exec.Respects (Looks home) (onCache k (SlotCache.read s) : ExFat (FileSystem size n) _) := by
  intro fs
  refine ⟨(onCache_logs (SlotCache.read_trace s) fs).changed_look, fun sound => ?_⟩
  obtain ⟨b, fs', run, _, served, _⟩ := onCache_read sound k s
  rwa [run]

end FileSystem

end ExFatSlim
