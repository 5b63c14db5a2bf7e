import ExFatSlim.SlotCacheOps
import Mathlib.Data.Fin.VecNotation

namespace ExFatSlim

/-- The operations of a cache. `readMut` comes with what is done to the bytes
of the slot it returns. -/
inductive CacheOp (size : Nat) where
  | read (sector : Nat)
  | readMut (sector : Nat) (f : Block size → Block size)
  | write (sector : Nat) (b : Block size)
  | flushSector (sector : Nat)
  | flush

namespace CacheOp

variable {size n : Nat}

/-- One operation. The block is what a `read` shows, and what a `readMut`
leaves in its slot. -/
def run : CacheOp size → ExFat (CacheIo size n) (Option (Block size))
  | .read s => do return some (← SlotCache.read s)
  | .readMut s f => do return some (← SlotCache.readMut s f)
  | .write s b => do SlotCache.write s b; return none
  | .flushSector s => do SlotCache.flushSector s; return none
  | .flush => do SlotCache.flush; return none

def runAll : List (CacheOp size) → CacheIo size n →
    List (Except (Fault ExFatError) (Option (Block size))) × CacheIo size n
  | [], io => ([], io)
  | op :: rest, io => ((op.run io).1 :: (runAll rest (op.run io).2).1, (runAll rest (op.run io).2).2)

/-- The same operation on a plain array of sectors. -/
def onArray : CacheOp size → (Nat → Block size) → Option (Block size) × (Nat → Block size)
  | .read s, a => (some (a s), a)
  | .readMut s f, a => (some (f (a s)), Function.update a s (f (a s)))
  | .write s b, a => (none, Function.update a s b)
  | .flushSector _, a => (none, a)
  | .flush, a => (none, a)

def onArrayAll : List (CacheOp size) → (Nat → Block size) →
    List (Option (Block size)) × (Nat → Block size)
  | [], a => ([], a)
  | op :: rest, a =>
    ((op.onArray a).1 :: (onArrayAll rest (op.onArray a).2).1, (onArrayAll rest (op.onArray a).2).2)

end CacheOp

namespace SlotCache

variable {size n : Nat} {c c' : SlotCache size n} {d d' : BlockDevice size} {own : Set Nat}

/-- What holds of a cache on a device that never fails. -/
structure Sound (c : SlotCache size n) (own : Set Nat) (d : BlockDevice size) : Prop where
  coherent : c.Coherent own d
  reliable : d.Reliable
  filled : ∃ k, c.FilledTo k

theorem new_coherent [NeZero n] (own : Set Nat) (d : BlockDevice size) :
    (SlotCache.new : SlotCache size n).Coherent own d := by
  refine ⟨?_, ?_, ?_⟩ <;> simp [Distinct, Holds, SlotCache.new, Slot.new]

theorem new_filledTo [NeZero n] : ∃ k, (SlotCache.new : SlotCache size n).FilledTo k :=
  ⟨0, by simp [SlotCache.new, Slot.new], by simp [SlotCache.new]⟩

theorem new_sound [NeZero n] (own : Set Nat) (blocks : Nat → Block size) :
    (SlotCache.new : SlotCache size n).Sound own ⟨blocks, [], []⟩ :=
  ⟨new_coherent own _, rfl, new_filledTo⟩

theorem new_view [NeZero n] (d : BlockDevice size) (s : Nat) :
    (SlotCache.new : SlotCache size n).view d s = d.blocks s :=
  view_of_missing fun i => by simp [Holds, SlotCache.new, Slot.new]

theorem Stored.sound {s : Nat} {b : Block size} (stored : Stored own c d s b c' d')
    (sound : c.Sound own d) : c'.Sound own d' := by
  obtain ⟨k, filled⟩ := sound.filled
  exact ⟨stored.coherent, stored.reliable sound.reliable, stored.filled k filled⟩

theorem Evolved.sound (evolved : Evolved own c d c' d') (steady : Steady c c')
    (sound : c.Sound own d) : c'.Sound own d' := by
  obtain ⟨k, filled⟩ := sound.filled
  exact ⟨evolved.coherent, evolved.reliable sound.reliable, k, steady.filledTo filled⟩

/-- A sector without a dirty slot shows what the device has. -/
theorem Coherent.view_clean (coherent : c.Coherent own d) {s : Nat} (mine : s ∈ own)
    (clean : ∀ i, c.Holds i s → (c.cache i).isDirty = false) : d.blocks s = c.view d s := by
  refine (view_eq_of coherent.distinct ?_ fun _ => rfl).symm
  intro i holds
  rw [coherent.synced i holds.1 (clean i holds) (holds.2.symm ▸ mine), holds.2]

/-- One operation of a cache in charge of the whole device is the same
operation of the array. -/
theorem run_onArray (sound : c.Sound .univ d) (op : CacheOp size) :
    ∃ c' d', op.run (c, d) = (.ok (op.onArray (c.view d)).1, c', d') ∧ c'.Sound .univ d' ∧
      c'.view d' = (op.onArray (c.view d)).2 ∧
      (∀ s, op = .flushSector s → d'.blocks s = c'.view d' s) ∧
      (op = .flush → d'.blocks = c'.view d') := by
  obtain ⟨coherent, reliable, k, filled⟩ := sound
  cases op with
  | read s =>
    obtain ⟨b, c', d', run, shown, evolved, filled'⟩ := read_spec coherent reliable s
    refine ⟨c'.log (.look s), d', ?_, ⟨evolved.coherent.log _, evolved.reliable reliable, filled' k filled⟩,
      funext fun t => evolved.view t trivial, by simp, by simp⟩
    rw [shown trivial] at run
    exact Exec.bind_of_ok run
  | readMut s f =>
    obtain ⟨c', d', run, stored, _⟩ := readMut_spec coherent reliable trivial f
    exact ⟨c', d', Exec.bind_of_ok run, stored.sound ⟨coherent, reliable, k, filled⟩,
      funext fun t => stored.view t trivial, by simp, by simp⟩
  | write s b =>
    obtain ⟨c', run, stored, _⟩ := write_spec coherent reliable.succeeds trivial b
    exact ⟨c', _, Exec.bind_of_ok run, stored.sound ⟨coherent, reliable, k, filled⟩,
      funext fun t => stored.view t trivial, by simp, by simp⟩
  | flushSector s =>
    obtain ⟨r, c', d', run, evolved, steady, _, outcome, clean⟩ := flushSector_spec coherent s
    have ok : r = .ok () := outcome.resolve_right fun failed => failed.2 reliable
    subst ok
    refine ⟨c', d', Exec.bind_of_ok run, evolved.sound steady ⟨coherent, reliable, k, filled⟩,
      funext fun t => evolved.view t trivial, ?_, by simp⟩
    intro t equal
    cases equal
    exact evolved.coherent.view_clean trivial fun i holds => clean rfl k filled i (steady.holds.mp holds)
  | flush =>
    obtain ⟨r, c', d', run, evolved, steady, _, outcome⟩ := flushSlots_spec (List.finRange n) coherent
    obtain ⟨ok, clean⟩ := outcome.resolve_right fun failed => failed.2 reliable
    subst ok
    refine ⟨c', d', Exec.bind_of_ok run, evolved.sound steady ⟨coherent, reliable, k, filled⟩,
      funext fun t => evolved.view t trivial, by simp, fun _ => ?_⟩
    funext t
    exact evolved.coherent.view_clean trivial fun i _ => clean i (List.mem_finRange i)

theorem runAll_onArray (ops : List (CacheOp size)) : ∀ {c : SlotCache size n} {d : BlockDevice size},
    c.Sound .univ d → ∃ c' d', CacheOp.runAll ops (c, d) =
        ((CacheOp.onArrayAll ops (c.view d)).1.map .ok, c', d') ∧ c'.Sound .univ d' ∧
      c'.view d' = (CacheOp.onArrayAll ops (c.view d)).2 ∧
      (∀ s, ops.getLast? = some (.flushSector s) → d'.blocks s = c'.view d' s) ∧
      (ops.getLast? = some .flush → d'.blocks = c'.view d') := by
  induction ops with
  | nil => intro c d sound; exact ⟨c, d, rfl, sound, rfl, by simp, by simp⟩
  | cons op rest ih =>
    intro c d sound
    obtain ⟨c', d', run, sound', view, sector, all⟩ := run_onArray sound op
    obtain ⟨e, x, runRest, sound'', view', sector', all'⟩ := ih sound'
    refine ⟨e, x, ?_, sound'', ?_, ?_, ?_⟩
    · simp only [CacheOp.runAll, CacheOp.onArrayAll, run, runRest, view, List.map_cons]
    · rw [view', view]
      rfl
    · -- the last operation is `op` itself or the last one of the rest
      intro s last
      cases rest with
      | nil =>
        cases runRest
        exact sector s (by simpa using last)
      | cons => exact sector' s (by simpa using last)
    · intro last
      cases rest with
      | nil =>
        cases runRest
        exact all (by simpa using last)
      | cons => exact all' (by simpa using last)

/-- The sector cache is transparent: over a device that never fails, any
sequence of operations answers as a plain array of sectors does, every sector
is seen with its latest content, none is cached twice, and a flush brings the
device up to date. -/
theorem slotCache_refines_array [NeZero n] (blocks : Nat → Block size) (ops : List (CacheOp size)) :
    ∃ c d, CacheOp.runAll ops ((SlotCache.new : SlotCache size n), ⟨blocks, [], []⟩) =
        ((CacheOp.onArrayAll ops blocks).1.map .ok, c, d) ∧
      c.view d = (CacheOp.onArrayAll ops blocks).2 ∧
      (∀ i j s, c.Holds i s → c.Holds j s → i = j) ∧
      (∀ s, ops.getLast? = some (.flushSector s) → d.blocks s = (CacheOp.onArrayAll ops blocks).2 s) ∧
      (ops.getLast? = some .flush → d.blocks = (CacheOp.onArrayAll ops blocks).2) := by
  have start : (SlotCache.new : SlotCache size n).view ⟨blocks, [], []⟩ = blocks :=
    funext fun s => new_view _ s
  obtain ⟨c, d, run, sound, view, sector, all⟩ := runAll_onArray ops (new_sound (n := n) .univ blocks)
  rw [start] at run view
  exact ⟨c, d, run, view, sound.coherent.distinct, fun s last => view ▸ sector s last,
    fun last => view ▸ all last⟩

/-- Two slots, three sectors: the eviction writes sector 7 back, the flush the rest. -/
theorem slotCache_refines_array_two_slots :
    ∃ c d, CacheOp.runAll [.readMut 7 (fun _ => ![1, 2]), .read 8, .readMut 9 (fun b => b), .read 7, .flush]
        ((SlotCache.new : SlotCache 2 2), ⟨fun _ => ![0, 0], [], []⟩) =
        ([.ok (some ![1, 2]), .ok (some ![0, 0]), .ok (some ![0, 0]), .ok (some ![1, 2]), .ok none],
          c, d) ∧ d.blocks 7 = ![1, 2] := by
  obtain ⟨c, d, run, _, _, _, all⟩ := slotCache_refines_array (n := 2) (fun _ => ![(0 : UInt8), 0])
    [.readMut 7 (fun _ => ![1, 2]), .read 8, .readMut 9 (fun b => b), .read 7, .flush]
  refine ⟨c, d, run, ?_⟩
  rw [all rfl]
  rfl

end SlotCache

end ExFatSlim
