import ExFatSlim.File
import ExFatSlim.Lib.Raises

namespace ExFatSlim

section Raises

open Exec

variable {σ : Type} {p : ExFatError → Prop}

theorem u32_raises (x : Nat) : Raises p (u32 x : ExFat σ Nat) := .ite (.pure _) .panic

theorem u64_raises (x : Nat) : Raises p (u64 x : ExFat σ Nat) := .ite (.pure _) .panic

theorem minus_raises (x y : Nat) : Raises p (minus x y : ExFat σ Nat) := .ite (.pure _) .panic

/-- The errors that an access to a cluster of a file may end in. -/
structure AccessErrors (p : ExFatError → Prop) : Prop where
  io : p .io
  endOfFatChain : p .endOfFatChain
  invalidClusterId : ∀ c, p (.invalidClusterId c)
  unexpected : ∀ reason, p (.unexpected reason)

variable {size n : Nat} (access : AccessErrors p)

include access

namespace SlotCache

theorem ioWrite_raises (sectorId : Nat) (b : Block size) :
    Raises p (ioWrite sectorId b : ExFat (CacheIo size n) Unit) :=
  .bind .get fun _ => .bind (.set _) fun _ => .ite (.pure _) (.raise access.io)

theorem ioRead_raises (sectorId : Nat) (i : Fin n) : Raises p (ioRead sectorId i : ExFat (CacheIo size n) Unit) :=
  .bind .get fun _ => .bind (.set _) fun _ => .ite (.pure _) (.raise access.io)

/-- Looking for a slot to reuse comes to no error of its own. -/
theorem chooseVictimIn_raises (rounds : Nat) : Raises p (chooseVictimIn rounds : ExFat (CacheIo size n) (Fin n)) := by
  induction rounds with
  | zero => exact .diverge
  | succ rounds ih =>
    refine .bind .get fun (c, d) =>
      .ite (.bind (.set _) fun _ => .pure _) (.ite (.bind (.set _) fun _ => ih) (.ite ?_ ?_))
    · exact .bind (.set _) fun _ => .bind (.bind .get fun _ => .bind (ioWrite_raises access _ _) fun _ => .modify _)
        fun _ => .pure _
    · exact .bind (.set _) fun _ => .pure _

/-- A cache raises what the device does. -/
theorem readInner_raises (sectorId : Nat) : Raises p (readInner sectorId : ExFat (CacheIo size n) (Fin n)) := by
  refine .bind .get fun (c, d) => .bind (.set _) fun _ => ?_
  split
  · exact .pure _
  · exact .bind (chooseVictimIn_raises access _) fun _ => .bind (ioRead_raises access _ _) fun _ =>
      .bind (.modify _) fun _ => .pure _

omit access in
theorem logged_raises {α : Type} {a : Access} {m : ExFat (CacheIo size n) α} (raises : Raises p m) :
    Raises p (logged a m) :=
  fun s => raises s

theorem read_raises (sectorId : Nat) : Raises p (read sectorId : ExFat (CacheIo size n) _) :=
  logged_raises (.bind (readInner_raises access sectorId) fun _ => .bind .get fun _ => .pure _)

theorem readMut_raises (sectorId : Nat) (f : Block size → Block size) :
    Raises p (readMut sectorId f : ExFat (CacheIo size n) _) :=
  logged_raises (.bind (readInner_raises access sectorId) fun _ => .bind .get fun _ =>
    .bind (.set _) fun _ => .pure _)

theorem write_raises (sectorId : Nat) (b : Block size) :
    Raises p (write sectorId b : ExFat (CacheIo size n) Unit) := by
  refine logged_raises (.bind .get fun (c, d) => ?_)
  dsimp only
  split <;> exact .bind (.set _) fun _ => ioWrite_raises access _ _

end SlotCache

/-- A step along the FAT may find the volume not mounted. -/
theorem Fat.nextClusterInFatChain_raises (c : Nat) :
    Raises p (nextClusterInFatChain c : ExFat (FileSystem size n) _) := by
  have sector : Raises p (getSectorId c : ExFat (FileSystem size n) Nat) := by
    refine .bind .get fun fs => ?_
    split
    · exact u32_raises _
    · exact .raise (access.unexpected _)
  have reads : ∀ t, Raises p (FileSystem.onCache .fat (SlotCache.read t) : ExFat (FileSystem size n) _) :=
    fun t => (SlotCache.read_raises access t).zoom
  exact .bind (.ite (.pure _) .panic) fun _ => .bind sector fun _ => .bind (reads _) fun b => .ite (.pure _) (.pure _)

namespace File

open FileSession

/-- The step to the next cluster of a file, for each kind of chain. -/
theorem nextCursorId_raises : Raises p (nextCursorId : ExFat (FileSession size n) Nat) := by
  refine .bind .get fun s => ?_
  dsimp only
  split
  · exact .raise access.endOfFatChain
  · exact .bind (u32_raises _) fun _ => .bind (u32_raises _) fun _ => .ite (.pure _) (.raise access.endOfFatChain)
  · refine .bind (Fat.nextClusterInFatChain_raises access _).zoom fun next => ?_
    cases next with
    | some next => exact .pure _
    | none => exact .raise access.endOfFatChain

theorem nextClusterIfRequired_raises : Raises p (nextClusterIfRequired : ExFat (FileSession size n) Unit) :=
  .bind .get fun _ =>
    .ite (.bind (nextCursorId_raises access) fun _ => .bind (.modify _) fun _ => .bind .get fun _ =>
    .modify _) (.pure _)

theorem getCurrentSectorId_raises : Raises p (getCurrentSectorId : ExFat (FileSession size n) Nat) :=
  .bind .get fun _ => .bind (.ite (.raise (access.invalidClusterId _)) (u32_raises _)) fun _ => u32_raises _

omit access in
theorem moveFileCursor_raises (k : Nat) : Raises p (moveFileCursor k : ExFat (FileSession size n) Unit) :=
  .bind .get fun _ => .bind (u64_raises _) fun _ => .bind (.modify _) fun _ =>
    .bind (minus_raises _ _) fun _ => .modify _

theorem writePartialSector_raises (buf : List UInt8) :
    Raises p (writePartialSector buf : ExFat (FileSession size n) Nat) := by
  refine .ite (.pure _) (.bind .get fun _ => .bind (getCurrentSectorId_raises access) fun _ => .ite ?_ (.pure _))
  exact .bind (SlotCache.readMut_raises access _ _).zoom.zoom fun _ => .bind (Raises.modify _).zoom fun _ =>
    .bind (moveFileCursor_raises _) fun _ => .pure _

theorem writeBlocks_raises (blocks : List (Block size)) :
    Raises p (writeBlocks blocks : ExFat (FileSession size n) Unit) := by
  induction blocks with
  | nil => exact .pure _
  | cons block rest ih =>
    exact .bind (nextClusterIfRequired_raises access) fun _ => .bind (getCurrentSectorId_raises access) fun _ =>
      .bind (SlotCache.write_raises access _ _).zoom.zoom fun _ => .bind (moveFileCursor_raises _) fun _ => ih

/-- Copying the bytes of a write fails like any access to the clusters of a file. -/
theorem writeBytes_raises (buf : List UInt8) : Raises p (writeBytes buf : ExFat (FileSession size n) Unit) :=
  .bind (nextClusterIfRequired_raises access) fun _ => .bind (writePartialSector_raises access buf) fun _ =>
    .ite (.bind (writeBlocks_raises access _) fun _ => .bind (writePartialSector_raises access _) fun _ =>
      .pure _) (.pure _)

end File

end Raises

end ExFatSlim
