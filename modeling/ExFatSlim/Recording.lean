import ExFatSlim.Touched
import ExFatSlim.Api

namespace ExFatSlim

open Exec

variable {size n : Nat} {home : Nat → CacheKind} {α : Type}

open Session

namespace Fat

/-- A sector of the FAT that is written to is recorded as touched. -/
theorem set_tracks (c next : Nat) :
    Respects (Tracks home) (Fat.set c next : ExFat (Session size n) Unit) := by
  refine .bind (.assert _) fun _ => .bind (Session.onFs_looks (getSectorId_looks c)) fun sectorId => ?_
  exact .bind_bind (insert_readMut_tracks rfl sectorId _) fun _ _ => .pure _

end Fat

namespace Allocator

section Mark

variable {R : Session size n → Session size n → Prop} [Std.Refl R] [Trans R R R]
  (change : ∀ t f,
  Respects R (onCache .bitmap (SlotCache.readMut t f) >>= fun _ =>
  (insert ⟨.bitmap, t⟩ : ExFat (Session size n) Unit)))

include change

theorem markChunks_respects (allocated : Bool) (chunks : List BitmapChunk) :
    Respects R (markChunks allocated chunks : ExFat (Session size n) Unit) := by
  induction chunks with
  | nil => exact .pure ()
  | cons chunk rest ih =>
    refine .bind .get fun s => .bind (u32_respects _) fun sectorId => ?_
    exact .bind_bind (change sectorId _) fun _ _ => ih

/-- Marking a run changes the bitmap chunk by chunk. -/
theorem markAllocated_respects (run : AllocatedRun) (allocated : Bool) :
    Respects R (markAllocated run allocated : ExFat (Session size n) Unit) := by
  refine .ite (.pure ()) (.when (.raise _) fun _ => .when (.raise _) fun _ => ?_)
  refine .bind .get fun s => .bind (u32_respects _) fun endCluster => ?_
  exact .when (.raise _) fun _ => markChunks_respects change allocated _

end Mark

theorem markAllocated_tracks (run : AllocatedRun) (allocated : Bool) :
    Respects (Tracks home) (markAllocated run allocated : ExFat (Session size n) Unit) :=
  markAllocated_respects (readMut_insert_tracks rfl) run allocated

theorem allocate_tracks (chain : StoredChain) (count : Nat) :
    Respects (Tracks home) (allocate chain count : ExFat (Session size n) AllocatedRun) := by
  have mark : ∀ run, Respects (Tracks home) (markAllocated run true >>= fun _ =>
      (pure run : ExFat (Session size n) AllocatedRun)) :=
    fun run => .bind (markAllocated_tracks run true) fun _ => .pure _
  cases chain with
  | empty => exact .bind (Session.onFs_tracks (FileSystem.findFreeClusters_keeps _ _ _)) mark
  | contiguous first clusterCount =>
    exact .bind (u32_respects _) fun hint =>
      .bind (Session.onFs_tracks (FileSystem.findFreeClusters_keeps _ _ _)) mark
  | fat first last clusterCount =>
    exact .bind (u32_respects _) fun hint =>
      .bind (Session.onFs_tracks (FileSystem.findFreeClusters_keeps _ _ _)) mark

theorem freeChain_tracks (rounds : Nat) : ∀ clusterId,
    Respects (Tracks home) (freeChain rounds clusterId : ExFat (Session size n) Unit) := by
  induction rounds with
  | zero => intro clusterId; exact .pure ()
  | succ rounds ih =>
    intro clusterId
    refine .bind (Session.onFs_looks (Fat.nextClusterInFatChain_looks _)) fun next => ?_
    refine .bind (markAllocated_tracks _ _) fun _ => .bind (Fat.set_tracks _ _) fun _ => ?_
    split
    · exact ih _
    · exact .pure ()

/-- Freeing a chain unmarks it cluster by cluster, or at once where it is contiguous. -/
theorem free_tracks (chain : StoredChain) :
    Respects (Tracks home) (free chain : ExFat (Session size n) Unit) := by
  cases chain with
  | empty => exact .pure ()
  | contiguous first clusterCount => exact markAllocated_tracks _ _
  | fat first last clusterCount => exact freeChain_tracks _ _

end Allocator

namespace Session

/-- What a relation has to allow for the changes of directory entries to respect it. -/
structure Steps (home : Nat → CacheKind) (R : Session size n → Session size n → Prop) : Prop where
  look : ∀ {s : Session size n} {fs' : FileSystem size n}, FileSystem.Looks home s.fs fs' → R s { s with fs := fs' }
  clock : Respects R (onFs FileSystem.getCurrentTimestamp)
  edit : ∀ t f, Respects R (onCache .data (SlotCache.readMut t f) >>= fun _ => insert ⟨.dir, t⟩)

/-- New directories take clusters, too. -/
structure Builds (home : Nat → CacheKind) (R : Session size n → Session size n → Prop) : Prop extends
    Steps home R where
  search : ∀ fromCluster numClusters policy,
    Respects R (onFs (Allocator.findFreeClusters fromCluster numClusters policy))
  mark : ∀ run, Respects R (Allocator.markAllocated run true)

theorem tracks_builds : Builds home (Tracks home : Session size n → Session size n → Prop) where
  look looks := .of_keeps looks.keeps
  clock := onFs_tracks FileSystem.getCurrentTimestamp_keeps
  edit t f := readMut_insert_tracks rfl t f
  search _ _ _ := onFs_tracks (FileSystem.findFreeClusters_keeps _ _ _)
  mark run := Allocator.markAllocated_tracks run true

variable {R : Session size n → Session size n → Prop}

theorem Steps.onFs (steps : Steps home R) {m : ExFat (FileSystem size n) α}
    (looks : Respects (FileSystem.Looks home) m) : Respects R (Session.onFs m) :=
  looks.zoom fun _ _ => steps.look

end Session

variable {R : Session size n → Session size n → Prop} [Std.Refl R] [Trans R R R] (steps : Steps home R)

namespace DirSetWriter

theorem addNoWrite_respects {σ : Type} {R : σ → σ → Prop} [Std.Refl R] [Trans R R R] (w : DirSetWriter)
    (entry : RawDirEntry) (isFileDir : Bool) :
    Respects R (w.addNoWrite size entry isFileDir : ExFat σ DirSetWriter) :=
  .bind (.ite (.bind (u32_respects _) fun _ => .pure _) (.pure _)) fun _ => .pure _

include steps

theorem add_respects (w : DirSetWriter) (entry : RawDirEntry) (isFileDir : Bool) :
    Respects R (w.add entry isFileDir : ExFat (Session size n) DirSetWriter) :=
  .bind (.assert _) fun _ =>
    .bind_bind (steps.edit _ _) fun _ _ => addNoWrite_respects w entry isFileDir

theorem finish_respects (w : DirSetWriter) (fileDir : RawDirEntry) :
    Respects R (w.finish fileDir : ExFat (Session size n) Unit) :=
  .bind (.assert _) fun _ => steps.edit _ _

end DirSetWriter

namespace Session

omit [Trans R R R] in
theorem truncateEdit_respects (details : FileDetails) (counter : Nat) (entry : RawDirEntry) :
    Respects R (truncateEdit details counter entry : ExFat (Session size n) Edit) :=
  .ite (.pure _) (.pure _)

include steps

omit [Std.Refl R] [Trans R R R] in
theorem nextEntry_respects (chain : DirectoryEntryChain size) :
    Respects R (nextEntry chain : ExFat (Session size n) _) := by
  intro s
  have looks : FileSystem.Looks home s.fs (DirectoryEntryChain.next ⟨s.fs, chain⟩).2.fs :=
    DirectoryEntryChain.next_looks ⟨s.fs, chain⟩
  rw [nextEntry]
  split
  all_goals
    rename_i run
    rw [run] at looks
    exact steps.look looks

/-- The walk over an entry set that is rewritten, for any edit of its entries. -/
theorem rewriteEntries_respects {edit : Nat → RawDirEntry → ExFat (Session size n) Edit}
    (edits : ∀ counter entry, Respects R (edit counter entry)) (rounds : Nat) :
    ∀ counter chain writer fileDir, Respects R
      (rewriteEntries edit rounds counter chain writer fileDir) := by
  induction rounds with
  | zero => intro counter chain writer fileDir; exact .diverge
  | succ rounds ih =>
    intro counter chain writer fileDir
    refine .bind (nextEntry_respects steps chain) fun found => ?_
    split
    · exact .pure _
    · refine .bind (edits _ _) fun edited => ?_
      split
      · exact .bind (DirSetWriter.addNoWrite_respects _ _ _) fun _ => ih _ _ _ _
      · exact .bind (DirSetWriter.add_respects steps _ _ _) fun _ => ih _ _ _ _

theorem rewriteSet_respects (details : FileDetails) {edit : Nat → RawDirEntry → ExFat (Session size n) Edit}
    (edits : ∀ counter entry, Respects R (edit counter entry)) :
    Respects R (rewriteSet details edit) := by
  refine .bind .get fun s => .bind ?_ fun chain => ?_
  · exact .bind (minus_respects _ _) fun _ => .pure _
  · refine .bind (rewriteEntries_respects steps edits _ _ _ _ _) fun ⟨writer, fileDir⟩ => ?_
    cases fileDir with
    | some fileDir => exact DirSetWriter.finish_respects steps _ _
    | none => exact .pure ()

theorem addNameEntries_respects (rounds : Nat) : ∀ units writer,
    Respects R (addNameEntries rounds units writer : ExFat (Session size n) DirSetWriter) := by
  induction rounds with
  | zero => intro units writer; exact .pure _
  | succ rounds ih =>
    intro units writer
    exact .ite (.pure _) (.bind (DirSetWriter.add_respects steps _ _ _) fun _ => ih _ _)

/-- A new entry set is looked up a place, stamped and written. -/
theorem createFileDirEntryAt_respects (fuel : Nat) (name : List Char) (directoryClusterId firstCluster : Nat)
    (fileAttributes : FileAttributes) (flags : GeneralSecondaryFlags) (validDataLength dataLength : Nat) :
    Respects R (createFileDirEntryAt fuel name directoryClusterId firstCluster fileAttributes
      flags validDataLength dataLength : ExFat (Session size n) FileDetails) := by
  refine .bind .get fun s => .bind (encodeUtf16UpcaseAndHash_respects _ _) fun hashed => ?_
  refine .bind (steps.onFs (FileSystem.findEmptyDirEntrySet_looks _ _ _)) fun location => ?_
  refine .bind (minus_respects _ _) fun secondaryCount => ?_
  refine .bind steps.clock fun timestamp => ?_
  refine .bind (DirSetWriter.add_respects steps _ _ _) fun writer => ?_
  refine .bind (DirSetWriter.add_respects steps _ _ _) fun writer => ?_
  refine .bind (addNameEntries_respects steps _ _ _) fun writer => ?_
  exact .bind (DirSetWriter.finish_respects steps _ _) fun _ => .pure _

theorem zeroSectors_respects (rounds : Nat) : ∀ sectorId,
    Respects R (zeroSectors rounds sectorId : ExFat (Session size n) Unit) := by
  induction rounds with
  | zero => intro sectorId; exact .pure ()
  | succ rounds ih =>
    intro sectorId
    exact .bind_bind (steps.edit sectorId _) fun _ _ => ih _

theorem zeroCluster_respects (clusterId : Nat) :
    Respects R (zeroCluster clusterId : ExFat (Session size n) Unit) :=
  .bind .get fun _ => .bind (getHeapSectorId_respects _ _) fun _ => .bind (u32_respects _) fun _ =>
    zeroSectors_respects steps _ _

/-- Removing an entry set clears its entries one after the other. -/
theorem markEntriesUnused_respects (rounds : Nat) : ∀ location,
    Respects R (markEntriesUnused rounds location : ExFat (Session size n) Unit) := by
  induction rounds with
  | zero => intro location; exact .pure ()
  | succ rounds ih =>
    intro location
    have mark : ∀ location : Location, Respects R (do
        let offset := location.dirEntryOffset * rawEntryLen
        Exec.assert (offset < size)
        let _ ← onCache .data (SlotCache.readMut location.sectorId fun b =>
          b.patch offset [b.byte offset &&& 0x7F])
        insert ⟨.dir, location.sectorId⟩
        markEntriesUnused rounds { location with dirEntryOffset := location.dirEntryOffset + 1 } :
          ExFat (Session size n) Unit) :=
      fun location => .bind (.assert _) fun _ =>
        .bind_bind (steps.edit location.sectorId _) fun _ _ => ih _
    exact .ite (.bind (u32_respects _) fun _ => mark _) (mark _)

omit steps

variable (builds : Builds home R)

include builds

theorem createDirectoryIn_respects (fuel : Nat) (dirName : List Char) (clusterId : Nat) :
    Respects R (createDirectoryIn fuel dirName clusterId : ExFat (Session size n) Nat) := by
  refine .bind (builds.search _ _ _) fun run => ?_
  refine .bind (builds.mark _) fun _ => .bind (zeroCluster_respects builds.toSteps _) fun _ => ?_
  exact .bind .get fun s => .bind (createFileDirEntryAt_respects builds.toSteps _ _ _ _ _ _ _ _) fun _ => .pure _

/-- A missing folder is made by the changes that `Builds` allows, one that is there is read only. -/
theorem getOrCreateIn_respects (fuel : Nat) (names : List (List Char)) : ∀ clusterId,
    Respects R (getOrCreateIn fuel names clusterId : ExFat (Session size n) Nat) := by
  induction names with
  | nil => intro clusterId; exact .pure _
  | cons name names ih =>
    intro clusterId
    refine .bind (builds.toSteps.onFs (FileSystem.lookupIn_looks _ _ _ _)) fun found => ?_
    split
    · exact ih _
    · exact .bind (createDirectoryIn_respects builds _ _ _) fun _ => ih _

theorem getOrCreateDirectory_respects (fuel : Nat) (path : List Char) :
    Respects R (getOrCreateDirectory fuel path : ExFat (Session size n) Nat) :=
  .bind .get fun _ => getOrCreateIn_respects builds _ _ _

end Session

end ExFatSlim
