import ExFatSlim.Recording

namespace ExFatSlim

open Exec

variable {size n : Nat} {home : Nat → CacheKind} {α : Type}

namespace FileSession

variable {s s' : FileSession size n}

def session (s : FileSession size n) : Session size n := ⟨s.fs, s.file.touched⟩

/-- A later state in which every new dirty sector is covered by the handle. -/
def Tracks (home : Nat → CacheKind) (s s' : FileSession size n) : Prop :=
  Session.Tracks home s.session s'.session

instance : Std.Refl (Tracks home : FileSession size n → FileSession size n → Prop) where
  refl s := Std.Refl.refl (r := Session.Tracks home) s.session

instance : Trans (Tracks home : FileSession size n → FileSession size n → Prop) (Tracks home) (Tracks home) where
  trans first second := Trans.trans (r := Session.Tracks home) (s := Session.Tracks home) first second

/-- A later state of a handle that was not written to. -/
structure Reads (home : Nat → CacheKind) (s s' : FileSession size n) : Prop where
  keeps : FileSystem.Keeps home s.fs s'.fs
  touched : s'.file.touched = s.file.touched

instance : Std.Refl (Reads home : FileSession size n → FileSession size n → Prop) where
  refl _ := ⟨Std.Refl.refl _, rfl⟩

instance : Trans (Reads home : FileSession size n → FileSession size n → Prop) (Reads home) (Reads home) where
  trans first second := ⟨Trans.trans first.keeps second.keeps, second.touched.trans first.touched⟩

theorem Reads.tracks (reads : Reads home s s') : Tracks home s s' := by
  have tracks := Session.Tracks.of_keeps (s := s.session) reads.keeps
  have same : s'.session = { s.session with fs := s'.fs } := by
    rw [session, reads.touched]
    rfl
  rwa [Tracks, same]

/-- What records for a call records for the handle that makes it. -/
theorem onSession_tracks {m : ExFat (Session size n) α} (tracks : Respects (Session.Tracks home) m) :
    Respects (Tracks home) (onSession m) :=
  tracks.zoom fun _ _ => id

theorem onFs_reads {m : ExFat (FileSystem size n) α} (keeps : Respects (FileSystem.Keeps home) m) :
    Respects (Reads home) (onFs m) :=
  keeps.zoom fun _ _ keeps => ⟨keeps, rfl⟩

theorem modifyFile_reads {f : File → File} (same : ∀ file, (f file).touched = file.touched) :
    Respects (Reads home) (modifyFile f : ExFat (FileSession size n) Unit) :=
  .modify fun s => ⟨Std.Refl.refl _, same s.file⟩

/-- The flag of the directory entry is no record of a sector. -/
theorem modifyFile_tracks {f : File → File}
    (sectors : ∀ file, (f file).touched.sectors = file.touched.sectors)
    (overflowed : ∀ file, (f file).touched.overflowed = file.touched.overflowed) :
    Respects (Tracks home) (modifyFile f : ExFat (FileSession size n) Unit) := by
  refine .modify fun s => ⟨fun _ _ => id, fun _ tracked => ⟨tracked.sound, ?_⟩, fun _ _ k t loose => ?_⟩
  · intro item member
    rw [session, sectors] at member
    exact tracked.atHome item member
  · refine ⟨loose.1, fun covers => loose.2 ?_⟩
    simpa only [FileDirty.Covers, session, sectors, overflowed] using covers

theorem onFs_of_run {m : ExFat (FileSystem size n) α} {r : Except (Fault ExFatError) α}
    {fs' : FileSystem size n} (run : m s.fs = (r, fs')) : onFs m s = (r, { s with fs := fs' }) := by
  rw [onFs, zoom_of_run run]

/-- A sector that is changed and then recorded is covered. -/
theorem readMut_insert_tracks {kind : TouchedKind} {k : CacheKind} (cached : kind.cache = some k) (t : Nat)
    (f : Block size → Block size) :
    Respects (Tracks home) (onFs (FileSystem.onCache k (SlotCache.readMut t f)) >>= fun _ =>
      (onSession (Session.insert ⟨kind, t⟩) : ExFat (FileSession size n) Unit)) := by
  intro s
  have tracks : Session.Tracks home s.session _ := Session.readMut_insert_tracks cached t f s.session
  rcases run : FileSystem.onCache k (SlotCache.readMut t f) s.fs with ⟨e | b, fs'⟩
  · rw [bind_of_error (Session.onCache_of_run (s := s.session) run)] at tracks
    rwa [bind_of_error (onFs_of_run run)]
  · rw [bind_of_ok (Session.onCache_of_run (s := s.session) run)] at tracks
    rwa [bind_of_ok (onFs_of_run run)]

/-- What a relation has to allow for a handle's steps from cluster to cluster to respect it. -/
structure Turns (R : FileSession size n → FileSession size n → Prop) : Prop where
  follow : ∀ c, Respects R (onFs (Fat.nextClusterInFatChain c))
  turn : ∀ {f : File → File}, (∀ file, (f file).details = file.details) → (∀ file, (f file).cursor = file.cursor) →
    (∀ file, (f file).touched = file.touched) → Respects R (modifyFile f)

/-- Reads and seeks move the cursor and mount the volume, too. -/
structure Moves (home : Nat → CacheKind) (R : FileSession size n → FileSession size n → Prop) : Prop where
  use : ∀ {α : Type} {m : ExFat (FileSystem size n) α}, Respects (FileSystem.Keeps home) m → Respects R (onFs m)
  move : ∀ {f : File → File}, (∀ file, (f file).details = file.details) →
    (∀ file, (f file).touched = file.touched) → Respects R (modifyFile f)

/-- Writes change sectors and record them, too. -/
structure Edits (home : Nat → CacheKind) (R : FileSession size n → FileSession size n → Prop) : Prop extends
    Moves home R where
  edit : ∀ t f, Respects R (onFs (FileSystem.onCache .data (SlotCache.readMut t f)) >>= fun _ =>
    onSession (Session.insert ⟨.data, t⟩))

/-- What it has to allow for new clusters to be linked to the chain of the file. -/
structure Extends (home : Nat → CacheKind) (R : FileSession size n → FileSession size n → Prop) : Prop where
  link : ∀ {α : Type} {m : ExFat (Session size n) α}, Respects (Session.Tracks home) m → Respects R (onSession m)
  adopt : ∀ {f : File → File}, (∀ file, (f file).details.validDataLength = file.details.validDataLength) →
    (∀ file, (f file).cursor = file.cursor) → (∀ file, (f file).touched.sectors = file.touched.sectors) →
    (∀ file, (f file).touched.overflowed = file.touched.overflowed) → Respects R (modifyFile f)

theorem reads_moves : Moves home (Reads home : FileSession size n → FileSession size n → Prop) where
  use := onFs_reads
  move _ same := modifyFile_reads same

theorem tracks_edits : Edits home (Tracks home : FileSession size n → FileSession size n → Prop) where
  use keeps := (onFs_reads keeps).mono fun _ _ => Reads.tracks
  move _ same := (modifyFile_reads same).mono fun _ _ => Reads.tracks
  edit t f := readMut_insert_tracks rfl t f

theorem tracks_extends : Extends home (Tracks home : FileSession size n → FileSession size n → Prop) where
  link := onSession_tracks
  adopt _ _ sectors overflowed := modifyFile_tracks sectors overflowed

section

variable {R : FileSession size n → FileSession size n → Prop}

theorem Moves.look (moves : Moves home R) {m : ExFat (FileSystem size n) α}
    (looks : Respects (FileSystem.Looks home) m) :
    Respects R (onFs m) :=
  moves.use (looks.mono fun _ _ => FileSystem.Looks.keeps)

theorem Moves.turns (moves : Moves home R) : Turns R where
  follow _ := moves.look (Fat.nextClusterInFatChain_looks _)
  turn details _ touched := moves.move details touched

end

end FileSession

namespace File

open FileSession

section

variable {R : FileSession size n → FileSession size n → Prop} [Std.Refl R] [Trans R R R]

theorem nextCursorId_respects (turns : Turns R) : Respects R (nextCursorId : ExFat (FileSession size n) Nat) := by
  refine .bind .get fun s => ?_
  dsimp only
  split
  · exact .raise _
  · exact .bind (u32_respects _) fun _ => .bind (u32_respects _) fun _ => .ite (.pure _) (.raise _)
  · refine .bind (turns.follow _) fun next => ?_
    cases next with
    | some next => exact .pure _
    | none => exact .raise _

/-- The walk along the chain, which no call does without. -/
theorem nextClusterIfRequired_respects (turns : Turns R) :
    Respects R (nextClusterIfRequired : ExFat (FileSession size n) Unit) := by
  refine .bind .get fun _ => .ite (.bind (nextCursorId_respects turns) fun _ => ?_) (.pure _)
  exact .bind (turns.turn (fun _ => rfl) (fun _ => rfl) fun _ => rfl) fun _ =>
    .bind .get fun _ => turns.turn (fun _ => rfl) (fun _ => rfl) fun _ => rfl

theorem getCurrentSectorId_respects : Respects R (getCurrentSectorId : ExFat (FileSession size n) Nat) :=
  .bind .get fun _ => .bind (getHeapSectorId_respects _ _) fun _ => u32_respects _

theorem moveFileCursor_respects (moves : Moves home R) (numBytes : Nat) :
    Respects R (moveFileCursor numBytes : ExFat (FileSession size n) Unit) :=
  .bind .get fun _ => .bind (u64_respects _) fun _ => .bind (moves.move (fun _ => rfl) fun _ => rfl) fun _ =>
    .bind (minus_respects _ _) fun _ => moves.move (fun _ => rfl) fun _ => rfl

theorem readIn_respects (moves : Moves home R) (len rounds : Nat) : ∀ out,
    Respects R (readIn len rounds out : ExFat (FileSession size n) (List UInt8)) := by
  induction rounds with
  | zero => intro out; exact .diverge
  | succ rounds ih =>
    intro out
    refine .bind .get fun s => .bind (nextClusterIfRequired_respects moves.turns) fun _ => ?_
    refine .bind getCurrentSectorId_respects fun sectorId => .bind .get fun s' => ?_
    have rest : ∀ bytes : List UInt8, Respects R (do
        moveFileCursor bytes.length
        let out := out ++ bytes
        if out.length = len ∨ (← get).file.eof then pure out else readIn len rounds out :
          ExFat (FileSession size n) (List UInt8)) :=
      fun bytes => .bind (moveFileCursor_respects moves _) fun _ => .bind .get fun _ => .ite (.pure _) (ih _)
    refine .ite (.bind (moves.look (FileSystem.read_looks _ _)) fun block => ?_) ?_
    · exact .bind (.pure _) rest
    · exact .bind (.pure _) rest

/-- Reading moves the handle and looks at its sectors. -/
theorem read_respects (moves : Moves home R) (len : Nat) : Respects R (read len : ExFat (FileSession size n) _) :=
  .bind (moves.use FileSystem.mount_keeps) fun _ => .bind .get fun _ => .when (.raise _) fun _ =>
    .ite (.pure _) (.ite (.pure _) (.bind (readIn_respects moves _ _ _) fun _ => .pure _))

theorem readToEndIn_respects (moves : Moves home R) (len rounds : Nat) : ∀ filled,
    Respects R (readToEndIn len rounds filled : ExFat (FileSession size n) _) := by
  induction rounds with
  | zero => exact fun filled => .pure _
  | succ rounds ih =>
    intro filled
    refine .ite (.pure _) (.bind (read_respects moves _) fun got => ?_)
    split
    · exact .ite (.pure _) (ih _)
    · exact .pure _

theorem readToEnd_respects (moves : Moves home R) : Respects R (readToEnd : ExFat (FileSession size n) _) :=
  .bind (moves.use FileSystem.mount_keeps) fun _ => .bind .get fun _ => .when (.raise _) fun _ =>
    readToEndIn_respects moves _ _ _

theorem fromUtf8_respects {σ : Type} {R : σ → σ → Prop} [Std.Refl R] (bytes : List UInt8) :
    Respects R (fromUtf8 bytes : ExFat σ String) := by
  unfold fromUtf8
  split
  · exact .pure _
  · exact .raise _

theorem readToString_respects (moves : Moves home R) : Respects R (readToString : ExFat (FileSession size n) _) :=
  .bind (moves.use FileSystem.mount_keeps) fun _ => .bind .get fun _ => .when (.raise _) fun _ =>
    .bind (readToEndIn_respects moves _ _ _) fun _ => fromUtf8_respects _

theorem updateRemainingBytesInCluster_respects (moves : Moves home R) :
    Respects R (updateRemainingBytesInCluster : ExFat (FileSession size n) Unit) :=
  .bind .get fun _ => .bind (minus_respects _ _) fun _ => moves.move (fun _ => rfl) fun _ => rfl

theorem seek_respects (moves : Moves home R) (cursor : Nat) :
    Respects R (seek cursor : ExFat (FileSession size n) Unit) := by
  refine .bind (moves.use FileSystem.mount_keeps) fun _ => .bind .get fun _ => .when (.raise _) fun _ => ?_
  refine .bind (moves.move (fun _ => rfl) fun _ => rfl) fun _ => .bind .get fun s => ?_
  dsimp only
  split
  · exact moves.move (fun _ => rfl) fun _ => rfl
  · exact .bind (u32_respects _) fun _ => .bind (moves.move (fun _ => rfl) fun _ => rfl) fun _ =>
      updateRemainingBytesInCluster_respects moves
  · exact .bind (moves.look (FileSystem.walkFat_looks _ _)) fun _ =>
      .bind (moves.move (fun _ => rfl) fun _ => rfl) fun _ => updateRemainingBytesInCluster_respects moves

theorem writeBlocks_respects (moves : Moves home R) (blocks : List (Block size)) :
    Respects R (writeBlocks blocks : ExFat (FileSession size n) Unit) := by
  induction blocks with
  | nil => exact .pure ()
  | cons block rest ih =>
    exact .bind (nextClusterIfRequired_respects moves.turns) fun _ => .bind getCurrentSectorId_respects fun _ =>
      .bind (moves.use (FileSystem.write_keeps _ _ _)) fun _ => .bind (moveFileCursor_respects moves _) fun _ => ih

theorem writePartialSector_respects (edits : Edits home R) (buf : List UInt8) :
    Respects R (writePartialSector buf : ExFat (FileSession size n) Nat) := by
  refine .ite (.pure _) (.bind .get fun s => ?_)
  refine .bind getCurrentSectorId_respects fun sectorId => .ite ?_ (.pure _)
  refine .bind_bind (edits.edit sectorId _) fun _ _ => ?_
  exact .bind (moveFileCursor_respects edits.toMoves _) fun _ => .pure _

/-- Writing changes sectors one by one, each of them recorded. -/
theorem writeBytes_respects (edits : Edits home R) (buf : List UInt8) :
    Respects R (writeBytes buf : ExFat (FileSession size n) Unit) := by
  refine .bind (nextClusterIfRequired_respects edits.turns) fun _ => ?_
  refine .bind (writePartialSector_respects edits buf) fun len => .ite ?_ (.pure _)
  exact .bind (writeBlocks_respects edits.toMoves _) fun _ =>
    .bind (writePartialSector_respects edits _) fun _ => .pure _

end

theorem linkContiguous_tracks (rounds : Nat) : ∀ clusterId,
    Respects (Session.Tracks home) (linkContiguous rounds clusterId : ExFat (Session size n) Unit) := by
  induction rounds with
  | zero => intro clusterId; exact .pure ()
  | succ rounds ih => intro clusterId; exact .bind (Fat.set_tracks _ _) fun _ => ih _

theorem linkRun_tracks (rounds : Nat) : ∀ prevCluster nextCluster,
    Respects (Session.Tracks home) (linkRun rounds prevCluster nextCluster : ExFat (Session size n) Unit) := by
  induction rounds with
  | zero => intro prevCluster nextCluster; exact .pure ()
  | succ rounds ih =>
    intro prevCluster nextCluster
    cases prevCluster with
    | some prevCluster => exact .bind (Fat.set_tracks _ _) fun _ => ih _ _
    | none => exact .bind (.pure ()) fun _ => ih _ _

section

variable {R : FileSession size n → FileSession size n → Prop} [Std.Refl R] [Trans R R R]

theorem lastCluster_respects (chain : StoredChain) :
    Respects R (lastCluster chain : ExFat (FileSession size n) (Option Nat)) := by
  cases chain with
  | empty => exact .pure _
  | contiguous first clusterCount =>
    exact .bind (u32_respects _) fun _ => .bind (minus_respects _ _) fun _ => .pure _
  | fat first last clusterCount => exact .pure _

theorem lastOf_respects (run : AllocatedRun) :
    Respects R (lastOf run : ExFat (FileSession size n) Nat) :=
  .bind (u32_respects _) fun _ => minus_respects _ _

theorem shouldConvertToFatChain_respects (file : File) (run : AllocatedRun) :
    Respects R (shouldConvertToFatChain file run : ExFat (FileSession size n) Bool) := by
  unfold shouldConvertToFatChain
  split
  · exact .ite (.bind (u32_respects _) fun _ => .pure _) (.pure _)
  · exact .pure _

theorem convertFileToFatChainIfRequired_respects (grows : Extends home R) :
    Respects R (convertFileToFatChainIfRequired : ExFat (FileSession size n) Unit) := by
  refine .bind .get fun s =>
    .ite (.bind (grows.adopt (fun _ => rfl) (fun _ => rfl) (fun _ => rfl) fun _ => rfl) fun _ => ?_)
    (.pure _)
  split
  · exact .bind (u32_respects _) fun _ => .bind (minus_respects _ _) fun _ => grows.link (linkContiguous_tracks _ _)
  · exact .pure _

theorem storeChain_respects (grows : Extends home R) (run : AllocatedRun) (hasFatChain : Bool) (chain : StoredChain) :
    Respects R (storeChain run hasFatChain chain : ExFat (FileSession size n) Unit) := by
  have stored : ∀ {f : File → File}, (∀ file, (f file).details = file.details) →
    (∀ file, (f file).cursor = file.cursor) →
      (∀ file, (f file).touched = file.touched) → Respects R (modifyFile f : ExFat (FileSession size n) Unit) :=
    fun details cursor touched => grows.adopt (fun file => by rw [details]) cursor (fun file => by rw [touched])
      fun file => by rw [touched]
  cases chain with
  | empty => exact .bind .get fun _ => stored (fun _ => rfl) (fun _ => rfl) fun _ => rfl
  | contiguous first clusterCount =>
    refine .ite (.bind (lastOf_respects _) fun _ => ?_) ?_
    · exact .bind (u32_respects _) fun _ => stored (fun _ => rfl) (fun _ => rfl) fun _ => rfl
    · exact .bind (u32_respects _) fun _ => stored (fun _ => rfl) (fun _ => rfl) fun _ => rfl
  | fat first last clusterCount =>
    exact .bind (lastOf_respects _) fun _ => .bind (u32_respects _) fun _ =>
      stored (fun _ => rfl) (fun _ => rfl) fun _ => rfl

theorem adoptRun_respects (grows : Extends home R) (run : AllocatedRun) :
    Respects R (adoptRun run : ExFat (FileSession size n) Unit) := by
  refine .bind .get fun s => .ite ?_ (storeChain_respects grows _ _ _)
  refine .bind (lastCluster_respects _) fun prev => .bind (lastOf_respects _) fun last => ?_
  exact .bind (grows.link (linkRun_tracks _ _ _)) fun _ =>
    .bind (grows.link (Fat.set_tracks _ _)) fun _ => storeChain_respects grows _ _ _

/-- Linking a run to the chain, which may have to be written to the FAT first. -/
theorem updateChain_respects (grows : Extends home R) (run : AllocatedRun) :
    Respects R (updateChain run : ExFat (FileSession size n) Unit) :=
  .bind .get fun _ => .bind (shouldConvertToFatChain_respects _ _) fun _ =>
    .when (convertFileToFatChainIfRequired_respects grows) fun _ => adoptRun_respects grows run

theorem allocateRuns_respects (grows : Extends home R) (rounds : Nat) : ∀ clusterCount,
    Respects R (allocateRuns rounds clusterCount : ExFat (FileSession size n) Unit) := by
  induction rounds with
  | zero => intro clusterCount; exact .diverge
  | succ rounds ih =>
    intro clusterCount
    refine .bind .get fun s => .bind (grows.link (Allocator.allocate_tracks _ _)) fun run => ?_
    exact .bind (updateChain_respects grows run) fun _ => .bind (minus_respects _ _) fun rest =>
      .ite (.pure ()) (ih rest)

end

/-- A write is a growth of the chain, if it needs one, and a change of its sectors. -/
theorem write_tracks (buf : List UInt8) :
    Respects (Tracks home) (write buf : ExFat (FileSession size n) Unit) := by
  refine .ite (.pure ()) (.bind (tracks_edits.use FileSystem.mount_keeps) fun _ => ?_)
  refine .bind .get fun s => .when (.raise _) fun _ => .bind (u64_respects _) fun capacity => ?_
  refine .bind (u64_respects _) fun endOfWrite => ?_
  have rest : Respects (Tracks home) (do
      updateDataLength buf.length
      writeBytes buf : ExFat (FileSession size n) Unit) :=
    .bind (.bind .get fun _ => .bind (u64_respects _) fun _ =>
      modifyFile_tracks (fun _ => rfl) fun _ => rfl) fun _ => writeBytes_respects tracks_edits buf
  exact .ite (.bind (.bind .get fun _ => allocateRuns_respects tracks_extends _ _) fun _ => rest) rest

theorem flushEdit_tracks (details : FileDetails) (chain : StoredChain) (counter : Nat) (entry : RawDirEntry) :
    Respects (Session.Tracks home) (flushEdit details chain counter entry : ExFat (Session size n) Session.Edit) :=
  .ite (.bind (Session.onFs_tracks FileSystem.getCurrentTimestamp_keeps) fun _ => .pure _)
    (.ite (.pure _) (.pure _))

theorem flush_tracks : Respects (Tracks home) (flush : ExFat (FileSession size n) Unit) :=
  .bind .get fun _ =>
    .when (onSession_tracks (Session.rewriteSet_respects Session.tracks_builds.toSteps _ (flushEdit_tracks _ _)))
    fun _ =>
    onSession_tracks Session.flush_tracks

theorem copySectors_reads (rounds : Nat) : ∀ sectorId buf,
    Respects (Reads home) (copySectors rounds sectorId buf : ExFat (FileSession size n) Unit) := by
  induction rounds with
  | zero => intro sectorId buf; exact .diverge
  | succ rounds ih =>
    intro sectorId buf
    refine .bind (read_respects reads_moves _) fun got => ?_
    cases got with
    | none => exact .pure ()
    | some bytes =>
      exact .bind (onFs_reads (FileSystem.write_keeps _ _ _)) fun _ => .bind (u32_respects _) fun _ => ih _ _

theorem copyTo_tracks (fuel : Nat) (toPath : List Char) :
    Respects (Tracks home) (copyTo fuel toPath : ExFat (FileSession size n) Unit) := by
  refine .bind (.bind .get fun _ => .pure _) fun count => ?_
  refine .bind (tracks_edits.use (FileSystem.findFreeClusters_keeps _ _ _)) fun run => ?_
  refine .when (.raise _) fun _ => ?_
  refine .bind (onSession_tracks (Session.getOrCreateDirectory_respects Session.tracks_builds _ _)) fun dir =>
    .bind .get fun s => ?_
  refine .bind (onSession_tracks
    (Session.createFileDirEntryAt_respects Session.tracks_builds.toSteps _ _ _ _ _ _ _ _)) fun _ => ?_
  refine .bind (onSession_tracks (Allocator.markAllocated_tracks _ _)) fun _ => .bind .get fun s => ?_
  exact .bind (getHeapSectorId_respects _ _) fun _ =>
    (copySectors_reads _ _ _).mono fun _ _ => Reads.tracks

end File

end ExFatSlim
