import ExFatSlim.FileTracking

namespace ExFatSlim

open Exec

variable {size n : Nat} {home : Nat → CacheKind} {α : Type}

namespace FileSystem

variable {fs fs' fs'' : FileSystem size n}

/-- Whatever was done, the caches are sound afterwards if every change was made
through the cache in charge. -/
structure Stays (home : Nat → CacheKind) (fs fs' : FileSystem size n) : Prop where
  changed : ∀ k s, fs.Changed k s → fs'.Changed k s
  sound : fs'.AtHome home → fs.Sound home → fs'.Sound home

theorem Stays.refl (fs : FileSystem size n) : Stays home fs fs := ⟨fun _ _ => id, fun _ => id⟩

theorem Stays.trans (first : Stays home fs fs') (second : Stays home fs' fs'') : Stays home fs fs'' where
  changed k s changed := second.changed k s (first.changed k s changed)
  sound atHome sound :=
    second.sound atHome (first.sound (fun k s changed => atHome k s (second.changed k s changed)) sound)

instance : Std.Refl (Stays home : FileSystem size n → FileSystem size n → Prop) where
  refl := .refl

instance : Trans (Stays home : FileSystem size n → FileSystem size n → Prop) (Stays home) (Stays home) where
  trans := .trans

theorem Keeps.stays (keeps : Keeps home fs fs') : Stays home fs fs' := ⟨keeps.changed, keeps.sound⟩

/-- A call of the file system, after which no record is pending: whatever comes
of it the caches are sound, and when it returns it leaves no sector dirty that
was not dirty before. -/
abbrev Sustains (home : Nat → CacheKind) (m : ExFat (FileSystem size n) α) : Prop := Meets (Stays home) (Keeps home) m

theorem sustains_of_keeps {m : ExFat (FileSystem size n) α} (keeps : Respects (Keeps home) m) : Sustains home m :=
  .of_respects keeps fun _ _ => Keeps.stays

theorem sustains_of_looks {m : ExFat (FileSystem size n) α} (looks : Respects (Looks home) m) : Sustains home m :=
  sustains_of_keeps (looks.mono fun _ _ => Looks.keeps)

end FileSystem

/-- An operation with a touched set of its own that it flushes in the end. -/
theorem withTouched_sustains {m : ExFat (Session size n) α} (tracks : Respects (Session.Tracks home) m)
    (drains : Session.Drains m) : FileSystem.Sustains home (withTouched m) where
  always fs := by
    have tracks := tracks ⟨fs, .new⟩
    exact ⟨tracks.changed, fun atHome sound => (tracks.tracked atHome ⟨sound, FileDirty.atHome_new⟩).sound⟩
  settles := by
    intro fs a fs' run
    have tracks := tracks ⟨fs, .new⟩
    rcases inner : m ⟨fs, .new⟩ with ⟨r, s'⟩
    rw [withTouched, inner] at run
    cases run
    rw [inner] at tracks
    have tracked : fs.Sound home → Session.Tracked home ⟨fs, .new⟩ := fun sound => ⟨sound, FileDirty.atHome_new⟩
    refine ⟨tracks.changed, fun atHome sound => (tracks.tracked atHome (tracked sound)).sound,
      fun atHome sound k t dirty => ?_⟩
    refine (tracks.loose atHome (tracked sound) k t ⟨dirty, ?_⟩).1
    rw [drains _ _ _ inner]
    exact FileDirty.not_covers_new k t

namespace File

/-- Nothing is recorded for a handle that was just flushed. -/
theorem flush_touched {s s' : FileSession size n} {u : Unit} (run : flush s = (.ok u, s')) :
    s'.file.touched = .new := by
  have drained : ∀ s s' : FileSession size n, FileSession.onSession Session.flush s = (.ok u, s') →
      s'.file.touched = .new := by
    intro s s' run
    obtain ⟨t, inner, rfl⟩ := zoom_eq run
    exact Session.flush_drains _ _ _ inner
  rw [flush, bind_of_ok (get_apply s)] at run
  dsimp only at run
  split at run
  · obtain ⟨_, t, _, rest⟩ := bind_eq_ok.mp run
    exact drained t s' rest
  · exact drained s s' run

end File

namespace FileSystem

/-- Operations of a fresh handle. -/
theorem withFile_stays {m : ExFat (FileSession size n) α} (tracks : Respects (FileSession.Tracks home) m)
    {file : File} (fresh : file.touched = .new) : Respects (Stays home) (withFile file m) := by
  intro fs
  have tracks := tracks ⟨fs, file⟩
  refine ⟨tracks.changed, fun atHome sound => (tracks.tracked atHome ⟨sound, ?_⟩).sound⟩
  rw [FileSession.session, fresh]
  exact FileDirty.atHome_new

/-- Operations of a fresh handle that is closed in the end. -/
theorem withFile_sustains {m : ExFat (FileSession size n) α} (tracks : Respects (FileSession.Tracks home) m)
    {file : File} (fresh : file.touched = .new)
    (drains : ∀ s a s', m s = (.ok a, s') → s'.file.touched = .new) : Sustains home (withFile file m) where
  always := withFile_stays tracks fresh
  settles := by
    intro fs a fs' run
    have stays : Stays home fs (withFile file m fs).2 := withFile_stays tracks fresh fs
    have tracks := tracks ⟨fs, file⟩
    rw [run] at stays
    rcases inner : m ⟨fs, file⟩ with ⟨r, s'⟩
    rw [withFile, inner] at run
    cases run
    rw [inner] at tracks
    have tracked : fs.Sound home → Session.Tracked home (FileSession.session ⟨fs, file⟩) := by
      intro sound
      refine ⟨sound, ?_⟩
      rw [FileSession.session, fresh]
      exact FileDirty.atHome_new
    refine ⟨stays.changed, stays.sound, fun atHome sound k t dirty => ?_⟩
    refine (tracks.loose atHome (tracked sound) k t ⟨dirty, ?_⟩).1
    rw [FileSession.session, drains _ _ _ inner]
    exact FileDirty.not_covers_new k t

theorem mount_sustains : Sustains home (mount : ExFat (FileSystem size n) Unit) := sustains_of_keeps mount_keeps

theorem truncateFile_sustains (details : FileDetails) (length : Nat) :
    Sustains home (truncateFile details length : ExFat (FileSystem size n) FileDetails) := by
  refine withTouched_sustains ?_ ?_
  · refine .bind (.assert _) fun _ => .bind (Session.onFs_looks (getStoredChain_looks _)) fun chain => ?_
    refine .bind (Session.rewriteSet_respects Session.tracks_builds.toSteps _ (Session.truncateEdit_respects _))
      fun _ => ?_
    exact .bind (Allocator.free_tracks _) fun _ => .bind Session.flush_tracks fun _ => .pure _
  · exact .bind fun _ => .bind fun _ => .bind fun _ => .bind fun _ => Session.flush_pure_drains _

theorem createFile_sustains (fuel : Nat) (path : List Char) :
    Sustains home (createFile fuel path : ExFat (FileSystem size n) FileDetails) := by
  refine withTouched_sustains ?_ ?_
  · refine .bind (Session.getOrCreateDirectory_respects Session.tracks_builds _ _) fun dir => ?_
    refine .bind (Session.createFileDirEntryAt_respects Session.tracks_builds.toSteps _ _ _ _ _ _ _ _)
      fun details => ?_
    exact .bind Session.flush_tracks fun _ => .pure _
  · exact .bind fun _ => .bind fun _ => Session.flush_pure_drains _

theorem deleteInner_sustains (fuel : Nat) (details : FileDetails) :
    Sustains home (deleteInner fuel details : ExFat (FileSystem size n) Unit) := by
  refine .bind (sustains_of_looks (confirmHasNoChildren_looks _ _)) fun _ => withTouched_sustains ?_ ?_
  · refine .bind (Session.onFs_looks (getStoredChain_looks _)) fun chain => ?_
    refine .bind (Allocator.free_tracks _) fun _ => ?_
    exact .bind (Session.markEntriesUnused_respects Session.tracks_builds.toSteps _ _) fun _ => Session.flush_tracks
  · exact .bind fun _ => .bind fun _ => .bind fun _ => Session.flush_drains

theorem findFileInner_sustains (fuel : Nat) (path : List Char) (a : Option FileAttributes) :
    Sustains home (findFileInner fuel path a : ExFat (FileSystem size n) FileDetails) :=
  sustains_of_looks (findFileInner_looks _ _ _)

theorem attemptFind_sustains (fuel : Nat) (path : List Char) (a : Option FileAttributes) :
    Sustains home (attempt (findFileInner fuel path a) : ExFat (FileSystem size n) _) :=
  sustains_of_looks (findFileInner_looks _ _ _).attempt

theorem openDetails_sustains (fuel : Nat) (path : List Char) (options : OpenOptions) :
    Sustains home (openDetails fuel path options : ExFat (FileSystem size n) FileDetails) := by
  refine .bind (attemptFind_sustains _ _ _) fun found => ?_
  split
  · rename_i details
    have found : Sustains home (if options.truncate then truncateFile details 0 else pure details :
        ExFat (FileSystem size n) FileDetails) := .ite (truncateFile_sustains _ _) (.pure _)
    exact .ite (.bind (.raise _) fun _ => found) found
  · exact .ite (createFile_sustains _ _) (.raise _)
  · exact .raise _

theorem openCluster_respects {σ : Type} {R : σ → σ → Prop} [Std.Refl R] [Trans R R R] (details : FileDetails)
    (chain : StoredChain) (options : OpenOptions) :
    Respects R (openCluster details chain options : ExFat σ Nat) := by
  unfold openCluster
  split
  · cases chain with
    | empty => exact .pure _
    | contiguous first clusterCount => exact .bind (u32_respects _) fun _ => minus_respects _ _
    | fat first last clusterCount => exact .pure _
  · exact .pure _

theorem fileNew_respects {σ : Type} {R : σ → σ → Prop} [Std.Refl R] [Trans R R R] (details : FileDetails)
    (clusterId clusterLength : Nat) (options : OpenOptions) (chain : StoredChain) :
    Respects R (File.new details clusterId clusterLength options chain : ExFat σ File) := by
  cases chain with
  | empty => exact .bind (.pure _) fun _ => .pure _
  | contiguous first clusterCount => exact .bind (minus_respects _ _) fun _ => .pure _
  | fat first last clusterCount => exact .bind (minus_respects _ _) fun _ => .pure _

theorem open_sustains (fuel : Nat) (path : List Char) (options : OpenOptions) :
    Sustains home («open» fuel path options : ExFat (FileSystem size n) File) := by
  refine .bind mount_sustains fun _ => .bind (openDetails_sustains _ _ _) fun details => ?_
  refine .bind (sustains_of_looks (getStoredChain_looks _)) fun chain => sustains_of_keeps ?_
  exact .bind (openCluster_respects _ _ _) fun clusterId => .bind .get fun fs => fileNew_respects _ _ _ _ _

theorem fileNew_touched {σ : Type} {details : FileDetails} {clusterId clusterLength : Nat}
    {options : OpenOptions} {chain : StoredChain} {s s' : σ} {file : File}
    (run : File.new details clusterId clusterLength options chain s = (.ok file, s')) : file.touched = .new := by
  cases chain with
  | empty =>
    cases run
    rfl
  | contiguous first clusterCount =>
    obtain ⟨remaining, t, _, rest⟩ := bind_eq_ok.mp run
    cases rest
    rfl
  | fat first last clusterCount =>
    obtain ⟨remaining, t, _, rest⟩ := bind_eq_ok.mp run
    cases rest
    rfl

theorem open_touched {fuel : Nat} {path : List Char} {options : OpenOptions} {fs fs' : FileSystem size n}
    {file : File} (run : «open» fuel path options fs = (.ok file, fs')) : file.touched = .new := by
  obtain ⟨_, _, _, run⟩ := bind_eq_ok.mp run
  obtain ⟨_, _, _, run⟩ := bind_eq_ok.mp run
  obtain ⟨_, _, _, run⟩ := bind_eq_ok.mp run
  obtain ⟨_, _, _, run⟩ := bind_eq_ok.mp run
  obtain ⟨_, _, _, run⟩ := bind_eq_ok.mp run
  exact fileNew_touched run

/-- An operation on a file that it opens and closes itself. -/
theorem open_withFile_sustains (fuel : Nat) (path : List Char) (options : OpenOptions)
    {m : ExFat (FileSession size n) α} (tracks : Respects (FileSession.Tracks home) m)
    (drains : ∀ s a s', m s = (.ok a, s') → s'.file.touched = .new) :
    Sustains home («open» fuel path options >>= fun file => withFile file m) where
  always fs := by
    have first : Stays home fs («open» fuel path options fs).2 := (open_sustains fuel path options).always fs
    rw [bind_apply]
    split
    · rename_i file fs' run
      rw [run] at first
      exact first.trans (withFile_stays tracks (open_touched run) fs')
    · rename_i e fs' run
      rwa [run] at first
  settles := by
    intro fs a fs' run
    obtain ⟨file, t, opened, run⟩ := bind_eq_ok.mp run
    have first : Keeps home fs t := (open_sustains fuel path options).settles fs file t opened
    exact Trans.trans first ((withFile_sustains tracks (open_touched opened) drains).settles t a fs' run)

/-- The rest of a call on a handle that it closes. -/
theorem closes_drained {α β : Type} {m : ExFat (FileSession size n) α} {f : α → β} {s s' : FileSession size n} {b : β}
    (run : (m >>= fun a => File.close >>= fun _ => pure (f a)) s = (.ok b, s')) : s'.file.touched = .new := by
  obtain ⟨a, t, _, rest⟩ := bind_eq_ok.mp run
  obtain ⟨u, t', closed, rest⟩ := bind_eq_ok.mp rest
  cases rest
  exact File.flush_touched closed

theorem exists_sustains (fuel : Nat) (path : List Char) :
    Sustains home («exists» fuel path : ExFat (FileSystem size n) Bool) := by
  refine .bind mount_sustains fun _ => .bind (attemptFind_sustains _ _ _) fun found => ?_
  split
  · exact .pure _
  · exact .pure _
  · exact .pure _
  · exact .raise _

theorem read_sustains (fuel : Nat) (path : List Char) :
    Sustains home (read fuel path : ExFat (FileSystem size n) (List UInt8)) := by
  refine .bind mount_sustains fun _ => open_withFile_sustains _ _ _ ?_ fun s a s' run => closes_drained run
  exact .bind ((File.readToEnd_respects FileSession.reads_moves).mono fun _ _ => FileSession.Reads.tracks) fun _ =>
    .bind File.flush_tracks fun _ => .pure _

theorem readToString_sustains (fuel : Nat) (path : List Char) :
    Sustains home (readToString fuel path : ExFat (FileSystem size n) String) := by
  refine .bind mount_sustains fun _ => open_withFile_sustains _ _ _ ?_ fun s a s' run => closes_drained run
  exact .bind ((File.readToString_respects FileSession.reads_moves).mono fun _ _ => FileSession.Reads.tracks) fun _ =>
    .bind File.flush_tracks fun _ => .pure _

theorem readDir_sustains (fuel : Nat) (path : List Char) :
    Sustains home (readDir fuel path : ExFat (FileSystem size n) (DirectoryEntryChain size)) :=
  .bind mount_sustains fun _ => sustains_of_looks (directoryList_looks _ _)

theorem removeFile_sustains (fuel : Nat) (path : List Char) :
    Sustains home (removeFile fuel path : ExFat (FileSystem size n) Unit) :=
  .bind mount_sustains fun _ => .bind (findFileInner_sustains _ _ _) fun _ => deleteInner_sustains _ _

theorem removeDir_sustains (fuel : Nat) (path : List Char) :
    Sustains home (removeDir fuel path : ExFat (FileSystem size n) Unit) :=
  .bind mount_sustains fun _ => .bind (findFileInner_sustains _ _ _) fun _ => deleteInner_sustains _ _

theorem createDirectory_sustains (fuel : Nat) (path : List Char) :
    Sustains home (createDirectory fuel path : ExFat (FileSystem size n) Unit) := by
  refine .bind mount_sustains fun _ => withTouched_sustains ?_ (.bind fun _ => Session.flush_drains)
  exact .bind (Session.getOrCreateDirectory_respects Session.tracks_builds _ _) fun _ => Session.flush_tracks

theorem copy_sustains (fuel : Nat) (fromPath toPath : List Char) :
    Sustains home (copy fuel fromPath toPath : ExFat (FileSystem size n) Unit) := by
  have copied : Sustains home («open» fuel fromPath { read := true } >>= fun file =>
      withFile file (File.copyTo fuel toPath >>= fun _ => File.close) : ExFat (FileSystem size n) Unit) := by
    refine open_withFile_sustains _ _ _ (.bind (File.copyTo_tracks _ _) fun _ => File.flush_tracks) ?_
    intro s u s' run
    obtain ⟨_, t, _, rest⟩ := bind_eq_ok.mp run
    exact File.flush_touched rest
  exact .bind mount_sustains fun _ => .ite (.bind (.raise _) fun _ => copied) copied

theorem write_sustains (fuel : Nat) (path : List Char) (contents : List UInt8) :
    Sustains home (write fuel path contents : ExFat (FileSystem size n) Unit) := by
  refine .bind mount_sustains fun _ => ?_
  refine open_withFile_sustains _ _ _ (.bind (File.write_tracks _) fun _ => File.flush_tracks) ?_
  intro s u s' run
  obtain ⟨_, t, _, rest⟩ := bind_eq_ok.mp run
  exact File.flush_touched rest

theorem rename_sustains (fuel : Nat) (fromPath toPath : List Char) :
    Sustains home (rename fuel fromPath toPath : ExFat (FileSystem size n) Unit) := by
  refine .bind mount_sustains fun _ => .bind (findFileInner_sustains _ _ _) fun details => ?_
  refine .bind (attemptFind_sustains _ _ _) fun found => ?_
  split
  · exact .raise _
  · refine withTouched_sustains ?_ (.bind fun _ => .bind fun _ => .bind fun _ => Session.flush_drains)
    refine .bind (Session.getOrCreateDirectory_respects Session.tracks_builds _ _) fun dir => ?_
    refine .bind (Session.createFileDirEntryAt_respects Session.tracks_builds.toSteps _ _ _ _ _ _ _ _) fun _ => ?_
    exact .bind (Session.markEntriesUnused_respects Session.tracks_builds.toSteps _ _) fun _ => Session.flush_tracks

end FileSystem

end ExFatSlim
