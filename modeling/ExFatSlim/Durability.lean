import ExFatSlim.ApiTracking
import ExFatSlim.HandleRuns

namespace ExFatSlim

open Exec

/-- An open handle, and whether it was written to since it was last flushed. -/
structure Handle where
  file : File
  written : Bool

/-- A file system with the handles that are open on it. -/
structure World (size n : Nat) where
  fs : FileSystem size n
  handles : List Handle

/-- The public operations; a handle is named by its place among the open ones. -/
inductive Op where
  | open (path : List Char) (options : OpenOptions)
  | write (handle : Nat) (buf : List UInt8)
  | seek (handle cursor : Nat)
  | read (handle len : Nat)
  | flush (handle : Nat)
  | close (handle : Nat)
  | createDirectory (path : List Char)
  | rename (fromPath toPath : List Char)
  | copy (fromPath toPath : List Char)
  | removeFile (path : List Char)
  | removeDir (path : List Char)
  | writeFile (path : List Char) (contents : List UInt8)
  | readToEnd (handle : Nat)
  | readToString (handle : Nat)
  | readFile (path : List Char)
  | readFileToString (path : List Char)
  | «exists» (path : List Char)
  | readDir (path : List Char)

namespace FileSystem

variable {size n : Nat} {fs : FileSystem size n}

/-- No sector was accessed through two of the caches. -/
def Separate (fs : FileSystem size n) : Prop :=
  ∀ j k, ∀ a ∈ (fs.cacheOf j).trace, ∀ b ∈ (fs.cacheOf k).trace, a.sector = b.sector → j = k

/-- The cache that a sector was accessed through, and `k` for the other sectors. -/
noncomputable def owner (fs : FileSystem size n) (k : CacheKind) (s : Nat) : CacheKind :=
  open Classical in if found : ∃ j, ∃ a ∈ (fs.cacheOf j).trace, a.sector = s then found.choose else k

theorem Separate.owner_atHome (separate : fs.Separate) (k : CacheKind) : fs.AtHome (fs.owner k) := by
  intro j s changed
  have found : ∃ j, ∃ a ∈ (fs.cacheOf j).trace, a.sector = s := ⟨j, _, changed, rfl⟩
  obtain ⟨a, member, same⟩ := found.choose_spec
  rw [owner, dif_pos found]
  exact separate _ _ a member _ changed same

theorem owner_eq_of_only {k : CacheKind} {s : Nat}
    (only : ∀ j, ∀ a ∈ (fs.cacheOf j).trace, a.sector = s → j = k) : fs.owner k s = k := by
  unfold owner
  split
  · rename_i found
    obtain ⟨a, member, same⟩ := found.choose_spec
    exact only _ a member same
  · rfl

/-- Caches that agree with a device that never fails, without a dirty slot. -/
structure Clean (fs : FileSystem size n) : Prop where
  sound : ∀ k, (fs.cacheOf k).Sound .univ fs.dev
  clean : ∀ k i, ((fs.cacheOf k).cache i).isDirty = false

theorem Clean.sound_at (clean : fs.Clean) (home : Nat → CacheKind) : fs.Sound home := by
  intro k
  obtain ⟨coherent, reliable, filled⟩ := clean.sound k
  refine ⟨⟨coherent.distinct, fun i valid quiet _ => coherent.synced i valid quiet trivial, fun i dirty => ?_⟩,
    reliable, filled⟩
  rw [clean.clean k i] at dirty
  cases dirty

theorem Clean.dirty_eq (clean : fs.Clean) (k : CacheKind) : fs.dirty k = ∅ := by
  refine Set.eq_empty_iff_forall_notMem.mpr ?_
  rintro s ⟨i, _, dirty⟩
  rw [clean.clean k i] at dirty
  cases dirty

end FileSystem

namespace World

variable {size n : Nat} {home : Nat → CacheKind} {α : Type} {w w' : World size n}

/-- An operation of the file system that returns `Ok`. -/
def onFs (w : World size n) (m : ExFat (FileSystem size n) α) : Option (World size n) :=
  match m w.fs with
  | (.ok _, fs) => some { w with fs }
  | _ => none

/-- An operation of a handle that returns `Ok`, `written` telling what becomes of the flag. -/
def onHandle (w : World size n) (h : Nat) (m : ExFat (FileSession size n) α) (written : Bool → Bool) :
    Option (World size n) :=
  match w.handles[h]? with
  | some handle =>
    match m ⟨w.fs, handle.file⟩ with
    | (.ok _, s) => some ⟨s.fs, w.handles.set h ⟨s.file, written handle.written⟩⟩
    | _ => none
  | none => none

/-- The world after an operation that returns `Ok`. -/
def step (fuel : Nat) (w : World size n) : Op → Option (World size n)
  | .open path options =>
    match FileSystem.open fuel path options w.fs with
    | (.ok file, fs) => some ⟨fs, w.handles ++ [⟨file, false⟩]⟩
    | _ => none
  | .write h buf => w.onHandle h (File.write buf) fun _ => true
  | .seek h cursor => w.onHandle h (File.seek cursor) id
  | .read h len => w.onHandle h (File.read len) id
  | .flush h => w.onHandle h File.flush fun _ => false
  | .close h => (w.onHandle h File.close fun _ => false).map fun w => { w with handles := w.handles.eraseIdx h }
  | .createDirectory path => w.onFs (FileSystem.createDirectory fuel path)
  | .rename fromPath toPath => w.onFs (FileSystem.rename fuel fromPath toPath)
  | .copy fromPath toPath => w.onFs (FileSystem.copy fuel fromPath toPath)
  | .removeFile path => w.onFs (FileSystem.removeFile fuel path)
  | .removeDir path => w.onFs (FileSystem.removeDir fuel path)
  | .writeFile path contents => w.onFs (FileSystem.write fuel path contents)
  | .readToEnd h => w.onHandle h File.readToEnd id
  | .readToString h => w.onHandle h File.readToString id
  | .readFile path => w.onFs (FileSystem.read fuel path)
  | .readFileToString path => w.onFs (FileSystem.readToString fuel path)
  | .exists path => w.onFs (FileSystem.exists fuel path)
  | .readDir path => w.onFs (FileSystem.readDir fuel path)

/-- A run in which every operation returns `Ok`. -/
def run (fuel : Nat) : List Op → World size n → Option (World size n)
  | [], w => some w
  | op :: rest, w => (w.step fuel op).bind (run fuel rest)

/-- What holds between operations: every dirty sector is on record with one of
the handles, and a handle that was not written to has no record. -/
structure Accounted (home : Nat → CacheKind) (w : World size n) : Prop where
  sound : w.fs.Sound home
  atHome : ∀ h ∈ w.handles, h.file.touched.AtHome home
  covered : ∀ k, ∀ t ∈ w.fs.dirty k, ∃ h ∈ w.handles, h.file.touched.Covers k t
  idle : ∀ h ∈ w.handles, h.written = false → h.file.touched = .new

/-- What a step does, if every change was made through the cache in charge. -/
structure Advances (home : Nat → CacheKind) (w w' : World size n) : Prop where
  changed : ∀ k t, w.fs.Changed k t → w'.fs.Changed k t
  accounted : w'.fs.AtHome home → w.Accounted home → w'.Accounted home

theorem Advances.refl (w : World size n) : Advances home w w := ⟨fun _ _ => id, fun _ => id⟩

theorem Advances.trans {w'' : World size n} (first : Advances home w w') (second : Advances home w' w'') :
    Advances home w w'' :=
  ⟨fun k t changed => second.changed k t (first.changed k t changed), fun atHome accounted =>
    second.accounted atHome (first.accounted (fun k t changed => atHome k t (second.changed k t changed)) accounted)⟩

theorem onFs_advances {m : ExFat (FileSystem size n) α} (settles : Settles (FileSystem.Keeps home) m)
    (run : w.onFs m = some w') : Advances home w w' := by
  unfold onFs at run
  split at run
  · rename_i a fs' inner
    cases run
    have keeps := settles _ _ _ inner
    refine ⟨keeps.changed, fun atHome accounted => ⟨keeps.sound atHome accounted.sound, accounted.atHome,
      fun k t dirty => ?_, accounted.idle⟩⟩
    exact accounted.covered k t (keeps.dirty atHome accounted.sound k dirty)
  · cases run

/-- The handle that an operation worked on is in its place afterwards, and the
other handles are where they were. -/
theorem onHandle_cases {h : Nat} {m : ExFat (FileSession size n) α} {written : Bool → Bool}
    (run : w.onHandle h m written = some w') : ∃ handle a file,
      w.handles[h]? = some handle ∧ m ⟨w.fs, handle.file⟩ = (.ok a, ⟨w'.fs, file⟩) ∧
      w'.handles = w.handles.set h ⟨file, written handle.written⟩ := by
  unfold onHandle at run
  split at run
  · rename_i handle found
    split at run
    · rename_i a s inner
      cases run
      exact ⟨handle, a, s.file, found, inner, rfl⟩
    · cases run
  · cases run

/-- A sector that was dirty and not on record with one handle is on record with
another one, which is still there. -/
theorem Accounted.covered_elsewhere (accounted : w.Accounted home) {h : Nat} {handle : Handle}
    (found : w.handles[h]? = some handle) {k : CacheKind} {t : Nat} (dirty : t ∈ w.fs.dirty k)
    (loose : ¬ handle.file.touched.Covers k t) :
    ∃ i other, i ≠ h ∧ w.handles[i]? = some other ∧ other.file.touched.Covers k t := by
  obtain ⟨other, member, covers⟩ := accounted.covered k t dirty
  obtain ⟨i, at_i⟩ := List.mem_iff_getElem?.mp member
  refine ⟨i, other, ?_, at_i, covers⟩
  rintro rfl
  rw [found] at at_i
  cases at_i
  exact loose covers

theorem onHandle_advances {h : Nat} {m : ExFat (FileSession size n) α} {written : Bool → Bool}
    (tracks : Respects (FileSession.Tracks home) m)
    (idle : ∀ s a s' flag, m s = (.ok a, s') → (flag = false → s.file.touched = .new) →
      written flag = false → s'.file.touched = .new)
    (run : w.onHandle h m written = some w') : Advances home w w' := by
  obtain ⟨handle, a, file, found, inner, handles⟩ := onHandle_cases run
  have tracks := tracks ⟨w.fs, handle.file⟩
  rw [inner] at tracks
  have member : handle ∈ w.handles := List.mem_of_getElem? found
  refine ⟨tracks.changed, fun atHome accounted => ?_⟩
  have tracked : Session.Tracked home (FileSession.session ⟨w.fs, handle.file⟩) :=
    ⟨accounted.sound, accounted.atHome handle member⟩
  have now := tracks.tracked atHome tracked
  refine ⟨now.sound, fun other other_mem => ?_, fun k t dirty => ?_, fun other other_mem quiet => ?_⟩
  · rw [handles] at other_mem
    rcases List.mem_or_eq_of_mem_set other_mem with old | rfl
    · exact accounted.atHome other old
    · exact now.atHome
  · by_cases covers : file.touched.Covers k t
    · refine ⟨⟨file, written handle.written⟩, ?_, covers⟩
      rw [handles]
      exact List.mem_set (List.getElem?_eq_some_iff.mp found).1 _
    · obtain ⟨before, uncovered⟩ := tracks.loose atHome tracked k t ⟨dirty, covers⟩
      obtain ⟨i, other, apart, at_i, covered⟩ := accounted.covered_elsewhere found before uncovered
      refine ⟨other, ?_, covered⟩
      rw [handles]
      exact List.mem_of_getElem? (i := i) (by rw [List.getElem?_set_ne apart.symm, at_i])
  · rw [handles] at other_mem
    rcases List.mem_or_eq_of_mem_set other_mem with old | rfl
    · exact accounted.idle other old quiet
    · exact idle _ _ _ _ inner (accounted.idle handle member) quiet

theorem onHandle_reads_advances {h : Nat} {m : ExFat (FileSession size n) α}
    (reads : Respects (FileSession.Reads home) m) (run : w.onHandle h m id = some w') : Advances home w w' := by
  refine onHandle_advances (reads.mono fun _ _ => FileSession.Reads.tracks) ?_ run
  intro s a s' flag inner idle quiet
  have same := (reads s).touched
  rw [inner] at same
  exact same.trans (idle quiet)

theorem flush_advances {h : Nat} (run : w.onHandle h File.flush (fun _ => false) = some w') :
    Advances home w w' :=
  onHandle_advances File.flush_tracks (fun _ _ _ _ inner _ _ => File.flush_touched inner) run

/-- A handle that is gone leaves nothing behind when it had no record. -/
theorem Accounted.erase (accounted : w.Accounted home) {h : Nat} {handle : Handle}
    (found : w.handles[h]? = some handle) (drained : handle.file.touched = .new) :
    Accounted home { w with handles := w.handles.eraseIdx h } where
  sound := accounted.sound
  atHome other member := accounted.atHome other (List.mem_of_mem_eraseIdx member)
  covered k t dirty := by
    have loose : ¬ handle.file.touched.Covers k t := by
      rw [drained]
      exact FileDirty.not_covers_new k t
    obtain ⟨i, other, apart, at_i, covers⟩ := accounted.covered_elsewhere found dirty loose
    exact ⟨other, List.mem_eraseIdx_iff_getElem?.mpr ⟨i, apart, at_i⟩, covers⟩
  idle other member := accounted.idle other (List.mem_of_mem_eraseIdx member)

theorem close_advances {h : Nat} (run : w.onHandle h File.close (fun _ => false) = some w') :
    Advances home w { w' with handles := w'.handles.eraseIdx h } := by
  obtain ⟨handle, u, file, found, inner, handles⟩ := onHandle_cases run
  have advances : Advances home w w' := flush_advances run
  have here : w'.handles[h]? = some ⟨file, false⟩ := by
    rw [handles, List.getElem?_set_self (List.getElem?_eq_some_iff.mp found).1]
  exact ⟨advances.changed, fun atHome accounted =>
    (advances.accounted atHome accounted).erase here (File.flush_touched inner)⟩

theorem open_advances {fuel : Nat} {path : List Char} {options : OpenOptions}
    (run : w.step fuel (.open path options) = some w') : Advances home w w' := by
  rw [step] at run
  split at run
  · rename_i file fs' inner
    cases run
    have keeps : FileSystem.Keeps home w.fs fs' := (FileSystem.open_sustains fuel path options).settles _ _ _ inner
    have fresh := FileSystem.open_touched inner
    refine ⟨keeps.changed, fun atHome accounted => ⟨keeps.sound atHome accounted.sound, fun h member => ?_,
      fun k t dirty => ?_, fun h member quiet => ?_⟩⟩
    · rcases List.mem_append.mp member with old | new
      · exact accounted.atHome h old
      · cases List.mem_singleton.mp new
        rw [fresh]
        exact FileDirty.atHome_new
    · obtain ⟨h, member, covers⟩ := accounted.covered k t (keeps.dirty atHome accounted.sound k dirty)
      exact ⟨h, List.mem_append_left _ member, covers⟩
    · rcases List.mem_append.mp member with old | new
      · exact accounted.idle h old quiet
      · cases List.mem_singleton.mp new
        exact fresh
  · cases run

theorem step_advances {fuel : Nat} {op : Op} (run : w.step fuel op = some w') : Advances home w w' := by
  cases op with
  | «open» path options => exact open_advances run
  | write h buf =>
    have called : w.onHandle h (File.write buf) (fun _ => true) = some w' := run
    exact onHandle_advances (File.write_tracks buf) (fun _ _ _ _ _ _ quiet => by cases quiet) called
  | seek h cursor => exact onHandle_reads_advances (File.seek_respects FileSession.reads_moves cursor) run
  | read h len => exact onHandle_reads_advances (File.read_respects FileSession.reads_moves len) run
  | flush h => exact flush_advances run
  | close h =>
    obtain ⟨w₁, inner, rfl⟩ := Option.map_eq_some_iff.mp run
    exact close_advances inner
  | createDirectory path => exact onFs_advances (FileSystem.createDirectory_sustains _ _).settles run
  | rename fromPath toPath => exact onFs_advances (FileSystem.rename_sustains _ _ _).settles run
  | copy fromPath toPath => exact onFs_advances (FileSystem.copy_sustains _ _ _).settles run
  | removeFile path => exact onFs_advances (FileSystem.removeFile_sustains _ _).settles run
  | removeDir path => exact onFs_advances (FileSystem.removeDir_sustains _ _).settles run
  | writeFile path contents => exact onFs_advances (FileSystem.write_sustains _ _ _).settles run
  | readToEnd h => exact onHandle_reads_advances (File.readToEnd_respects FileSession.reads_moves) run
  | readToString h => exact onHandle_reads_advances (File.readToString_respects FileSession.reads_moves) run
  | readFile path => exact onFs_advances (FileSystem.read_sustains _ _).settles run
  | readFileToString path => exact onFs_advances (FileSystem.readToString_sustains _ _).settles run
  | «exists» path => exact onFs_advances (FileSystem.exists_sustains _ _).settles run
  | readDir path => exact onFs_advances (FileSystem.readDir_sustains _ _).settles run

theorem run_advances {fuel : Nat} (ops : List Op) : ∀ {w w' : World size n},
    World.run fuel ops w = some w' → Advances home w w' := by
  induction ops with
  | nil =>
    intro w w' done
    cases done
    exact .refl w
  | cons op rest ih =>
    intro w w' done
    obtain ⟨w₁, first, later⟩ := Option.bind_eq_some_iff.mp done
    exact (step_advances first).trans (ih later)

/-- Without a handle there is nothing to account for. -/
theorem accounted_of_clean {fs : FileSystem size n} (clean : fs.Clean) (home : Nat → CacheKind) :
    Accounted home ⟨fs, []⟩ where
  sound := clean.sound_at home
  atHome _ member := by cases member
  covered k t dirty := by simp [clean.dirty_eq k] at dirty
  idle _ member := by cases member

theorem Accounted.clean (accounted : w.Accounted home) (drained : ∀ h ∈ w.handles, h.file.touched = .new)
    (k : CacheKind) (i : Fin n) : ((w.fs.cacheOf k).cache i).isDirty = false := by
  rw [Bool.eq_false_iff]
  intro dirty
  have valid := ((accounted.sound k).coherent.owned i dirty).1
  obtain ⟨h, member, covers⟩ := accounted.covered k _ ⟨i, ⟨valid, rfl⟩, dirty⟩
  rw [drained h member] at covers
  exact FileDirty.not_covers_new _ _ covers

/-- A handle without a record has nothing to flush. -/
theorem flush_of_drained (fs : FileSystem size n) {file : File} (drained : file.touched = .new) :
    File.flush ⟨fs, file⟩ = (.ok (), ⟨fs, file⟩) := by
  obtain ⟨details, currentCluster, remaining, cursor, options, chain, touched⟩ := file
  subst drained
  rfl

/-- Whenever every open handle has been flushed or closed since its last write,
no cache holds a dirty slot, the device holds every sector as the only cache
that was asked for it shows it, and a further flush does nothing. -/
theorem closed_is_durable {fuel : Nat} {fs : FileSystem size n} (clean : fs.Clean) (ops : List Op)
    (done : World.run fuel ops ⟨fs, []⟩ = some w) (separate : w.fs.Separate)
    (flushed : ∀ h ∈ w.handles, h.written = false) :
    (∀ k i, ((w.fs.cacheOf k).cache i).isDirty = false) ∧
    (∀ k s, (∀ j, ∀ a ∈ (w.fs.cacheOf j).trace, a.sector = s → j = k) →
      (w.fs.cacheOf k).view w.fs.dev s = w.fs.dev.blocks s) ∧
    ∀ h ∈ w.handles, File.flush ⟨w.fs, h.file⟩ = (.ok (), ⟨w.fs, h.file⟩) := by
  have accounted : ∀ k, w.Accounted (w.fs.owner k) := by
    intro k
    have advances : Advances (w.fs.owner k) ⟨fs, []⟩ w := run_advances ops done
    exact advances.accounted (separate.owner_atHome k) (accounted_of_clean clean _)
  have drained : ∀ h ∈ w.handles, h.file.touched = .new := fun h member =>
    (accounted .data).idle h member (flushed h member)
  have quiet := (accounted .data).clean drained
  refine ⟨quiet, fun k s only => ?_, fun h member => flush_of_drained w.fs (drained h member)⟩
  exact (((accounted k).sound k).coherent.view_clean (FileSystem.owner_eq_of_only only)
    fun i _ => quiet k i).symm

open FileSystem (pairVolume pairOptions)

theorem pairVolume_clean : pairVolume.Clean where
  sound k := by cases k <;> exact SlotCache.new_sound .univ _
  clean k i := by cases k <;> rfl

/-- The sectors that were asked for through a cache. -/
def accessed (k : CacheKind) (w : World 512 1) : List Nat := (w.fs.cacheOf k).trace.map Access.sector

theorem only_data {w : World 512 1} (fat : accessed .fat w = []) (bitmap : accessed .bitmap w = []) :
    ∀ j, ∀ a ∈ (w.fs.cacheOf j).trace, j = .data := by
  intro j a member
  have sector : a.sector ∈ accessed j w := List.mem_map_of_mem member
  cases j with
  | fat =>
    rw [fat] at sector
    cases sector
  | bitmap =>
    rw [bitmap] at sector
    cases sector
  | data => rfl

/-- The files `f` and `g` are written, the one is closed and the other one flushed. -/
def closingOps : List Op :=
  [.open ['f'] pairOptions, .open ['g'] pairOptions, .write 0 [7], .write 1 [8], .seek 1 0, .read 1 1,
    .close 0, .flush 0]

/-- The bytes written are on the device, and the handle of `g` is still open. -/
theorem closed_is_durable_pair : ∃ w, World.run 40 closingOps ⟨pairVolume, []⟩ = some w ∧ w.handles.length = 1 ∧
    (w.fs.dev.blocks 101).byte 0 = 7 ∧ (w.fs.dev.blocks 103).byte 0 = 8 ∧
    (∀ k i, ((w.fs.cacheOf k).cache i).isDirty = false) ∧
    ∀ h ∈ w.handles, File.flush ⟨w.fs, h.file⟩ = (.ok (), ⟨w.fs, h.file⟩) := by
  have shown : (World.run 40 closingOps ⟨pairVolume, []⟩).map (fun w => (w.handles.map Handle.written,
      (accessed .fat w, accessed .bitmap w), ((w.fs.cacheOf .data).view w.fs.dev 101).byte 0,
      ((w.fs.cacheOf .data).view w.fs.dev 103).byte 0)) = some ([false], ([], []), 7, 8) := by decide +kernel
  obtain ⟨w, done, shown⟩ := Option.map_eq_some_iff.mp shown
  simp only [Prod.mk.injEq] at shown
  obtain ⟨handles, ⟨fat, bitmap⟩, first, second⟩ := shown
  have only := only_data fat bitmap
  have separate : w.fs.Separate := fun j k a memberA b memberB _ => (only j a memberA).trans (only k b memberB).symm
  have flushed : ∀ h ∈ w.handles, h.written = false := by
    intro h member
    have here : h.written ∈ w.handles.map Handle.written := List.mem_map_of_mem member
    rw [handles] at here
    exact List.mem_singleton.mp here
  obtain ⟨clean, stored, idle⟩ := closed_is_durable pairVolume_clean closingOps done separate flushed
  refine ⟨w, done, by simpa using congrArg List.length handles, ?_, ?_, clean, idle⟩
  · rw [← stored .data 101 fun j a member _ => only j a member]
    exact first
  · rw [← stored .data 103 fun j a member _ => only j a member]
    exact second

end World

end ExFatSlim
