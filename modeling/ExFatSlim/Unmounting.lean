import ExFatSlim.Durability

namespace ExFatSlim

open Exec

variable {size n : Nat} {home : Nat → CacheKind} {α : Type}

namespace FileSystem

variable {fs : FileSystem size n}

/-- Flushing the three caches, one after the other. -/
theorem flush_served (sound : fs.Sound home) :
    ∃ fs', flush fs = (.ok (), fs') ∧ Served home fs fs' ∧ ∀ k, fs'.dirty k = ∅ := by
  obtain ⟨fs₁, run₁, served₁, clean₁⟩ := onCache_flush sound .fat
  obtain ⟨fs₂, run₂, served₂, clean₂⟩ := onCache_flush served₁.sound .bitmap
  obtain ⟨fs₃, run₃, served₃, clean₃⟩ := onCache_flush served₂.sound .data
  refine ⟨fs₃, ?_, (served₁.trans served₂).trans served₃, fun k => Set.subset_eq_empty ?_ rfl⟩
  · rw [flush, bind_of_ok run₁, bind_of_ok run₂]
    exact run₃
  · cases k with
    | fat => exact clean₁ ▸ (served₃.dirty .fat).trans (served₂.dirty .fat)
    | bitmap => exact clean₂ ▸ served₃.dirty .bitmap
    | data => exact clean₃.subset

/-- What a flush leaves on the device is what the cache in charge shows. -/
theorem Sound.unmount (sound : fs.Sound home) (s : Nat) : (unmount fs).blocks s = fs.sector home s := by
  obtain ⟨fs', run, served, clean⟩ := flush_served sound
  have shown : fs'.sector home s = fs.sector home s := congrArg (fun v : Volume size => v.sectors s) served.volume
  rw [FileSystem.unmount, run, ← shown]
  refine (served.sound (home s)).coherent.view_clean rfl fun i holds => ?_
  rw [Bool.eq_false_iff]
  intro dirty
  have member : s ∈ fs'.dirty (home s) := ⟨i, holds, dirty⟩
  rw [clean] at member
  exact member

end FileSystem

namespace World

variable {w w' : World size n}

/-- An operation of a handle, whatever its outcome. -/
def useHandle (w : World size n) (h : Nat) (m : ExFat (FileSession size n) α) : World size n :=
  match w.handles[h]? with
  | some handle =>
    ⟨(m ⟨w.fs, handle.file⟩).2.fs, w.handles.set h { handle with file := (m ⟨w.fs, handle.file⟩).2.file }⟩
  | none => w

/-- The world after an operation, whatever its outcome. An `open` that fails
returns no handle, and a handle that is closed is gone. -/
def call (fuel : Nat) (w : World size n) : Op → World size n
  | .open path options =>
    match FileSystem.open fuel path options w.fs with
    | (.ok file, fs) => ⟨fs, w.handles ++ [⟨file, false⟩]⟩
    | (.error _, fs) => { w with fs }
  | .write h buf => w.useHandle h (File.write buf)
  | .seek h cursor => w.useHandle h (File.seek cursor)
  | .read h len => w.useHandle h (File.read len)
  | .flush h => w.useHandle h File.flush
  | .close h => { w.useHandle h File.close with handles := (w.useHandle h File.close).handles.eraseIdx h }
  | .createDirectory path => { w with fs := (FileSystem.createDirectory fuel path w.fs).2 }
  | .rename fromPath toPath => { w with fs := (FileSystem.rename fuel fromPath toPath w.fs).2 }
  | .copy fromPath toPath => { w with fs := (FileSystem.copy fuel fromPath toPath w.fs).2 }
  | .removeFile path => { w with fs := (FileSystem.removeFile fuel path w.fs).2 }
  | .removeDir path => { w with fs := (FileSystem.removeDir fuel path w.fs).2 }
  | .writeFile path contents => { w with fs := (FileSystem.write fuel path contents w.fs).2 }
  | .readToEnd h => w.useHandle h File.readToEnd
  | .readToString h => w.useHandle h File.readToString
  | .readFile path => { w with fs := (FileSystem.read fuel path w.fs).2 }
  | .readFileToString path => { w with fs := (FileSystem.readToString fuel path w.fs).2 }
  | .exists path => { w with fs := (FileSystem.exists fuel path w.fs).2 }
  | .readDir path => { w with fs := (FileSystem.readDir fuel path w.fs).2 }

/-- What holds between calls, also after those that fail. -/
structure Steady (home : Nat → CacheKind) (w : World size n) : Prop where
  sound : w.fs.Sound home
  atHome : ∀ h ∈ w.handles, h.file.touched.AtHome home

/-- What a call does, if every change was made through the cache in charge. -/
structure Carries (home : Nat → CacheKind) (w w' : World size n) : Prop where
  changed : ∀ k t, w.fs.Changed k t → w'.fs.Changed k t
  steady : w'.fs.AtHome home → w.Steady home → w'.Steady home

theorem carries_onFs {m : ExFat (FileSystem size n) α} (clears : FileSystem.Sustains home m) :
    Carries home w { w with fs := (m w.fs).2 } where
  changed := (clears.always w.fs).changed
  steady atHome steady := ⟨(clears.always w.fs).sound atHome steady.sound, steady.atHome⟩

theorem carries_useHandle {m : ExFat (FileSession size n) α}
    (tracks : Respects (FileSession.Tracks home) m) (h : Nat) :
    Carries home w (w.useHandle h m) := by
  rw [useHandle]
  split
  · rename_i handle found
    have tracks := tracks ⟨w.fs, handle.file⟩
    refine ⟨tracks.changed, fun atHome steady => ?_⟩
    have now := tracks.tracked atHome ⟨steady.sound, steady.atHome handle (List.mem_of_getElem? found)⟩
    refine ⟨now.sound, fun other member => ?_⟩
    rcases List.mem_or_eq_of_mem_set member with old | rfl
    · exact steady.atHome other old
    · exact now.atHome
  · exact ⟨fun _ _ => id, fun _ => id⟩

theorem carries_reads {m : ExFat (FileSession size n) α} (reads : Respects (FileSession.Reads home) m) (h : Nat) :
    Carries home w (w.useHandle h m) :=
  carries_useHandle (reads.mono fun _ _ => FileSession.Reads.tracks) h

theorem carries_open (fuel : Nat) (path : List Char) (options : OpenOptions) :
    Carries home w (w.call fuel (.open path options)) := by
  have stays : FileSystem.Stays home w.fs (FileSystem.open fuel path options w.fs).2 :=
    (FileSystem.open_sustains fuel path options).always w.fs
  rw [call]
  split
  · rename_i file fs' run
    rw [run] at stays
    refine ⟨stays.changed, fun atHome steady => ⟨stays.sound atHome steady.sound, fun h member => ?_⟩⟩
    rcases List.mem_append.mp member with old | new
    · exact steady.atHome h old
    · cases List.mem_singleton.mp new
      rw [FileSystem.open_touched run]
      exact FileDirty.atHome_new
  · rename_i e fs' run
    rw [run] at stays
    exact ⟨stays.changed, fun atHome steady => ⟨stays.sound atHome steady.sound, steady.atHome⟩⟩

theorem call_carries (fuel : Nat) (op : Op) : Carries home w (w.call fuel op) := by
  cases op with
  | «open» path options => exact carries_open fuel path options
  | write h buf => exact carries_useHandle (File.write_tracks buf) h
  | seek h cursor => exact carries_reads (File.seek_respects FileSession.reads_moves cursor) h
  | read h len => exact carries_reads (File.read_respects FileSession.reads_moves len) h
  | flush h => exact carries_useHandle File.flush_tracks h
  | close h =>
    have carries : Carries home w (w.useHandle h File.close) := carries_useHandle File.flush_tracks h
    exact ⟨carries.changed, fun atHome steady => ⟨(carries.steady atHome steady).sound, fun other member =>
      (carries.steady atHome steady).atHome other (List.mem_of_mem_eraseIdx member)⟩⟩
  | createDirectory path => exact carries_onFs (FileSystem.createDirectory_sustains _ _)
  | rename fromPath toPath => exact carries_onFs (FileSystem.rename_sustains _ _ _)
  | copy fromPath toPath => exact carries_onFs (FileSystem.copy_sustains _ _ _)
  | removeFile path => exact carries_onFs (FileSystem.removeFile_sustains _ _)
  | removeDir path => exact carries_onFs (FileSystem.removeDir_sustains _ _)
  | writeFile path contents => exact carries_onFs (FileSystem.write_sustains _ _ _)
  | readToEnd h => exact carries_reads (File.readToEnd_respects FileSession.reads_moves) h
  | readToString h => exact carries_reads (File.readToString_respects FileSession.reads_moves) h
  | readFile path => exact carries_onFs (FileSystem.read_sustains _ _)
  | readFileToString path => exact carries_onFs (FileSystem.readToString_sustains _ _)
  | «exists» path => exact carries_onFs (FileSystem.exists_sustains _ _)
  | readDir path => exact carries_onFs (FileSystem.readDir_sustains _ _)

/-- The world after calls, whatever their outcomes. -/
def calls (fuel : Nat) (ops : List Op) (w : World size n) : World size n := ops.foldl (call fuel) w

theorem calls_carry (fuel : Nat) (ops : List Op) : ∀ {w : World size n}, Carries home w (calls fuel ops w) := by
  induction ops with
  | nil => exact ⟨fun _ _ => id, fun _ => id⟩
  | cons op ops ih =>
    intro w
    have first : Carries home w (w.call fuel op) := call_carries fuel op
    have rest : Carries home (w.call fuel op) (calls fuel (op :: ops) w) := ih
    refine ⟨fun k t changed => rest.changed k t (first.changed k t changed), fun atHome steady => ?_⟩
    exact rest.steady atHome (first.steady (fun k t changed => atHome k t (rest.changed k t changed)) steady)

theorem steady_of_clean {fs : FileSystem size n} (clean : fs.Clean) (home : Nat → CacheKind) : Steady home ⟨fs, []⟩ :=
  ⟨clean.sound_at home, fun _ member => by cases member⟩

/-- Unmounting makes everything durable that was done before, by calls that
returned `Ok` and by calls that failed, with handles still open and not flushed:
the flush that it begins with succeeds, and a file system that is then mounted
on the device shows every sector as the only cache showed it that was asked for
it before. -/
theorem unmount_is_durable [NeZero n] {fuel : Nat} {fs : FileSystem size n} (clean : fs.Clean) (ops : List Op)
    (separate : (calls fuel ops ⟨fs, []⟩).fs.Separate) :
    let w := calls fuel ops ⟨fs, []⟩
    (FileSystem.flush w.fs).1 = .ok () ∧ ∀ k s, (∀ j, ∀ a ∈ (w.fs.cacheOf j).trace, a.sector = s → j = k) →
      ∀ usizeBits j, let later : FileSystem size n := .new (FileSystem.unmount w.fs) usizeBits
        (later.cacheOf j).view later.dev s = (w.fs.cacheOf k).view w.fs.dev s := by
  intro w
  have steady : ∀ k, w.Steady (w.fs.owner k) := by
    intro k
    have carries : Carries (w.fs.owner k) ⟨fs, []⟩ w := calls_carry fuel ops
    exact carries.steady (separate.owner_atHome k) (steady_of_clean clean _)
  refine ⟨?_, fun k s only usizeBits j => ?_⟩
  · obtain ⟨fs', run, _⟩ := FileSystem.flush_served (steady .data).sound
    rw [run]
  · have fresh : ((FileSystem.new (FileSystem.unmount w.fs) usizeBits : FileSystem size n).cacheOf j) = .new := by
      cases j <;> rfl
    have blocks := (steady k).sound.unmount s
    rw [FileSystem.sector, FileSystem.owner_eq_of_only only] at blocks
    intro later
    rw [show later.cacheOf j = .new from fresh, SlotCache.new_view]
    exact blocks

open FileSystem (pairVolume pairOptions)

/-- A write to `f` that is not flushed. -/
def pairOps : List Op := [.open ['f'] pairOptions, .write 0 [7]]

theorem pairOps_accessed : ∀ w, w = calls 40 pairOps ⟨pairVolume, []⟩ →
    accessed .fat w = [] ∧ accessed .bitmap w = [] ∧ (((w.fs.cacheOf .data).view w.fs.dev 101).byte 0) = 7 := by
  rintro w rfl
  decide +kernel

theorem unmount_is_durable_pair :
    ((FileSystem.unmount (calls 40 pairOps ⟨pairVolume, []⟩).fs).blocks 101).byte 0 = 7 := by
  obtain ⟨fat, bitmap, shown⟩ := pairOps_accessed _ rfl
  have only := only_data fat bitmap
  have durable := unmount_is_durable pairVolume_clean pairOps fun j k a memberA b memberB _ =>
    (only j a memberA).trans (only k b memberB).symm
  generalize calls 40 pairOps ⟨pairVolume, []⟩ = w at durable shown only
  have same := durable.2 .data 101 (fun j a member _ => only j a member) 64 .data
  rw [← shown, ← same]
  exact congrArg (fun b : Block 512 => b.byte 0) (SlotCache.new_view _ _).symm

end World

end ExFatSlim
