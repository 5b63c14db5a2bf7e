import ExFatSlim.DirectoryRuns
import ExFatSlim.Marking
import ExFatSlim.NameLookup

namespace ExFatSlim

variable {size n : Nat} {home : Nat → CacheKind}

theorem Fat.nextClusterInFatChain_served {fs : FileSystem size n} (sound : fs.Sound home)
    (layout : Layout size home fs.setup) {c : Nat}
    (low : 2 ≤ c) (bound : (fs.volume home).fatSector c < 2 ^ 32) :
    ∃ next fs', nextClusterInFatChain c fs = (.ok next, fs') ∧ FileSystem.Served home fs fs' := by
  obtain ⟨b, fs', read, _, served, _⟩ := FileSystem.onCache_read sound .fat ((fs.volume home).fatSector c)
  have sector := (getSectorId_eq layout c).trans (u32_of_lt bound fs)
  rw [nextClusterInFatChain, Exec.bind_of_ok (Exec.assert_of (show minClusterId ≤ c from low) fs),
    Exec.bind_of_ok sector,
    Exec.bind_of_ok read]
  split
  · exact ⟨_, fs', rfl, served⟩
  · exact ⟨_, fs', rfl, served⟩

theorem Volume.next_range {v : Volume size} {c d : Nat} (follow : v.next c = some d) :
    2 ≤ d ∧ d ≤ Fat.clusterLen := by
  rw [next] at follow
  split at follow
  · rename_i range
    cases follow
    exact range
  · cases follow

namespace Allocator

open Volume

/-- The outcome of a call that has returned. -/
def Returned (r : Except (Fault ExFatError) Unit) : Prop := r = .ok () ∨ ∃ e, r = .error (.error e)

/-- A round of `free` at a cluster that is not in the heap changes nothing and is the last one. -/
theorem freeChain_stray {s : Session size n} (sound : s.fs.Sound home) (layout : Layout size home s.fs.setup)
    {c : Nat} (low : 2 ≤ c)
    (outside : ¬ (s.fs.volume home).InHeap c) (rounds : Nat) :
    ∃ r, Session.Leads home (freeChain (rounds + 1) c) s r (s.fs.volume home) ∧
      ((s.fs.volume home).fatSector c < 2 ^ 32 → Returned r) := by
  rw [freeChain]
  by_cases bound : (s.fs.volume home).fatSector c < 2 ^ 32
  · obtain ⟨next, fs', run, served⟩ := Fat.nextClusterInFatChain_served sound layout low bound
    have setup : fs'.setup = s.fs.setup := congrArg Volume.setup served.volume
    have ids := layout.ids
    have few : fs'.setup.bitmap.clusterCount ≤ 2 ^ 32 - 11 := by
      rw [setup]
      simp only [Fat.clusterLen] at ids
      omega
    have foreign : ¬ Marks size fs'.setup ⟨c, 1⟩ := by
      rw [setup]
      exact fun inside => outside ⟨low, inside.heap⟩
    have refused : markAllocated ⟨c, 1⟩ false (⟨fs', s.touched⟩ : Session size n) = _ :=
      markAllocated_refuses layout.pos few false Nat.one_ne_zero foreign
    refine ⟨.error (.error (.invalidClusterId c)), ⟨⟨fs', s.touched⟩, ?_, served.sound, served.volume⟩, fun _ =>
      Or.inr ⟨_, rfl⟩⟩
    rw [Exec.bind_of_ok (Session.onFs_of_run run), Exec.bind_of_error refused]
  · have sector : Fat.getSectorId c s.fs = (.error .panic, s.fs) := by
      rw [Fat.getSectorId_eq layout, u32, if_neg bound]
      rfl
    have stops : Fat.nextClusterInFatChain c s.fs = (.error .panic, s.fs) := by
      rw [Fat.nextClusterInFatChain, Exec.bind_of_ok (Exec.assert_of (show Fat.minClusterId ≤ c from low) s.fs),
        Exec.bind_of_error sector]
    refine ⟨.error .panic, .of_run ?_ sound rfl, fun small => absurd small bound⟩
    rw [Exec.bind_of_error (Session.onFs_of_run stops)]

/-- Whatever the FAT holds, `free` clears the bits and the entries of at most as many clusters as it has rounds. -/
theorem freeChain_clears (rounds : Nat) :
    ∀ {c : Nat} {s : Session size n}, s.fs.Sound home → Layout size home s.fs.setup → 2 ≤ c →
    ∃ r s' ds, freeChain rounds c s = (r, s') ∧ ds.length ≤ rounds ∧
      Clears home true ds (s.fs.volume home) (s'.fs.volume home) ∧
      ((∀ d, d = c ∨ d ≤ Fat.clusterLen → (s.fs.volume home).fatSector d < 2 ^ 32) → Returned r) := by
  induction rounds with
  | zero =>
    intro c s _ _ _
    exact ⟨_, s, [], rfl, le_rfl, clears_nil true rfl rfl fun _ _ => rfl, fun _ => Or.inl rfl⟩
  | succ rounds ih =>
    intro c s sound layout low
    by_cases inHeap : (s.fs.volume home).InHeap c
    · obtain ⟨s₁, sound₁, shown₁, round⟩ := freeChain_round sound layout inHeap rounds
      have freed : Freed home [c] (s.fs.volume home) (s₁.fs.volume home) := shown₁ ▸ freed_unlink layout inHeap
      have clears : Clears home true [c] (s.fs.volume home) (s₁.fs.volume home) :=
        shown₁ ▸ clears_unlink layout inHeap
      cases follow : (s.fs.volume home).next c with
      | none =>
        rw [follow] at round
        exact ⟨_, s₁, [c], round, Nat.succ_le_succ (Nat.zero_le rounds), clears, fun _ => Or.inl rfl⟩
      | some d =>
        rw [follow] at round
        obtain ⟨low', high'⟩ := next_range follow
        have setup : s₁.fs.setup = s.fs.setup := freed.setup
        obtain ⟨r, s', ds, run, few, rest, returns⟩ := ih sound₁ (setup ▸ layout) low'
        refine ⟨r, s', c :: ds, round.trans run, Nat.succ_le_succ few, clears.trans rest, fun small =>
          returns fun e known => ?_⟩
        have sector : (s₁.fs.volume home).fatSector e = (s.fs.volume home).fatSector e := by
          rw [fatSector, fatSector, clears.table]
        rw [sector]
        exact small e (Or.inr (known.elim (fun same => same ▸ high') id))
    · obtain ⟨r, ⟨s', run, _, shown⟩, returns⟩ := freeChain_stray sound layout low inHeap rounds
      have shown : s'.fs.volume home = s.fs.volume home := shown
      refine ⟨r, s', [], run, Nat.zero_le _, ?_, fun small => returns (small c (Or.inl rfl))⟩
      rw [shown]
      exact clears_nil true rfl rfl fun _ _ => rfl

end Allocator

namespace Volume

variable {v v' : Volume size} {c k : Nat} {set : EntrySet} {cs : List Nat}

/-- A file with the clusters `cs`, in order, and with its entry set in the cluster `c` of a directory. -/
structure FileAt (home : Nat → CacheKind) (v : Volume size) (details : FileDetails) (cs : List Nat) (c k : Nat)
    (set : EntrySet) : Prop where
  stores : v.Stores home details cs
  at_ : v.SetAt home c k set
  location : details.location = v.slotLocation c k
  secondaryCount : details.secondaryCount = (FileDirEntry.ofRaw set.fileDir).secondaryCount

/-- The clusters of a file are free, none of the entries of its set is in use, and no entry
outside of the set has changed. -/
structure Removed (home : Nat → CacheKind) (linked : Bool) (cs : List Nat) (v v' : Volume size) (c k : Nat)
    (set : EntrySet) : Prop
    extends Clears home linked cs v v' where
  unused : ∀ j < set.raws.length, ¬ InUse (v'.entryAt (v.slotLocation c (k + j)))
  others : ∀ place, home place.sectorId = .data → (∀ j < set.raws.length, place ≠ v.slotLocation c (k + j)) →
    v'.entryAt place = v.entryAt place

/-- The entries of the set marked unused once its clusters are free. -/
theorem SetAt.removed (at_ : v.SetAt home c k set) (freed : Freed home cs v v') {linked : Bool}
    (clears : Clears home linked cs v v') :
    Removed home linked cs v (putEntries c k (set.raws.map cleared) v') c k set := by
  have inside := at_.inside
  have cell := at_.cell
  have place := slotLocation_of_setup freed.setup c
  have edited : Edited home v' (putEntries c k (set.raws.map cleared) v') := by
    refine putEntries_edited _ fun j below => ?_
    rw [List.length_map] at below
    rw [place]
    exact cell.home_eq (by omega)
  have after := clears.trans (edited.clears linked)
  rw [List.append_nil] at after
  refine ⟨after, fun j below => ?_, fun spot here outside => ?_⟩
  · have read := entryAt_putEntries cell.room (set.raws.map cleared) (c := c) (k := k) (j := k + j) (v := v')
    rw [place, if_pos (Nat.le_add_right k j), Nat.add_sub_cancel_left, List.getElem?_map,
      List.getElem?_eq_getElem below] at read
    rw [read]
    exact (set.unused_cleared (List.getElem_mem below)).1
  · rw [entryAt_putEntries_ne _ fun j below => by rw [place]; exact outside j (by simpa using below)]
    exact entryAt_of_data freed.data here

end Volume

namespace FileSystem

open Volume

variable {fs fs' : FileSystem size n} {fuel : Nat} {details : FileDetails} {cs : List Nat} {c k : Nat}
  {set : EntrySet}

/-- `delete_inner` of a file without children. -/
theorem deleteInner_removes (sound : fs.Sound home) (file : (fs.volume home).FileAt home details cs c k set)
    (childless : confirmHasNoChildren fuel details fs = (.ok (), fs')) :
    ∃ fs'', deleteInner fuel details fs = (.ok (), fs'') ∧ fs''.Sound home ∧
      Removed home (!details.flags.noFatChain) cs (fs.volume home) (fs''.volume home) c k set := by
  obtain ⟨stores, at_, location, count⟩ := file
  have layout := at_.cell.layout
  have looks : Looks home fs _ := confirmHasNoChildren_looks fuel details fs
  rw [childless] at looks
  obtain ⟨sound₁, volume₁, _⟩ := looks.served sound
  have setup₁ : fs'.setup = fs.setup := congrArg Volume.setup volume₁
  rw [← volume₁] at stores
  obtain ⟨s₂, run₂, sound₂, shown₂⟩ :=
    Session.leads_onFs (s := ⟨fs', .new⟩) (getStoredChain_leads sound₁ (setup₁ ▸ layout) stores)
  have shown₂ : s₂.fs.volume home = fs'.volume home := shown₂
  have setup₂ : s₂.fs.setup = fs.setup := (congrArg Volume.setup shown₂).trans setup₁
  rw [← shown₂] at stores
  obtain ⟨v, ⟨s₃, run₃, sound₃, shown₃⟩, freed, clears⟩ := Allocator.free_leads sound₂ (setup₂ ▸ layout) stores
  have shown₃ : s₃.fs.volume home = v := shown₃
  rw [shown₂, volume₁, ← shown₃] at freed clears
  -- the entries are marked after the clusters are freed
  have at₃ := at_.of_data freed.setup freed.data
  have inside := at₃.inside
  have length : set.raws.length = details.secondaryCount + 1 := by
    have total := set.length_raws
    have secondary := set.secondaryCount
    omega
  have place : Session.settled size details.location = (s₃.fs.volume home).slotLocation c k := by
    rw [location, ← slotLocation_of_setup freed.setup]
    exact Session.settled_slotLocation at₃.cell k
  obtain ⟨s₄, run₄, sound₄, shown₄⟩ :=
    Session.markEntriesUnused_leads (details.secondaryCount + 1) sound₃ at₃.cell (by omega) place
  have shown₄ : s₄.fs.volume home = putEntries c k (set.raws.map cleared) (s₃.fs.volume home) := by
    rw [← length, at₃.entries] at shown₄
    exact shown₄
  obtain ⟨fs'', run₅, served, _⟩ := Session.flush_spec sound₄
  refine ⟨fs'', ?_, served.sound, ?_⟩
  · have rest : (do
        let chain ← Session.onFs (getStoredChain details)
        Allocator.free chain
        Session.markDirectoryEntrySetUnused details.location (details.secondaryCount + 1)
        Session.flush : ExFat (Session size n) Unit) ⟨fs', .new⟩ = (.ok (), ⟨fs'', .new⟩) := by
      rw [Exec.bind_of_ok run₂, Exec.bind_of_ok run₃]
      exact (Exec.bind_of_ok run₄).trans run₅
    rw [deleteInner, Exec.bind_of_ok childless]
    exact congrArg (fun p => (p.1, p.2.fs)) rest
  · rw [served.volume, shown₄]
    exact at_.removed freed clears

/-- What a truncating `open` of a file that is there comes from. -/
theorem openDetails_truncates {path : List Char} {options : OpenOptions} {details' : FileDetails}
    {fs₁ fs₂ : FileSystem size n}
    (found : findFileInner fuel path (some attrArchive) fs = (.ok details, fs₁)) (truncate : options.truncate = true)
    (run : openDetails fuel path options fs = (.ok details', fs₂)) :
    truncateFile details 0 fs₁ = (.ok details', fs₂) := by
  rw [openDetails_found found] at run
  dsimp only at run
  rw [truncate] at run
  split at run
  · cases run
  · exact run

section Calls

variable {path : List Char} (sound : fs.Sound home) (file : (fs.volume home).FileAt home details cs c k set)
  (found : (findFileInner fuel path (some attrArchive) fs).1 = .ok details)

include sound file found

/-- What a successful `remove_file` has done. -/
theorem removeFile_removes (run : removeFile fuel path fs = (.ok (), fs')) :
    Removed home (!details.flags.noFatChain) cs (fs.volume home) (fs'.volume home) c k set := by
  have layout := file.at_.cell.layout
  have looks : Looks home fs _ := findFileInner_looks fuel path (some attrArchive) fs
  obtain ⟨sound₁, volume₁, _⟩ := looks.served sound
  rw [removeFile, Exec.bind_of_ok (mount_of_mounted layout.mounted), Exec.bind_of_ok (Exec.run_of_fst found)] at run
  obtain ⟨⟨⟩, fs₂, childless, _⟩ := Exec.bind_eq_ok.mp run
  rw [← volume₁] at file ⊢
  obtain ⟨fs₃, run', _, removed⟩ := deleteInner_removes sound₁ file childless
  cases run.symm.trans run'
  exact removed

/-- What a successful `open` with `truncate` has done. -/
theorem open_truncates {options : OpenOptions} {handle : File} (truncate : options.truncate = true)
    (run : «open» fuel path options fs = (.ok handle, fs')) :
    Clears home (!details.flags.noFatChain) cs (fs.volume home) (fs'.volume home) ∧
      ∃ set', Updated home (fs.volume home) (fs'.volume home) c k set set'
        { StreamExtensionDirEntry.ofRaw set.stream with
        dataLength := 0
        validDataLength := 0
        firstCluster := noClusterId } := by
  have layout := file.at_.cell.layout
  have looks : Looks home fs _ := findFileInner_looks fuel path (some attrArchive) fs
  obtain ⟨sound₁, volume₁, _⟩ := looks.served sound
  rw [«open», Exec.bind_of_ok (mount_of_mounted layout.mounted)] at run
  obtain ⟨details', fs₂, opens, rest⟩ := Exec.bind_eq_ok.mp run
  have truncates := openDetails_truncates (Exec.run_of_fst found) truncate opens
  rw [← volume₁] at file ⊢
  obtain ⟨fs₃, set', run', _, updated, clears⟩ :=
    truncateFile_updates sound₁ file.at_ file.location file.secondaryCount file.stores
  cases truncates.symm.trans run'
  have opened : openWith details.truncated options fs₂ = (.ok handle, fs') := rest
  obtain ⟨_, rfl⟩ := openWith_empty rfl opened
  exact ⟨clears, set', updated⟩

end Calls

/-- A successful `remove_file` or truncating `open` of a file frees its clusters and nothing
else: their bits are cleared, their FAT entries are zeroed if they are linked there, and of the
directory entries only those of its own set change. `free` of a chain in the FAT clears at most
as many bits as the chain is said to have clusters, whatever the FAT holds. -/
theorem frees_exactly (sound : fs.Sound home) (layout : Layout size home fs.setup) :
    (∀ (fuel : Nat) (path : List Char) (details : FileDetails) (cs : List Nat) (c k : Nat) (set : EntrySet),
      (findFileInner fuel path (some attrArchive) fs).1 = .ok details →
        (fs.volume home).FileAt home details cs c k set →
      (∀ fs', removeFile fuel path fs = (.ok (), fs') →
        Removed home (!details.flags.noFatChain) cs (fs.volume home) (fs'.volume home) c k set) ∧
      ∀ (options : OpenOptions) (handle : File) fs', options.truncate = true → «open» fuel path options fs =
        (.ok handle, fs') →
        Clears home (!details.flags.noFatChain) cs (fs.volume home) (fs'.volume home) ∧
          ∃ set', Updated home (fs.volume home) (fs'.volume home) c k set set'
            { StreamExtensionDirEntry.ofRaw set.stream with
            dataLength := 0
            validDataLength := 0
            firstCluster := noClusterId }) ∧
    ∀ (touched : FileDirty) (first last count : Nat), 2 ≤ first → ∃ r s' ds,
      Allocator.free (.fat first last count) ⟨fs, touched⟩ = (r, s') ∧ ds.length ≤ count ∧
      Clears home true ds (fs.volume home) (s'.fs.volume home) ∧
      ((∀ d, d = first ∨ d ≤ Fat.clusterLen → (fs.volume home).fatSector d < 2 ^ 32) → Allocator.Returned r) := by
  refine ⟨fun fuel path details cs c k set found file =>
    ⟨fun fs' run => ?_, fun options handle fs' truncate run => ?_⟩,
    fun touched first last count low => ?_⟩
  · exact removeFile_removes sound file found run
  · exact open_truncates sound file found truncate run
  · exact Allocator.freeChain_clears count (s := ⟨fs, touched⟩) sound layout low

open File DirectoryEntryChain

theorem letteredVolume_layout : Layout 512 smallHome letteredVolume.setup :=
  smallVolume_layout.of_same rfl rfl rfl rfl

theorem letteredSet_at : (letteredVolume.volume smallHome).SetAt smallHome 2 4 storedSet where
  cell := ⟨by decide, letteredVolume_layout, ⟨by decide, by decide⟩, storedVolume_data 2, by decide⟩
  inside := by decide +kernel
  entries := by decide +kernel

theorem letteredSet_stores :
    (letteredVolume.volume smallHome).Stores smallHome (storedSet.details ⟨100, 4⟩) [3, 4] where
  count := storedSet_stores.count
  valid := storedSet_stores.valid
  first := storedSet_stores.first
  contiguous := storedSet_stores.contiguous
  linked flag := by
    have contiguous : (storedSet.details ⟨100, 4⟩).flags.noFatChain = true := by decide +kernel
    rw [contiguous] at flag
    cases flag
  distinct := storedSet_stores.distinct
  inHeap := storedSet_stores.inHeap
  used c member := by
    unfold Volume.IsFree
    rcases List.mem_pair.mp member with rfl | rfl <;> decide +kernel
  data c _ := storedVolume_data c

theorem frees_exactly_lettered :
    (∃ fs', removeFile 40 ['f'] letteredVolume = (.ok (), fs') ∧
      Removed smallHome false [3, 4] (letteredVolume.volume smallHome) (fs'.volume smallHome) 2 4 storedSet) ∧
    (∃ file fs', «open» 40 ['f'] { write := true, truncate := true } letteredVolume = (.ok file, fs') ∧
      Clears smallHome false [3, 4] (letteredVolume.volume smallHome) (fs'.volume smallHome)) ∧
    ∃ r s' ds, Allocator.free (.fat 3 5 2) ⟨letteredVolume, .new⟩ = (r, s') ∧ ds.length ≤ 2 ∧
      Clears smallHome true ds (letteredVolume.volume smallHome) (s'.fs.volume smallHome) := by
  have sound : letteredVolume.Sound smallHome := sound_of_new _ rfl fun k => by cases k <;> rfl
  obtain ⟨file_, chain⟩ := frees_exactly sound letteredVolume_layout
  have found : (findFileInner 40 ['f'] (some attrArchive) letteredVolume).1 = .ok (storedSet.details ⟨100, 4⟩) := by
    decide +kernel
  have flags : (storedSet.details ⟨100, 4⟩).flags.noFatChain = true := by decide +kernel
  obtain ⟨removes, truncates⟩ := file_ 40 ['f'] _ _ 2 4 storedSet found ⟨letteredSet_stores, letteredSet_at, rfl, rfl⟩
  rw [flags] at removes truncates
  refine ⟨?_, ?_, ?_⟩
  · have run : (removeFile 40 ['f'] letteredVolume).1 = .ok () := by decide +kernel
    have run := Exec.run_of_fst run
    exact ⟨_, run, removes _ run⟩
  · have run : ∃ file, («open» 40 ['f'] { write := true, truncate := true } letteredVolume).1 = .ok file := by
      have isOk : («open» 40 ['f'] { write := true, truncate := true } letteredVolume).1.isOk = true := by
        decide +kernel
      cases outcome : («open» 40 ['f'] { write := true, truncate := true } letteredVolume).1 with
      | ok file => exact ⟨file, rfl⟩
      | error e =>
        rw [outcome] at isOk
        cases isOk
    obtain ⟨file, run⟩ := run
    have run := Exec.run_of_fst run
    exact ⟨file, _, run, (truncates _ file _ rfl run).1⟩
  · obtain ⟨r, s', ds, run, few, clears, _⟩ := chain .new 3 5 2 (by decide)
    exact ⟨r, s', ds, run, few, clears⟩

end FileSystem

end ExFatSlim
