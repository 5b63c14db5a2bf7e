import ExFatSlim.HandleRuns
import ExFatSlim.Raising

namespace ExFatSlim

namespace FileSession

open File

variable {size n : Nat} {home : Nat → CacheKind} {s s' : FileSession size n} {cs : List Nat} {c : Nat}

/-- A handle of a well-formed file, wherever it is. -/
structure Formed (home : Nat → CacheKind) (cs : List Nat) (s : FileSession size n) :
    Prop extends Holds home cs s where
  clusters : cs.length = FileSystem.divCeil s.file.details.dataLength s.fs.fs.clusterLength
  valid : s.file.details.validDataLength ≤ s.file.details.dataLength

/-- The handle is where it was. -/
def SamePlace (s s' : FileSession size n) : Prop :=
  s'.file.cursor = s.file.cursor ∧ s'.file.currentCluster = s.file.currentCluster ∧
    s'.file.remainingBytesInCluster = s.file.remainingBytesInCluster

/-- A seek within the valid data succeeds, and one that fails leaves the handle where it was. -/
def SeeksSafely (c : Nat) (s : FileSession size n) : Prop :=
  (c ≤ s.file.details.validDataLength → ∃ s', File.seek c s = (.ok (), s')) ∧
    ∀ e s', File.seek c s = (.error e, s') → SamePlace s s'

/-- The offset right after the last cluster of a chain that is stored in the FAT. -/
def AtFatEnd (c : Nat) (s : FileSession size n) : Prop :=
  ∃ first last clusterCount, s.file.chain = .fat first last clusterCount ∧ c = clusterCount * s.fs.fs.clusterLength

theorem seek_far (mounted : s.fs.isMounted = true) (far : s.file.details.validDataLength < c) :
    File.seek c s = (.error (.error .seekOutOfRange), s) := by
  rw [File.seek, Exec.bind_of_ok (mount_run mounted), Exec.bind_of_ok (Exec.get_apply s), if_pos far]
  rfl

/-- A chain in the FAT has no cluster for its very end. -/
theorem Holds.walkFat (holds : Holds home cs s) {first last clusterCount : Nat}
    (chain : s.file.chain = .fat first last clusterCount)
    (k : Nat) : FileSession.Leads home (onFs (FileSystem.walkFat k first)) s
      (match cs[k]? with
        | some d => .ok d
        | none => .error (.error .endOfFatChain)) (s.fs.volume home, s.file.bare) := by
  have threads := holds.owns.threads (holds.owns.stored first last clusterCount chain)
  have lists := holds.owns.lists
  rw [chain] at lists
  have head : cs[0]? = some first := by rw [← List.head?_eq_getElem?, lists.1]
  have walked :=
    leads_onFs (s := s) (FileSystem.walkFat_leads k holds.sound holds.layout threads holds.owns.inHeap head)
  rwa [Nat.zero_add] at walked

theorem Formed.fits (formed : Formed home cs s) : s.file.details.dataLength ≤ cs.length * s.fs.fs.clusterLength := by
  rw [formed.clusters]
  exact le_divCeil_mul formed.toHolds.clusterLength.2.1 _

theorem Formed.seek_near (formed : Formed home cs s) (near : c ≤ s.file.details.validDataLength) :
    (∃ s', File.seek c s = (.ok (), s')) ↔ ¬ AtFatEnd c s := by
  obtain ⟨_, pos, _⟩ := formed.toHolds.clusterLength
  have reach : c ≤ cs.length * s.fs.fs.clusterLength := near.trans (formed.valid.trans formed.fits)
  have index : c / s.fs.fs.clusterLength ≤ cs.length := Nat.div_le_of_le_mul (by rwa [Nat.mul_comm])
  have lists := formed.owns.lists
  rw [seek_eq formed.layout.mounted near]
  cases chain : s.file.chain with
  | empty =>
    refine iff_of_true ⟨_, rfl⟩ ?_
    rintro ⟨_, _, _, other, _⟩
    rw [chain] at other
    cases other
  | contiguous first clusterCount =>
    have bound :=
      formed.toHolds.bound (show Allocator.hintOf s.file.chain = some (first + clusterCount) by rw [chain]; rfl)
    rw [chain] at lists
    have length : cs.length = clusterCount := by rw [lists.2, List.length_range']
    refine iff_of_true ⟨_, (Exec.bind_of_ok (u32_of_lt ?_ _)).trans ((Exec.bind_of_ok (modifyFile_apply _ _)).trans
      (updateRemainingBytesInCluster_run pos))⟩ ?_
    · rw [Nat.mod_eq_of_lt (by omega)]
      omega
    · rintro ⟨_, _, _, other, _⟩
      rw [chain] at other
      cases other
  | fat first last clusterCount =>
    rw [chain] at lists
    have few := length_le_heap formed.owns.distinct formed.owns.inHeap
    have ids := formed.layout.ids
    simp only [Fat.clusterLen, FileSystem.volume_setup] at ids few
    have sent : Holds home cs ⟨s.fs, { s.file with cursor := c }⟩ :=
      formed.toHolds.rewritten formed.sound (.refl _) rfl rfl
    obtain ⟨s₁, run₁, sound₁, shown₁⟩ := sent.walkFat chain (c / s.fs.fs.clusterLength)
    obtain ⟨volume₁, file₁⟩ := Prod.mk.inj shown₁
    rw [Nat.mod_eq_of_lt (by omega)]
    by_cases final : c = clusterCount * s.fs.fs.clusterLength
    · refine iff_of_false ?_ fun safe => safe ⟨first, last, clusterCount, chain, final⟩
      rintro ⟨s', run⟩
      have past : cs[c / s.fs.fs.clusterLength]? = none := by
        rw [final, Nat.mul_div_cancel _ pos, ← lists.2.2]
        exact List.getElem?_eq_none le_rfl
      rw [past] at run₁
      cases (Exec.bind_of_error run₁).symm.trans run
    · have inside : c / s.fs.fs.clusterLength < cs.length := by
        rw [Nat.div_lt_iff_lt_mul pos]
        rw [lists.2.2] at reach ⊢
        omega
      rw [List.getElem?_eq_getElem inside] at run₁
      have length₁ : s₁.fs.fs.clusterLength = s.fs.fs.clusterLength :=
        congrArg (fun v : Volume size => v.setup.details.clusterLength) volume₁
      have pos₁ : 0 < s₁.fs.fs.clusterLength := length₁ ▸ pos
      refine iff_of_true ⟨_, (Exec.bind_of_ok run₁).trans ((Exec.bind_of_ok (modifyFile_apply _ _)).trans
        (updateRemainingBytesInCluster_run pos₁))⟩ ?_
      rintro ⟨_, _, _, other, equal⟩
      rw [chain] at other
      cases other
      exact final equal

/-- A seek is safe unless it is to the very end of a chain in the FAT that has no room left. -/
theorem seeks_safely_iff (formed : Formed home cs s) (c : Nat) :
    SeeksSafely c s ↔ ¬ (c ≤ s.file.details.validDataLength ∧ AtFatEnd c s) := by
  by_cases near : c ≤ s.file.details.validDataLength
  · constructor
    · rintro ⟨succeeds, _⟩ ⟨_, final⟩
      exact (formed.seek_near near).mp (succeeds near) final
    · intro safe
      obtain ⟨s₁, run₁⟩ := (formed.seek_near near).mpr fun final => safe ⟨near, final⟩
      refine ⟨fun _ => ⟨s₁, run₁⟩, fun e s' run => ?_⟩
      rw [run₁] at run
      cases run
  · refine iff_of_true ⟨fun inside => absurd inside near, fun e s' run => ?_⟩ fun both => near both.1
    rw [seek_far formed.layout.mounted (Nat.lt_of_not_le near)] at run
    cases run
    exact ⟨rfl, rfl, rfl⟩

open FileSystem

theorem formed_of_opened {fs : FileSystem size n} (fit : fs.Fit home) {details : FileDetails}
    (stores : (fs.volume home).Stores home details cs) (options : OpenOptions) :
    Formed home cs ⟨fs, opened details cs fs.fs.clusterLength options⟩ :=
  ⟨(fit.kept stores options).toHolds, stores.count, stores.valid⟩

/-- The handle of `f` on the volume of two files. -/
def pairHandle : FileSession 512 1 := ⟨pairVolume, opened pairDetails [3, 4] 512 pairOptions⟩

theorem seeks_safely_iff_pair : SeeksSafely 1024 pairHandle := by
  have formed : Formed smallHome [3, 4] pairHandle := formed_of_opened pairVolume_fit pairVolume_stores pairOptions
  refine (seeks_safely_iff formed 1024).mpr ?_
  rintro ⟨_, _, _, _, other, _⟩
  cases other

/-- A volume with a file `f` whose clusters 3 and 5 are linked in the FAT. -/
def linkedVolume : FileSystem 512 1 :=
  { smallVolume with
    dev := ⟨fun s =>
      if s = 10 then fun i => if i.val = 0 then 11 else 0
      else if s = 20 then fun i => if i.val = 12 then 5 else if 20 ≤ i.val ∧ i.val < 24 then 255 else 0
      else fun _ => 0, [], []⟩ }

def linkedDetails : FileDetails := { pairDetails with flags := { allocationPossible := true, noFatChain := false } }

theorem linkedVolume_fit : linkedVolume.Fit smallHome where
  sound := FileSystem.sound_of_new _ rfl fun k => by cases k <;> rfl
  layout := smallVolume_layout.of_same rfl rfl rfl rfl
  search := le_rfl
  room c _ _ := pairVolume_data c

theorem linkedDetails_stores : (linkedVolume.volume smallHome).Stores smallHome linkedDetails [3, 5] where
  count := by decide
  valid := le_rfl
  first c head := (Option.some.inj head).symm
  contiguous flag := by cases flag
  linked _ := by
    refine ⟨?_, fun c final => ?_⟩
    · exact .cons_cons (by decide +kernel) (.singleton _)
    · cases final
      decide +kernel
  distinct := by decide
  inHeap c member := by
    rcases List.mem_pair.mp member with rfl | rfl <;> exact ⟨by decide, by decide⟩
  used c member := by
    unfold Volume.IsFree
    rcases List.mem_pair.mp member with rfl | rfl <;> decide +kernel
  data c _ := pairVolume_data c

def linkedHandle : FileSession 512 1 := ⟨linkedVolume, opened linkedDetails [3, 5] 512 pairOptions⟩

/-- A seek to the end of a file that fills its last cluster fails, with the cursor moved and the cluster not. -/
theorem seek_to_fat_end_fails :
    Formed smallHome [3, 5] linkedHandle ∧ 1024 ≤ linkedHandle.file.details.validDataLength ∧
    (File.seek 1024 linkedHandle).1 = .error (.error .endOfFatChain) ∧ linkedHandle.file.cursor = 0 ∧
    (File.seek 1024 linkedHandle).2.file.cursor = 1024 ∧ (File.seek 1024 linkedHandle).2.file.currentCluster = 3 ∧
    ¬ SeeksSafely 1024 linkedHandle := by
  have fails : (File.seek 1024 linkedHandle).1 = .error (.error .endOfFatChain) := by decide +kernel
  refine ⟨formed_of_opened linkedVolume_fit linkedDetails_stores pairOptions, le_rfl, fails, rfl, by decide +kernel,
    by decide +kernel, ?_⟩
  rintro ⟨succeeds, _⟩
  obtain ⟨s', run⟩ := succeeds le_rfl
  rw [run] at fails
  cases fails

/-- The bitmap, the FAT, the chain of the handle, its lengths and its cursor are as they were. -/
structure Unchanged (home : Nat → CacheKind) (s s' : FileSession size n) : Prop where
  free : ∀ c, (s.fs.volume home).InHeap c → ((s'.fs.volume home).IsFree c ↔ (s.fs.volume home).IsFree c)
  entries : ∀ c, (s.fs.volume home).InHeap c → (s'.fs.volume home).fatEntry c = (s.fs.volume home).fatEntry c
  chain : s'.file.chain = s.file.chain
  details : s'.file.details = s.file.details
  cursor : s'.file.cursor = s.file.cursor

/-- A write that finds the disk full changes nothing. -/
def FailsCleanly (home : Nat → CacheKind) (buf : List UInt8) (s : FileSession size n) : Prop :=
  ∀ s', File.write buf s = (.error (.error .diskFull), s') → Unchanged home s s'

theorem card_freeClusters_eq_zero {v : Volume size} : v.freeClusters.card = 0 ↔ ∀ c, v.InHeap c → ¬ v.IsFree c := by
  rw [Finset.card_eq_zero, Finset.eq_empty_iff_forall_notMem]
  simp only [Volume.mem_freeClusters, not_and]

/-- An allocation that starts with a full disk does nothing. -/
theorem Holds.allocateRuns_full (holds : Holds home cs s)
    (none_ : ∀ c, (s.fs.volume home).InHeap c → ¬ (s.fs.volume home).IsFree c)
    {count : Nat} (wanted : 0 < count) (rounds : Nat) :
    ∃ s', allocateRuns (rounds + 1) count s = (.error (.error .diskFull), s') ∧ Unchanged home s s' := by
  rcases holds.allocate wanted with ⟨run, s₁, s₂, _, _, _, extended, _, pos, _⟩ | ⟨s₁, run₁, _, volume₁, file₁, _⟩
  · obtain ⟨inHeap, free⟩ := extended.wasFree run.firstCluster (AllocatedRun.mem_clusters.mpr ⟨le_rfl, by omega⟩)
    exact absurd free (none_ _ inHeap)
  · have file := eq_of_bare file₁
    refine ⟨s₁, ?_, fun c _ => by rw [volume₁], fun c _ => by rw [volume₁], by rw [file]; rfl, by rw [file]; rfl,
      by rw [file]; rfl⟩
    rw [allocateRuns, Exec.bind_of_ok (Exec.get_apply s), Exec.bind_of_error run₁]

/-- The clusters that were added were free. -/
theorem Grew.length_le {added : List Nat} {count : Nat} {r : Except (Fault ExFatError) Unit}
    (grew : Grew home cs added count s r s') :
    added.length ≤ (s.fs.volume home).freeClusters.card := by
  have distinct : added.Nodup := (List.nodup_append.mp grew.holds.owns.distinct).2.1
  rw [← List.toFinset_card_of_nodup distinct]
  refine Finset.card_le_card fun c member => ?_
  exact Volume.mem_freeClusters.mpr (grew.volume.wasFree c (List.mem_toFinset.mp member))

/-- The rest of a write, once the clusters are there, does not find the disk full. -/
theorem write_rest (buf : List UInt8) (s : FileSession size n) :
    ((updateDataLength buf.length >>= fun _ => writeBytes buf : ExFat _ Unit) s).1 ≠ .error (.error .diskFull) := by
  have errors : AccessErrors (· ≠ ExFatError.diskFull) := ⟨by simp, by simp, by simp, by simp⟩
  have raises : Exec.Raises (· ≠ ExFatError.diskFull) (updateDataLength buf.length >>= fun _ => writeBytes buf :
      ExFat (FileSession size n) Unit) :=
    .bind (.bind .get fun _ => .bind (u64_raises _) fun _ => .modify _) fun _ => writeBytes_raises errors buf
  exact raises.ne_of_not (by simp) s

/-- A write leaves everything as it was on a full disk exactly if there is no free cluster at
all, unless there are enough of them or it does not come to look for them. -/
theorem fails_cleanly_iff (sized : Sized home cs s) {buf : List UInt8} (fits : (HandleOp.write buf).Fits s) :
    FailsCleanly home buf s ↔ buf = [] ∨ s.file.openOptions.write = false ∨ 2 ^ 64 ≤ s.file.cursor + buf.length ∨
      (s.fs.volume home).freeClusters.card = 0 ∨
      FileSystem.divCeil (s.file.cursor + buf.length) s.fs.fs.clusterLength ≤
        FileSystem.divCeil s.file.details.dataLength s.fs.fs.clusterLength +
          (s.fs.volume home).freeClusters.card := by
  by_cases nonempty : buf = []
  · subst nonempty
    refine iff_of_true (fun s' run => ?_) (Or.inl rfl)
    cases run
  by_cases enabled : s.file.openOptions.write = true
  swap
  · rw [Bool.not_eq_true] at enabled
    refine iff_of_true (fun s' run => ?_) (Or.inr (Or.inl enabled))
    rw [write_refused sized.layout.mounted enabled nonempty] at run
    cases run
  obtain ⟨_, pos, _⟩ := sized.toHolds.clusterLength
  have bound : s.capacity < 2 ^ 64 := lt_of_le_of_lt (Nat.mul_le_mul_right _ sized.clusters) sized.toHolds.capacity
  by_cases small : s.file.cursor + buf.length < 2 ^ 64
  swap
  · refine iff_of_true (fun s' run => ?_) (Or.inr (Or.inr (Or.inl (Nat.le_of_not_lt small))))
    rw [write_overflows sized.layout.mounted enabled nonempty bound (Nat.le_of_not_lt small)] at run
    cases run
  rw [FailsCleanly, write_eq sized.layout.mounted enabled nonempty bound small]
  simp only [nonempty, enabled, Bool.true_eq_false, Nat.not_le.mpr small, false_or]
  have cursor := sized.cursor
  have inside : s.file.details.dataLength ≤ s.capacity := le_divCeil_mul pos _
  have missing : FileSystem.divCeil (s.file.cursor + buf.length - s.capacity) s.fs.fs.clusterLength =
      FileSystem.divCeil (s.file.cursor + buf.length) s.fs.fs.clusterLength -
        FileSystem.divCeil s.file.details.dataLength s.fs.fs.clusterLength := divCeil_sub_mul pos _ _
  -- what comes after the clusters does not fail like this
  have settled : ∀ {s₁ : FileSession size n}, reserve buf.length s = (.ok (), s₁) → ∀ s',
      (reserve buf.length >>= fun _ => updateDataLength buf.length >>= fun _ => writeBytes buf : ExFat _ Unit) s =
        (.error (.error .diskFull), s') → Unchanged home s s' := by
    intro s₁ run₁ s' run
    rw [Exec.bind_of_ok run₁] at run
    exact absurd (congrArg Prod.fst run) (write_rest buf s₁)
  by_cases more : s.capacity < s.file.cursor + buf.length
  swap
  · refine iff_of_true (settled (reserve_of_le (Nat.le_of_not_lt more))) (Or.inr ?_)
    rw [divCeil_le pos, Nat.add_mul]
    exact (Nat.le_of_not_lt more).trans (Nat.le_add_right _ _)
  have wanted : 0 < FileSystem.divCeil (s.file.cursor + buf.length - s.capacity) s.fs.fs.clusterLength := by
    rw [Nat.pos_iff_ne_zero]
    intro none_
    have reach := (divCeil_le (c := 0) pos).mp none_.le
    omega
  have fewer : FileSystem.divCeil (s.file.cursor + buf.length - s.capacity) s.fs.fs.clusterLength ≤
      FileSystem.divCeil buf.length s.fs.fs.clusterLength := Nat.div_le_div_right (by omega)
  have addressable : buf.length < 2 ^ s.fs.usizeBits := fits.1
  have few : FileSystem.divCeil buf.length s.fs.fs.clusterLength < 2 ^ 32 := fits.2
  have opened : reserve buf.length s = allocateRuns
      (FileSystem.divCeil (s.file.cursor + buf.length - s.capacity) s.fs.fs.clusterLength + 1)
      (FileSystem.divCeil (s.file.cursor + buf.length - s.capacity) s.fs.fs.clusterLength) s := by
    rw [reserve_of_lt more, Nat.mod_eq_of_lt (by omega), allocateClustersFor, Exec.bind_of_ok (Exec.get_apply s),
      Nat.mod_eq_of_lt (by omega)]
  by_cases full : (s.fs.volume home).freeClusters.card = 0
  · obtain ⟨s₁, run₁, same⟩ := sized.toHolds.allocateRuns_full (card_freeClusters_eq_zero.mp full) wanted _
    refine iff_of_true (fun s' run => ?_) (Or.inl full)
    rw [Exec.bind_of_error (opened.trans run₁)] at run
    cases run
    exact same
  obtain ⟨r, s₁, added, run₁, grew⟩ := allocateRuns_spec
    (FileSystem.divCeil (s.file.cursor + buf.length - s.capacity) s.fs.fs.clusterLength + 1) sized.toHolds wanted
      (Nat.le_succ _)
  have granted := grew.length_le
  rcases grew.outcome with ⟨rfl, all⟩ | ⟨rfl, short, none_⟩
  · exact iff_of_true (settled (opened.trans run₁)) (Or.inr (by omega))
  · refine iff_of_false (fun clean => ?_) ?_
    · obtain ⟨c, member⟩ := Finset.card_pos.mp (Nat.pos_of_ne_zero full)
      obtain ⟨inHeap, free⟩ := Volume.mem_freeClusters.mp member
      have same := clean s₁ (Exec.bind_of_error (opened.trans run₁))
      exact none_ c (grew.volume.inHeap.mpr inHeap) ((same.free c inHeap).mpr free)
    · have all := grew.volume.full none_
      rintro (none_ | enough)
      · exact full none_
      · omega

/-- A volume whose clusters are all in use. -/
def fullVolume : FileSystem 512 1 :=
  { smallVolume with dev := ⟨fun s => if s = 10 then fun i => if i.val = 0 then 255 else 0 else fun _ => 0, [], []⟩ }

theorem fullVolume_sized : Sized smallHome [] (⟨fullVolume, emptyFile⟩ : FileSession 512 1) where
  sound := FileSystem.sound_of_new _ rfl fun k => by cases k <;> rfl
  layout := smallVolume_layout.of_same rfl rfl rfl rfl
  search := by decide
  room c _ _ := pairVolume_data c
  owns := owns_nil _ _
  clusters := by decide
  valid := le_rfl
  cursor := le_rfl

theorem fullVolume_full : (fullVolume.volume smallHome).freeClusters.card = 0 := by
  refine card_freeClusters_eq_zero.mpr fun c here => ?_
  have taken : ∀ d < 10, 2 ≤ d → ¬ (fullVolume.volume smallHome).IsFree d := by
    unfold Volume.IsFree
    decide +kernel
  exact taken c here.2 here.1

theorem fails_cleanly_iff_full :
    (File.write [1] (⟨fullVolume, emptyFile⟩ : FileSession 512 1)).1 = .error (.error .diskFull) ∧
      Unchanged smallHome ⟨fullVolume, emptyFile⟩
        (File.write [1] (⟨fullVolume, emptyFile⟩ : FileSession 512 1)).2 := by
  have fails : (File.write [1] (⟨fullVolume, emptyFile⟩ : FileSession 512 1)).1 = .error (.error .diskFull) := by
    decide +kernel
  have fits : (HandleOp.write [1]).Fits (⟨fullVolume, emptyFile⟩ : FileSession 512 1) := ⟨by decide, by decide⟩
  have clean := (fails_cleanly_iff fullVolume_sized fits).mpr (Or.inr (Or.inr (Or.inr (Or.inl fullVolume_full))))
  exact ⟨fails, clean _ (Exec.run_of_fst fails)⟩

/-- A volume with one free cluster, which is the first one. -/
def tightVolume : FileSystem 512 1 :=
  { smallVolume with dev := ⟨fun s => if s = 10 then fun i => if i.val = 0 then 254 else 0 else fun _ => 0, [], []⟩ }

theorem tightVolume_sized : Sized smallHome [] (⟨tightVolume, emptyFile⟩ : FileSession 512 1) where
  sound := FileSystem.sound_of_new _ rfl fun k => by cases k <;> rfl
  layout := smallVolume_layout.of_same rfl rfl rfl rfl
  search := by decide
  room c _ _ := pairVolume_data c
  owns := owns_nil _ _
  clusters := by decide
  valid := le_rfl
  cursor := le_rfl

/-- A write that needs two clusters where one is free takes it and fails. -/
theorem full_disk_keeps_cluster : Sized smallHome [] (⟨tightVolume, emptyFile⟩ : FileSession 512 1) ∧
    (File.write (List.replicate 513 7) (⟨tightVolume, emptyFile⟩ : FileSession 512 1)).1 = .error (.error .diskFull) ∧
    (tightVolume.volume smallHome).IsFree 2 ∧
    ¬ ((File.write (List.replicate 513 7) (⟨tightVolume, emptyFile⟩ : FileSession 512 1)).2.fs.volume
      smallHome).IsFree 2 ∧
    ¬ FailsCleanly smallHome (List.replicate 513 7) (⟨tightVolume, emptyFile⟩ : FileSession 512 1) := by
  have fails : (File.write (List.replicate 513 7) (⟨tightVolume, emptyFile⟩ : FileSession 512 1)).1 =
      .error (.error .diskFull) := by decide +kernel
  have free : (tightVolume.volume smallHome).IsFree 2 := by
    unfold Volume.IsFree
    decide +kernel
  have used : ¬ ((File.write (List.replicate 513 7) (⟨tightVolume, emptyFile⟩ : FileSession 512 1)).2.fs.volume
      smallHome).IsFree 2 := by
    unfold Volume.IsFree
    decide +kernel
  refine ⟨tightVolume_sized, fails, free, used, fun clean => used ?_⟩
  exact ((clean _ (Exec.run_of_fst fails)).free 2 ⟨by decide, by decide⟩).mpr free

end FileSession

end ExFatSlim
