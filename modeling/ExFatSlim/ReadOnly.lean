import ExFatSlim.Tracking
import ExFatSlim.FileSystem

namespace ExFatSlim

open Exec

section

variable {σ : Type} {R : σ → σ → Prop} [Std.Refl R]

/-- Arithmetic that may overflow stops the call or leaves the state as it is. -/
theorem u32_respects (x : Nat) : Respects R (u32 x : ExFat σ Nat) := by
  unfold u32
  split
  · exact .pure x
  · exact .panic

theorem u64_respects (x : Nat) : Respects R (u64 x : ExFat σ Nat) := by
  unfold u64
  split
  · exact .pure x
  · exact .panic

theorem u16_respects (x : Nat) : Respects R (u16 x : ExFat σ Nat) := by
  unfold u16
  split
  · exact .pure x
  · exact .panic

theorem minus_respects (a b : Nat) : Respects R (minus a b : ExFat σ Nat) := by
  unfold minus
  split
  · exact .pure _
  · exact .panic

/-- What is worked out of the arguments alone leaves the state, also where it fails. -/
theorem decodeChars_respects (capacity : Nat) (chars : List (Option Char)) (out : List UInt8) :
    Respects R (decodeChars capacity chars out : ExFat σ (List UInt8)) := by
  induction chars generalizing out with
  | nil => exact .pure out
  | cons head rest ih =>
    cases head with
    | none => exact .raise _
    | some ch =>
      rw [decodeChars]
      split
      · exact ih _
      · exact .raise _

variable [Trans R R R]

theorem getHeapSectorId_respects (fs : FileSystemDetails) (c : Nat) :
    Respects R (fs.getHeapSectorId c : ExFat σ Nat) :=
  .when (.raise _) fun _ => u32_respects _

theorem hashUnits_respects (t : UpcaseTable) (units : List Nat) (hash : Nat) :
    Respects R (hashUnits t units hash : ExFat σ Nat) := by
  induction units generalizing hash with
  | nil => exact .pure hash
  | cons c rest ih =>
    refine .when (.raise _) fun _ => ?_
    exact .bind (u16_respects _) fun _ => .bind (u16_respects _) fun hash => ih hash

theorem encodeUtf16UpcaseAndHash_respects (s : List Char) (t : UpcaseTable) :
    Respects R (encodeUtf16UpcaseAndHash s t : ExFat σ (Nat × Nat)) := by
  refine .when (.raise _) fun _ => .bind (hashUnits_respects _ _ _) fun hash => ?_
  exact .when (.raise _) fun _ => .pure _

theorem newExactNameFilter_respects (name : List Char) (t : UpcaseTable) (a : Option FileAttributes) :
    Respects R (newExactNameFilter name t a : ExFat σ DirectoryEntryFilter) :=
  .bind (encodeUtf16UpcaseAndHash_respects _ _) fun _ => .pure _

theorem checkIsValid_respects {size : Nat} (value : Block size) :
    Respects R (BootSector.checkIsValid value : ExFat σ Unit) :=
  .bind (.assert _) fun _ => .when (.raise _) fun _ => .when (.raise _) fun _ =>
    .ite (.raise _) (.pure _)

theorem tryFrom_respects {size : Nat} (value : Block size) :
    Respects R (BootSector.tryFrom value : ExFat σ BootSector) :=
  .bind (checkIsValid_respects _) fun _ => .when (.raise _) fun _ => .when (.raise _) fun _ => .pure _

theorem collectLabel_respects (chars : List (Option Char)) (out : List UInt8) :
    Respects R (collectLabel chars out : ExFat σ (List UInt8)) := by
  induction chars generalizing out with
  | nil => exact .pure out
  | cons head rest ih =>
    cases head with
    | none => exact .raise _
    | some ch => exact .bind (.assert _) fun _ => ih _

theorem volumeLabelTryFrom_respects (value : RawDirEntry) :
    Respects R (volumeLabelTryFrom value : ExFat σ (List UInt8)) :=
  .when (.raise _) fun _ => collectLabel_respects _ _

/-- The scan for the entries that mounting needs reads a sector that it has been given. -/
theorem scanRootEntries_respects (entries : List RawDirEntry) (found : RootEntries) :
    Respects R (scanRootEntries entries found : ExFat σ RootEntries) := by
  induction entries generalizing found with
  | nil => exact .pure found
  | cons chunk rest ih =>
    have more : ∀ found : RootEntries, Respects R (if found.bitmap.isSome && found.upcase.isSome &&
        found.volumeLabel.isSome then pure found else scanRootEntries rest found : ExFat σ RootEntries) :=
      fun found => .ite (.pure _) (ih found)
    refine .ite (.pure _) ?_
    dsimp only
    split
    · exact more _
    · exact .bind (volumeLabelTryFrom_respects _) fun _ => more _
    · exact more _
    · exact more _

end

variable {size n : Nat} {home : Nat → CacheKind} {α : Type}

namespace Fat

theorem getSectorId_looks (c : Nat) :
    Respects (FileSystem.Looks home) (getSectorId c : ExFat (FileSystem size n) Nat) := by
  refine .bind .get fun fs => ?_
  split
  · exact u32_respects _
  · exact .raise _

/-- Following a chain reads a sector of the FAT. -/
theorem nextClusterInFatChain_looks (c : Nat) :
    Respects (FileSystem.Looks home) (nextClusterInFatChain c : ExFat (FileSystem size n) _) := by
  refine .bind (.assert _) fun _ => .bind (getSectorId_looks c) fun sectorId => ?_
  exact .bind (FileSystem.read_looks _ _) fun b => .ite (.pure _) (.pure _)

end Fat

namespace Allocator

/-- The search for free clusters reads the bitmap. What it takes is marked later. -/
theorem scanSectors_looks (policy : SearchPolicy) (fromCluster endCluster numClusters : Nat)
    (rounds : Nat) : ∀ (sector : Nat) (s : ScanState), Respects (FileSystem.Looks home)
      (scanSectors policy fromCluster endCluster numClusters rounds sector s :
        ExFat (FileSystem size n) ScanFlow) := by
  induction rounds with
  | zero => intro sector s; exact .pure _
  | succ rounds ih =>
    intro sector s
    refine .bind .get fun fs => .bind (u32_respects _) fun sectorId => ?_
    refine .bind (FileSystem.read_looks _ _) fun b => ?_
    split
    · exact ih _ _
    · exact .pure _

theorem findFreeClustersFrom_looks (fromCluster numClusters : Nat) (policy : SearchPolicy) :
    Respects (FileSystem.Looks home)
      (findFreeClustersFrom fromCluster numClusters policy : ExFat (FileSystem size n) _) := by
  refine .when (.raise _) fun _ => .bind .get fun fs => .bind (u32_respects _) fun endCluster => ?_
  refine .when (.raise _) fun _ => .bind (scanSectors_looks _ _ _ _ _ _ _) fun flow => ?_
  split
  · exact .panic
  · exact .pure _
  all_goals
    split
    · exact .pure _
    · split
      · exact .pure _
      · exact .raise _

/-- A second search after the first has found the disk full. -/
theorem onDiskFull_looks {m other : ExFat (FileSystem size n) α} (first : Respects (FileSystem.Looks home) m)
    (second : Respects (FileSystem.Looks home) other) :
    Respects (FileSystem.Looks home) (onDiskFull m other) := by
  intro fs
  have related := first fs
  unfold onDiskFull
  split
  · rename_i fs' run
    rw [run] at related
    exact Trans.trans related (second fs')
  · exact related

theorem findWrapping_looks (fromCluster numClusters : Nat) (policy : SearchPolicy) :
    Respects (FileSystem.Looks home)
      (findWrapping fromCluster numClusters policy : ExFat (FileSystem size n) _) := by
  unfold findWrapping
  split
  · exact onDiskFull_looks (findFreeClustersFrom_looks _ _ _) (findFreeClustersFrom_looks _ _ _)
  · exact findFreeClustersFrom_looks _ _ _

end Allocator

/-- A later state of a directory scan that only looked at the file system. -/
def Scan.Looks (home : Nat → CacheKind) (a b : Scan size n) : Prop := FileSystem.Looks home a.fs b.fs

instance : Std.Refl (Scan.Looks home : Scan size n → Scan size n → Prop) where
  refl a := Std.Refl.refl (r := FileSystem.Looks home) a.fs

instance : Trans (Scan.Looks home : Scan size n → Scan size n → Prop) (Scan.Looks home) (Scan.Looks home) where
  trans first second := Trans.trans (r := FileSystem.Looks home) (s := FileSystem.Looks home) first second

namespace DirectoryEntryChain

theorem onFs_looks {m : ExFat (FileSystem size n) α} (looks : Respects (FileSystem.Looks home) m) :
    Respects (Scan.Looks home) (onFs m) :=
  looks.zoom fun _ _ => id

theorem modifyChain_looks (f : DirectoryEntryChain size → DirectoryEntryChain size) :
    Respects (Scan.Looks home) (modifyChain f : ExFat (Scan size n) Unit) :=
  fun s => Std.Refl.refl (r := FileSystem.Looks home) s.fs

theorem getCurrentSectorId_looks :
    Respects (Scan.Looks home) (getCurrentSectorId : ExFat (Scan size n) Nat) :=
  .bind .get fun _ => .bind (getHeapSectorId_respects _ _) fun _ => u32_respects _

theorem turnPage_looks : Respects (Scan.Looks home) (turnPage : ExFat (Scan size n) Bool) := by
  refine .bind .get fun s => .when (modifyChain_looks _) fun _ => .bind .get fun s => ?_
  refine .ite (.bind (onFs_looks (Fat.nextClusterInFatChain_looks _)) fun next => ?_) (.pure _)
  split
  · exact .bind (modifyChain_looks _) fun _ => .pure _
  · exact .pure _

/-- The next entry of a directory, which may be in another sector or cluster. -/
theorem next_looks : Respects (Scan.Looks home) (next : ExFat (Scan size n) _) := by
  refine .bind .get fun s => .ite (.pure _) (.bind turnPage_looks fun more => .ite (.pure _) ?_)
  refine .bind .get fun s => .ite (.bind getCurrentSectorId_looks fun _ => ?_) ?_
  · refine .bind (onFs_looks (FileSystem.read_looks _ _)) fun _ => .bind (modifyChain_looks _) fun _ => ?_
    exact .bind .get fun _ => .bind (.assert _) fun _ => .bind getCurrentSectorId_looks fun _ =>
      .bind (modifyChain_looks _) fun _ => .pure _
  · exact .bind .get fun _ => .bind (.assert _) fun _ => .bind getCurrentSectorId_looks fun _ =>
      .bind (modifyChain_looks _) fun _ => .pure _

theorem nextFileDirEntry_looks (fuel : Nat) :
    Respects (Scan.Looks home) (nextFileDirEntry fuel : ExFat (Scan size n) _) := by
  induction fuel with
  | zero => exact .diverge
  | succ fuel ih =>
    refine .bind next_looks fun found => ?_
    split
    · exact .pure _
    · split
      · split
        · exact .pure _
        · exact ih
      · exact .pure _
      · exact ih

theorem nameEntries_looks (filter : DirectoryEntryFilter) (nameLength : Nat) (rounds : Nat) :
    ∀ units, Respects (Scan.Looks home)
      (nameEntries filter nameLength rounds units : ExFat (Scan size n) _) := by
  induction rounds with
  | zero => intro units; exact .diverge
  | succ rounds ih =>
    intro units
    refine .bind next_looks fun found => ?_
    split
    · exact .pure _
    · split
      · exact .bind .get fun s => .ite (.ite (.pure _) (ih _)) (.pure _)
      · exact .pure _

/-- The scan for the next set that a filter passes, whichever way it ends. -/
theorem nextFileEntry_looks (filter : DirectoryEntryFilter) (nameBuf : Option Nat) (fuel : Nat) :
    Respects (Scan.Looks home) (nextFileEntry filter nameBuf fuel : ExFat (Scan size n) _) := by
  induction fuel with
  | zero => exact .diverge
  | succ fuel ih =>
    refine .bind (nextFileDirEntry_looks _) fun file => ?_
    split
    · exact .pure _
    refine .bind next_looks fun entry => ?_
    split
    · exact .pure _
    refine .ite (.ite ih (.ite ih ?_)) (.pure _)
    · refine .bind (nameEntries_looks _ _ _ _) fun named => ?_
      split
      · exact .pure _
      · exact ih
      · split
        · exact .bind (decodeChars_respects _ _ _) fun _ => .pure _
        · exact .bind (.pure _) fun _ => .pure _

end DirectoryEntryChain

namespace FileSystem

theorem scanning_looks (chain : DirectoryEntryChain size) {m : ExFat (Scan size n) α}
    (looks : Respects (Scan.Looks home) m) : Respects (Looks home) (scanning chain m) :=
  fun fs => looks ⟨fs, chain⟩

theorem lookupIn_looks (fuel clusterId : Nat) (name : List Char) (a : Option FileAttributes) :
    Respects (Looks home) (lookupIn fuel clusterId name a : ExFat (FileSystem size n) _) :=
  .bind .get fun _ => .bind (newExactNameFilter_respects _ _ _) fun _ =>
    .bind (scanning_looks _ (DirectoryEntryChain.nextFileEntry_looks _ _ _)) fun _ => .pure _

/-- Every step down a path is a lookup in one folder. -/
theorem leafFrom_looks (fuel : Nat) (a : Option FileAttributes) (parts : List (List Char)) :
    ∀ clusterId, Respects (Looks home) (leafFrom fuel a parts clusterId : ExFat (FileSystem size n) _) := by
  induction parts with
  | nil => intro clusterId; exact .pure _
  | cons part rest ih =>
    intro clusterId
    cases rest with
    | nil => exact lookupIn_looks _ _ _ _
    | cons more rest =>
      refine .bind (lookupIn_looks _ _ _ _) fun found => ?_
      split
      · split
        · exact ih _
        · exact .pure _
      · exact .pure _

theorem getLeafFileEntry_looks (fuel : Nat) (path : List Char) (a : Option FileAttributes) :
    Respects (Looks home) (getLeafFileEntry fuel path a : ExFat (FileSystem size n) _) :=
  .bind .get fun _ => leafFrom_looks _ _ _ _

/-- What the calls begin with that take a path changes nothing. -/
theorem findFileInner_looks (fuel : Nat) (path : List Char) (a : Option FileAttributes) :
    Respects (Looks home) (findFileInner fuel path a : ExFat (FileSystem size n) _) := by
  refine .bind (getLeafFileEntry_looks _ _ _) fun found => ?_
  split
  · exact .pure _
  · exact .raise _

theorem directoryList_looks (fuel : Nat) (path : List Char) :
    Respects (Looks home) (directoryList fuel path : ExFat (FileSystem size n) _) := by
  refine .bind .get fun fs => .ite (.pure _) (.bind (getLeafFileEntry_looks _ _ _) fun found => ?_)
  split
  · exact .ite (.pure _) (.raise _)
  · exact .raise _

theorem walkFat_looks (rounds : Nat) :
    ∀ clusterId, Respects (Looks home) (walkFat rounds clusterId : ExFat (FileSystem size n) Nat) := by
  induction rounds with
  | zero => intro clusterId; exact .pure _
  | succ rounds ih =>
    intro clusterId
    refine .bind (Fat.nextClusterInFatChain_looks _) fun next => ?_
    split
    · exact ih _
    · exact .raise _

theorem getClusterIdAt_looks (cursor : Nat) (details : FileDetails) :
    Respects (Looks home) (getClusterIdAt cursor details : ExFat (FileSystem size n) Nat) := by
  unfold getClusterIdAt
  split
  · exact .pure _
  · refine .bind .get fun fs => ?_
    dsimp only
    split
    · exact u32_respects _
    · exact walkFat_looks _ _

/-- The chain of a stored file, whose last cluster may have to be looked for in the FAT. -/
theorem getStoredChain_looks (details : FileDetails) :
    Respects (Looks home) (getStoredChain details : ExFat (FileSystem size n) StoredChain) := by
  refine .bind .get fun fs => ?_
  dsimp only
  split
  · exact .pure _
  · split
    · exact .pure _
    · exact .bind (getClusterIdAt_looks _ _) fun _ => .pure _

theorem noChildrenIn_looks (fuel : Nat) :
    Respects (Scan.Looks home) (noChildrenIn fuel : ExFat (Scan size n) Unit) := by
  induction fuel with
  | zero => exact .diverge
  | succ fuel ih =>
    refine .bind DirectoryEntryChain.next_looks fun found => ?_
    split
    · exact .pure _
    · split
      · split
        · exact .pure _
        · exact ih
      · exact ih
      · exact .raise _

/-- The check before a folder is removed. -/
theorem confirmHasNoChildren_looks (fuel : Nat) (details : FileDetails) :
    Respects (Looks home) (confirmHasNoChildren fuel details : ExFat (FileSystem size n) Unit) := by
  unfold confirmHasNoChildren
  split
  · exact .bind .get fun _ => scanning_looks _ (noChildrenIn_looks _)
  · exact .pure _

theorem emptyRunIn_looks (len : Nat) (fuel : Nat) : ∀ counter start,
    Respects (Scan.Looks home) (emptyRunIn len fuel counter start : ExFat (Scan size n) _) := by
  induction fuel with
  | zero => intro counter start; exact .diverge
  | succ fuel ih =>
    intro counter start
    refine .bind DirectoryEntryChain.next_looks fun found => ?_
    split
    · exact .pure _
    · split
      · split
        · exact .pure _
        · exact ih _ _
      · split
        · exact .pure _
        · exact ih _ _
      · exact ih _ _

/-- The place for a new set is found by reading the directory. -/
theorem findEmptyDirEntrySet_looks (fuel clusterId len : Nat) :
    Respects (Looks home) (findEmptyDirEntrySet fuel clusterId len : ExFat (FileSystem size n) Location) := by
  refine .bind .get fun fs => .bind (scanning_looks _ (emptyRunIn_looks _ _ _ _)) fun found => ?_
  split
  · exact .pure _
  · exact .raise _

end FileSystem

end ExFatSlim
