import ExFatSlim.Fs
import ExFatSlim.Lib.Simulation
import ExFatSlim.PathCalls

namespace ExFatSlim

/-- A request that says by paths what it is about. -/
inductive PathOp where
  | «exists» (path : List Char)
  | read (path : List Char)
  | write (path : List Char) (buffer : List UInt8)
  | removeFile (path : List Char)
  | createDirectory (path : List Char)
  | removeDir (path : List Char)
  | rename (fromPath toPath : List Char)

/-- A tree of folders and files, as what there is under every path. -/
abbrev PathTree := List (List Nat) → Option (Node (List UInt8))

namespace PathTree

open Store

/-- The tree that has nothing but its root. -/
def bare : PathTree
  | [] => some .folder
  | _ :: _ => none

abbrev Reply := Except (Fault FsError) FsResp

def failed (e : ExFatError) : Reply := .error (.error (.exFat e))

variable (table : UpcaseTable) (P : PathTree)

def read (path : List Char) : Reply × PathTree :=
  match named P (table.keys path) with
  | some (.file content) => (.ok (.read content), P)
  | _ => (failed .fileNotFound, P)

/-- Writing makes the folders that are missing. -/
def write (path : List Char) (buffer : List UInt8) : PathTree :=
  Function.update (furnished P (table.keys path).dropLast) (table.keys path) (some (.file buffer))

def removeFile (path : List Char) : Reply × PathTree :=
  match named P (table.keys path) with
  | some (.file _) => (.ok .ok, Function.update P (table.keys path) none)
  | _ => (failed .fileNotFound, P)

open Classical in
/-- Only an empty folder is removed. -/
noncomputable def removeDir (path : List Char) : Reply × PathTree :=
  match named P (table.keys path) with
  | some .folder =>
    if ∀ k, P (table.keys path ++ [k]) = none then (.ok .ok, Function.update P (table.keys path) none)
    else (failed .directoryNotEmpty, P)
  | _ => (failed .fileNotFound, P)

/-- What is renamed takes along all that is below it. -/
def rename (fromPath toPath : List Char) : Reply × PathTree :=
  match named P (table.keys fromPath), named P (table.keys toPath) with
  | none, _ => (failed .fileNotFound, P)
  | some _, some _ => (failed .alreadyExists, P)
  | some _, none =>
    (.ok .ok, relocated (furnished P (table.keys toPath).dropLast) (table.keys fromPath) (table.keys toPath))

/-- What a request does to the tree. -/
noncomputable def step (table : UpcaseTable) : Machine PathOp Reply PathTree
  | .exists path, P => (.ok (.exists (named P (table.keys path)).isSome), P)
  | .read path, P => P.read table path
  | .write path buffer, P => (.ok .ok, P.write table path buffer)
  | .removeFile path, P => P.removeFile table path
  | .createDirectory path, P => (.ok .ok, furnished P (table.keys path))
  | .removeDir path, P => P.removeDir table path
  | .rename fromPath toPath, P => P.rename table fromPath toPath

end PathTree

namespace PathOp

open Store

variable {size n : Nat}

def request : PathOp → FsOp
  | .exists path => .exists path
  | .read path => .read path
  | .write path buffer => .write path buffer
  | .removeFile path => .removeFile path
  | .createDirectory path => .createDirectory path
  | .removeDir path => .removeDir path
  | .rename fromPath toPath => .rename fromPath toPath

/-- What the mounted volume answers. -/
def serve (fuel : Nat) (cause : DeviceError) : Machine PathOp PathTree.Reply (Mounted size n) :=
  fun op s => Mounted.serve fuel cause op.request s

/-- A file that is there, or one that can be created with the folders that are
missing, and free clusters for the new contents. -/
def FitsIn (home : Nat → CacheKind) (fs : FileSystem size n) (P : PathTree) (path : List Char)
    (length : Nat) : Prop :=
  match P (fs.setup.upcaseTable.keys path) with
  | some (.file old) => fs.setup.upcaseTable.Accepts path ∧ FileSystem.divCeil length fs.fs.clusterLength ≤
      (fs.volume home).freeClusters.card + FileSystem.divCeil old.length fs.fs.clusterLength
  | some .folder => False
  | none => ∃ missing, (fs.volume home).Creatable path missing ∧
      FileSystem.divCeil length fs.fs.clusterLength + missing ≤ (fs.volume home).freeClusters.card

/-- The names are ones that the code takes, and of at most 255 units where an
entry is made. There is room for what is new: empty entries in the folder and
free clusters, none of them with a successor in the FAT where a folder is made.
A file is not written onto a folder, no folder is made where a file has the
name, and nothing is moved into itself. A write does not end in the first sector
of a cluster other than the first. -/
def Admits (home : Nat → CacheKind) (op : PathOp) (s : Mounted size n) (P : PathTree) : Prop :=
  let fs := s.fileSystem
  let table := fs.setup.upcaseTable
  match op with
  | .exists path | .read path | .removeFile path | .removeDir path => table.Accepts path
  | .write path buffer => buffer.length < 2 ^ fs.usizeBits ∧ ¬ File.Trips size fs.fs.clusterLength 0 buffer.length ∧
      FitsIn home fs P path buffer.length
  | .createDirectory path => ∃ missing, (∀ name ∈ pathToIter path, (fs.volume home).Nameable name) ∧
      (fs.volume home).Makeable none (pathToIter path) fs.fs.firstClusterOfRootDir missing ∧
      missing ≤ (fs.volume home).freeClusters.card ∧ (missing ≠ 0 → (fs.volume home).Unlinked)
  | .rename fromPath toPath => table.Accepts fromPath ∧ table.Accepts toPath ∧
      (named P (table.keys fromPath) ≠ none → named P (table.keys toPath) = none →
        ∃ missing, (fs.volume home).Creatable toPath missing ∧ missing ≤ (fs.volume home).freeClusters.card ∧
          ¬ table.keys fromPath <+: (table.keys toPath).dropLast)

end PathOp

namespace Mounted

open Store FileSystem

variable {size n fuel : Nat} {home : Nat → CacheKind} {aside : Set Nat} {base : Setup} {cause : DeviceError}
  {s : Mounted size n}
  {P P' : PathTree} {α : Type} {m : ExFat (FileSystem size n) α} {r : Except (Fault ExFatError) α}

/-- The mounted volume presents the tree. -/
def Presents (home : Nat → CacheKind) (aside : Set Nat) (base : Setup) (fuel : Nat) (s : Mounted size n)
    (P : PathTree) : Prop :=
  s.fileSystem.Presents home aside base fuel P

theorem Presents.upcaseTable (presents : s.Presents home aside base fuel P) :
    s.fileSystem.setup.upcaseTable = base.upcaseTable := by
  obtain ⟨_, _, _, setup, _⟩ := presents
  rw [setup]

theorem Presents.root (presents : s.Presents home aside base fuel P) : P [] = some .folder := by
  obtain ⟨_, _, _, _, rfl⟩ := presents
  rfl

/-- A request that is served by one call of the file system. -/
theorem onFs_answers (answers : Answers home aside base fuel m s.fileSystem r P') (f : α → FsResp) :
    ((onFs cause m >>= fun a => pure (f a)) s).1 = (convert cause r).map f ∧
      ((onFs cause m >>= fun a => pure (f a)) s).2.Presents home aside base fuel P' := by
  obtain ⟨fs', run, presents⟩ := answers
  have ran : onFs cause m s = (convert cause r, { s with fileSystem := fs' }) := by rw [onFs, run]
  rcases r with fault | a
  · have failed : ∃ e, (convert cause (.error fault) : Except (Fault FsError) α) = .error e := by
      cases fault <;> exact ⟨_, rfl⟩
    obtain ⟨e, failed⟩ := failed
    rw [failed] at ran ⊢
    rw [Exec.bind_of_error ran]
    exact ⟨rfl, presents⟩
  · rw [Exec.bind_of_ok ran]
    exact ⟨rfl, presents⟩

section Steps

variable (presents : s.Presents home aside base fuel P)

include presents

theorem read_step {path : List Char} (accepts : s.fileSystem.setup.upcaseTable.Accepts path) :
    (PathOp.serve fuel cause (.read path) s).1 = (P.read s.fileSystem.setup.upcaseTable path).1 ∧
      (PathOp.serve fuel cause (.read path) s).2.Presents home aside base fuel
        (P.read s.fileSystem.setup.upcaseTable path).2 := by
  rw [PathTree.read]
  split
  · rename_i content there
    exact onFs_answers (read_file presents accepts there) .read
  · rename_i there
    exact onFs_answers (read_none presents accepts there) .read

theorem removeFile_step {path : List Char} (accepts : s.fileSystem.setup.upcaseTable.Accepts path) :
    (PathOp.serve fuel cause (.removeFile path) s).1 = (P.removeFile s.fileSystem.setup.upcaseTable path).1 ∧
      (PathOp.serve fuel cause (.removeFile path) s).2.Presents home aside base fuel
        (P.removeFile s.fileSystem.setup.upcaseTable path).2 := by
  rw [PathTree.removeFile]
  split
  · rename_i content there
    exact onFs_answers (removeFile_file presents accepts there) fun _ => .ok
  · rename_i there
    exact onFs_answers (removeFile_none presents accepts there) fun _ => .ok

theorem removeDir_step {path : List Char} (accepts : s.fileSystem.setup.upcaseTable.Accepts path) :
    (PathOp.serve fuel cause (.removeDir path) s).1 = (P.removeDir s.fileSystem.setup.upcaseTable path).1 ∧
      (PathOp.serve fuel cause (.removeDir path) s).2.Presents home aside base fuel
        (P.removeDir s.fileSystem.setup.upcaseTable path).2 := by
  rw [PathTree.removeDir]
  split
  · rename_i there
    split
    · rename_i empty
      exact onFs_answers (removeDir_empty presents accepts there empty) fun _ => .ok
    · rename_i full
      obtain ⟨k, full⟩ := not_forall.mp full
      exact onFs_answers (removeDir_nonempty presents accepts there full) fun _ => .ok
  · rename_i there
    exact onFs_answers (removeDir_none presents accepts there) fun _ => .ok

theorem write_step {path : List Char} {buffer : List UInt8} (admits : PathOp.Admits home (.write path buffer) s P) :
    (PathOp.serve fuel cause (.write path buffer) s).1 = .ok .ok ∧
      (PathOp.serve fuel cause (.write path buffer) s).2.Presents home aside base fuel
        (P.write s.fileSystem.setup.upcaseTable path buffer) := by
  obtain ⟨addressable, smooth, fits⟩ := admits
  rw [PathOp.FitsIn] at fits
  split at fits
  · rename_i old there
    obtain ⟨accepts, space⟩ := fits
    have named : named P (s.fileSystem.setup.upcaseTable.keys path) = some (.file old) := by
      refine named_eq_some.mpr ⟨fun root => ?_, there⟩
      rw [root, presents.root] at there
      cases there
    exact onFs_answers (write_over presents accepts addressable smooth named space) fun _ => .ok
  · exact fits.elim
  · rename_i there
    obtain ⟨missing, creatable, space⟩ := fits
    exact onFs_answers (write_new presents addressable smooth there creatable space) fun _ => .ok

theorem rename_step {path toPath : List Char} (admits : PathOp.Admits home (.rename path toPath) s P) :
    (PathOp.serve fuel cause (.rename path toPath) s).1 = (P.rename s.fileSystem.setup.upcaseTable path toPath).1 ∧
      (PathOp.serve fuel cause (.rename path toPath) s).2.Presents home aside base fuel
        (P.rename s.fileSystem.setup.upcaseTable path toPath).2 := by
  obtain ⟨accepts, accepts', moves⟩ := admits
  rw [PathTree.rename]
  split
  · rename_i there
    exact onFs_answers (rename_none presents accepts there) fun _ => .ok
  · rename_i x y source target
    exact onFs_answers (rename_taken presents accepts accepts' source target) fun _ => .ok
  · rename_i x source target
    obtain ⟨missing, creatable, room, apart⟩ := moves (by rw [source]; exact Option.some_ne_none x) target
    exact onFs_answers (rename_moves presents accepts source target creatable room apart) fun _ => .ok

end Steps

/-- Every request gets the answer of the tree and does to the volume what it does to the tree. -/
theorem serve_follows (home : Nat → CacheKind) (aside : Set Nat) (base : Setup) (fuel : Nat) (cause : DeviceError) :
    (PathOp.serve fuel cause : Machine PathOp PathTree.Reply (Mounted size n)).Follows
      (PathTree.step base.upcaseTable) (PathOp.Admits home)
      (Presents home aside base fuel) := by
  rintro op s P presents admits
  rw [← presents.upcaseTable]
  cases op with
  | «exists» path => exact onFs_answers (exists_answers presents admits) .exists
  | read path => exact read_step presents admits
  | write path buffer => exact write_step presents admits
  | removeFile path => exact removeFile_step presents admits
  | createDirectory path =>
    obtain ⟨missing, nameable, makeable, room, unlinked⟩ := admits
    exact onFs_answers (createDirectory_answers presents nameable makeable room unlinked) fun _ => .ok
  | removeDir path => exact removeDir_step presents admits
  | rename fromPath toPath => exact rename_step presents admits

/-- A mounted volume answers every run of requests as the tree of its paths
does, and presents in the end what the run makes of that tree. -/
theorem serve_refines_tree (presents : s.Presents home aside base fuel P) {ops : List PathOp}
    (admitted : (PathOp.serve fuel cause).Guards (PathTree.step base.upcaseTable) (PathOp.Admits home) ops s P) :
    ((PathOp.serve fuel cause).run ops s).1 = ((PathTree.step base.upcaseTable).run ops P).1 ∧
      ((PathOp.serve fuel cause).run ops s).2.Presents home aside base fuel
        ((PathTree.step base.upcaseTable).run ops P).2 :=
  (serve_follows home aside base fuel cause).run ops presents admitted

end Mounted

namespace Volume

variable {size : Nat} {home : Nat → CacheKind} {v : Volume size}

/-- A volume without files: no entry of the root directory belongs to a set,
and nothing is in use besides its cluster and those that are set aside. -/
structure Blank (home : Nat → CacheKind) (aside : Set Nat) (list : DirList) (v : Volume size) : Prop where
  layout : Layout size home v.setup
  past : v.setup.details.clusterHeapOffset + v.setup.bitmap.clusterCount * v.setup.details.sectorsPerCluster < 2 ^ 32
  search : 2 ≤ v.setup.nextSearchCluster
  clocked : v.setup.Clocked
  data : ∀ d, v.InHeap d → v.IsFree d → v.IsData home d
  root : v.Folder home v.setup.details.firstClusterOfRootDir list
  empty : list.sets = []
  used : ∀ d ∈ aside, v.InHeap d ∧ ¬ v.IsFree d ∧ d ≠ v.setup.details.firstClusterOfRootDir
  free : ∀ d, v.InHeap d → d ≠ v.setup.details.firstClusterOfRootDir → d ∉ aside → v.IsFree d

/-- The catalog of a volume without files. -/
def bareCatalog (v : Volume size) (list : DirList) : Catalog where
  folders := {v.setup.details.firstClusterOfRootDir}
  list _ := list
  clusters _ _ := []

namespace Blank

variable {aside : Set Nat} {list : DirList} (blank : v.Blank home aside list)

include blank

theorem not_has {c i : Nat} {set : EntrySet} : ¬ (v.bareCatalog list).Has c i set := fun has => by
  have member := has.2
  rw [bareCatalog, blank.empty] at member
  cases member

theorem catalogued : v.Catalogued home aside (v.bareCatalog list) where
  layout := blank.layout
  past := blank.past
  search := blank.search
  clocked := blank.clocked
  data := blank.data
  root := Finset.mem_singleton_self _
  folder c here := Finset.mem_singleton.mp here ▸ blank.root
  plain c here other := absurd (Finset.mem_singleton.mp here) other
  file has := absurd has blank.not_has
  inner has := absurd has blank.not_has
  names has := absurd has blank.not_has
  once has := absurd has blank.not_has
  filed member := by cases member
  apart member := by cases member
  owned d inHeap used := by
    by_cases root : d = v.setup.details.firstClusterOfRootDir
    · exact .inr (.inl (Finset.mem_singleton.mpr root))
    · by_cases other : d ∈ aside
      · exact .inl other
      · exact absurd (blank.free d inHeap root other) used

theorem tidy : v.Tidy aside (v.bareCatalog list) where
  reachable _ here := ⟨[], congrArg some (Finset.mem_singleton.mp here).symm⟩
  reserved d gone := by
    obtain ⟨inHeap, used, other⟩ := blank.used d gone
    exact ⟨inHeap, used, fun root => other (Finset.mem_singleton.mp root), fun _ _ member => by cases member⟩

theorem paths : v.paths (v.bareCatalog list) = PathTree.bare := by
  have nothing c k : (v.bareCatalog list).store v c k = none := by
    rw [Option.eq_none_iff_forall_ne_some]
    intro e there
    obtain ⟨i, set, has, _⟩ := blank.catalogued.store_iff.mp there
    exact blank.not_has has
  funext path
  rw [Volume.paths]
  cases path with
  | nil => rfl
  | cons k ks => rw [Store.look, nothing, PathTree.bare]

end Blank

end Volume

namespace Mounted

open File (smallHome smallVolume_layout)
open FileSystem Volume

/-- A volume on which the root directory has cluster 2. -/
def blankVolume : FileSystem 512 1 :=
  { File.smallVolume with
    dev := ⟨fun s => if s = 10 then fun i => if i.val = 0 then 1 else 0 else fun _ => 0, [], []⟩
    upcaseTable := .default }

def blankMounted : Mounted 512 1 := ⟨blankVolume, .new, .new, 0⟩

theorem blankVolume_free (d : Nat) (inHeap : (blankVolume.volume smallHome).InHeap d) :
    (blankVolume.volume smallHome).IsFree d ↔ d ≠ 2 := by
  have all : ∀ d < 10, 2 ≤ d → ((blankVolume.volume smallHome).isFreeCluster d = true ↔ d ≠ 2) := by decide +kernel
  exact all d inHeap.2 inHeap.1

theorem blankVolume_data (d : Nat) : (blankVolume.volume smallHome).IsData smallHome d := by
  intro i inside
  have sector : (blankVolume.volume smallHome).dataSector d i = 100 + (d - 2) * 1 + i := rfl
  rw [sector, smallHome, if_neg (by omega), if_neg (by omega)]

theorem blankVolume_root : (blankVolume.volume smallHome).Folder smallHome 2 ⟨[], 16⟩ where
  cell := ⟨by decide, smallVolume_layout.of_same rfl rfl rfl rfl, ⟨by decide, by decide⟩,
    blankVolume_data 2, by decide⟩
  used free := absurd rfl ((blankVolume_free 2 ⟨by decide, by decide⟩).mp free)
  last := by decide +kernel
  content := by decide +kernel
  hashed x member := by cases member

theorem blankVolume_blank : (blankVolume.volume smallHome).Blank smallHome ∅ ⟨[], 16⟩ where
  layout := smallVolume_layout.of_same rfl rfl rfl rfl
  past := by decide
  search := le_rfl
  clocked := fun _ none_ => by cases none_
  data d _ _ := blankVolume_data d
  root := blankVolume_root
  empty := rfl
  used d gone := absurd gone (Set.notMem_empty d)
  free d inHeap other _ := (blankVolume_free d inHeap).mpr other

theorem blankMounted_presents : blankMounted.Presents smallHome ∅ blankVolume.setup 200 .bare := by
  refine ⟨_, ⟨sound_of_new _ rfl fun k => by cases k <;> rfl, blankVolume_blank.catalogued, by decide⟩,
    blankVolume_blank.tidy, rfl,
    blankVolume_blank.paths⟩

/-- A file is written into a folder that is not there yet, and read under another spelling. -/
def bareOps : List PathOp := [.write ['d', '/', 'f'] [1, 2, 3], .read ['D', '/', 'F']]

theorem bareOps_creatable : (blankVolume.volume smallHome).Creatable ['d', '/', 'f'] 1 where
  plain := by decide
  nameable name member := by
    have parts : pathToIter ['d', '/', 'f'] = [['d'], ['f']] := by decide
    rw [parts] at member
    rcases List.mem_pair.mp member with rfl | rfl <;> exact ⟨⟨_, rfl⟩, by decide⟩
  makeable := by
    have spare : (blankVolume.volume smallHome).Spare 2 ['d'] :=
      blankVolume_blank.catalogued.spare_of_empty ⟨_, rfl⟩ blankVolume_blank.catalogued.root
        blankVolume_root.content (by decide)
    exact .fresh spare (by decide)
  unlinked _ := by
    have all : ∀ d < 10, (blankVolume.volume smallHome).next d = none := by decide +kernel
    exact fun d inHeap _ => all d inHeap.2

theorem bareOps_admitted :
    (PathOp.serve 200 ⟨0, false⟩).Guards (PathTree.step .default)
      (PathOp.Admits smallHome) bareOps blankMounted .bare := by
  have admits : PathOp.Admits smallHome (.write ['d', '/', 'f'] [1, 2, 3]) blankMounted .bare :=
    ⟨by decide, by decide, 1, bareOps_creatable, by decide +kernel⟩
  have presents := (serve_follows smallHome ∅ blankVolume.setup 200 ⟨0, false⟩ _ _ _ blankMounted_presents admits).2
  refine ⟨admits, ?_, trivial⟩
  have accepts : blankVolume.setup.upcaseTable.Accepts ['D', '/', 'F'] := by
    have parts : pathToIter ['D', '/', 'F'] = [['D'], ['F']] := by decide
    intro name member
    rw [parts] at member
    rcases List.mem_pair.mp member with rfl | rfl <;> exact ⟨_, rfl⟩
  rw [← presents.upcaseTable] at accepts
  exact accepts

theorem serve_refines_tree_bare :
    ((PathOp.serve 200 ⟨0, false⟩).run bareOps blankMounted).1 = [.ok .ok, .ok (.read [1, 2, 3])] :=
  (serve_refines_tree blankMounted_presents bareOps_admitted).1.trans rfl

end Mounted

end ExFatSlim
