import ExFatSlim.Opening
import ExFatSlim.Scanning

namespace ExFatSlim

/-- A call on a handle. -/
inductive HandleOp where
  | read (len : Nat)
  | seek (cursor : Nat)
  | write (buf : List UInt8)

namespace HandleOp

variable {size n : Nat}

/-- The state that the call leaves, whether it succeeds or not. -/
def run : HandleOp → FileSession size n → FileSession size n
  | .read len, s => (File.read len s).2
  | .seek cursor, s => (File.seek cursor s).2
  | .write buf, s => (File.write buf s).2

/-- The buffer of a write is addressable and takes fewer than `2 ^ 32` clusters. -/
def Fits (s : FileSession size n) : HandleOp → Prop
  | .write buf => buf.length < 2 ^ s.fs.usizeBits ∧ FileSystem.divCeil buf.length s.fs.fs.clusterLength < 2 ^ 32
  | _ => True

/-- The states that calls reach one after the other, each of which is allowed where it is made. -/
inductive Runs (allowed : HandleOp → FileSession size n → Prop) (s : FileSession size n) : FileSession size n → Prop
  | start : Runs allowed s s
  | next {s' : FileSession size n} (op : HandleOp) :
    Runs allowed s s' → op.Fits s' → allowed op s' → Runs allowed s (op.run s')

end HandleOp

namespace FileSession

open File

variable {size n : Nat} {home : Nat → CacheKind} {s s' : FileSession size n} {cs : List Nat} {c : Nat}

/-- The offset right after the last cluster of a contiguous chain. -/
def AtEnd (c : Nat) (s : FileSession size n) : Prop :=
  ∃ first clusterCount, s.file.chain = .contiguous first clusterCount ∧ c = clusterCount * s.fs.fs.clusterLength

theorem Sized.contiguous (sized : Sized home cs s) {first clusterCount : Nat}
    (chain : s.file.chain = .contiguous first clusterCount) :
    0 < clusterCount ∧ cs.length = clusterCount ∧ cs = List.range' first clusterCount := by
  have lists := sized.owns.lists
  rw [chain] at lists
  exact ⟨lists.1, by rw [lists.2, List.length_range'], lists.2⟩

/-- A seek that succeeds places the handle at its cursor, but for the very end of a contiguous chain. -/
theorem Sized.seek_positioned_iff (sized : Sized home cs s) (run : File.seek c s = (.ok (), s')) :
    Positioned s'.fs.fs.clusterLength cs s'.file ↔ ¬ AtEnd c s := by
  obtain ⟨r, s₁, run₁, sized₁, volume, moved, sought⟩ := sized.seek c
  cases run.symm.trans run₁
  obtain ⟨_, pos, _⟩ := sized.toHolds.clusterLength
  have length : s'.fs.fs.clusterLength = s.fs.fs.clusterLength :=
    congrArg (fun v : Volume size => v.setup.details.clusterLength) volume
  cases sought with
  | nowhere empty remaining =>
    subst empty
    have nothing := sized₁.dataLength_nil
    have cursor := sized₁.cursor
    refine iff_of_true (Or.inl ⟨rfl, by omega, remaining⟩) ?_
    rintro ⟨first, clusterCount, chain, _⟩
    obtain ⟨some_, count, _⟩ := sized.contiguous chain
    rw [List.length_nil] at count
    omega
  | inside inside cursor =>
    refine iff_of_true (Or.inr (Or.inl inside)) ?_
    rintro ⟨first, clusterCount, chain, final⟩
    obtain ⟨_, count, _⟩ := sized.contiguous chain
    obtain ⟨index, _⟩ := List.getElem?_eq_some_iff.mp inside.1
    rw [cursor, final, length, Nat.mul_div_cancel _ pos] at index
    omega
  | ended first chain final current cursor =>
    refine iff_of_false ?_ fun inside => inside ⟨first, cs.length, chain, final⟩
    obtain ⟨some_, _, range⟩ := sized.contiguous chain
    have foreign : s'.file.currentCluster ∉ cs := by
      rw [range, current, List.mem_range'_1]
      omega
    rintro (⟨none_, _⟩ | inside | past)
    · rw [none_, List.length_nil] at some_
      omega
    · exact foreign (List.mem_of_getElem? inside.1)
    · exact foreign (List.mem_of_getElem? past.2.2.2)

/-- A seek leaves the handle in its chain, but for the very end of a contiguous one. -/
theorem Kept.seek (kept : Kept home cs s) (inside : ¬ AtEnd c s) : Kept home cs (File.seek c s).2 := by
  obtain ⟨r, s', run, sized, volume, moved, sought⟩ := kept.toSized.seek c
  rw [run]
  refine ⟨sized, ?_⟩
  cases sought with
  | outOfRange same => exact same ▸ kept.place
  | nowhere empty remaining => exact Or.inl empty
  | inside here cursor => exact Or.inr (List.mem_of_getElem? here.1)
  | ended first chain final current cursor => exact absurd ⟨first, cs.length, chain, final⟩ inside
  | stuck first last clusterCount chain current => exact current ▸ kept.place

/-- No seek goes to the end of a contiguous chain. -/
def SeeksInside (op : HandleOp) (s : FileSession size n) : Prop := ∀ c, op = .seek c → ¬ AtEnd c s

theorem Kept.run (kept : Kept home cs s) {op : HandleOp} (fits : op.Fits s) (inside : SeeksInside op s) :
    ∃ cs', Kept home cs' (op.run s) := by
  cases op with
  | read len => exact ⟨cs, kept.read len⟩
  | seek c => exact ⟨cs, kept.seek (inside c rfl)⟩
  | write buf =>
    rcases kept.toSized.write (kept.place.imp_right Or.inl) fits.1 fits.2 with same | ⟨added, kept', _⟩
    · rw [HandleOp.run, same]
      exact ⟨cs, kept⟩
    · exact ⟨cs ++ added, kept'⟩

theorem Kept.runs (kept : Kept home cs s) (runs : HandleOp.Runs SeeksInside s s') : ∃ cs', Kept home cs' s' := by
  induction runs with
  | start => exact ⟨cs, kept⟩
  | next op _ fits inside ih =>
    obtain ⟨cs₁, kept₁⟩ := ih
    exact kept₁.run fits inside

/-- A handle in its chain, or right after a contiguous one. -/
structure Near (home : Nat → CacheKind) (cs : List Nat) (s : FileSession size n) : Prop extends Sized home cs s where
  place : cs = [] ∨ s.file.currentCluster ∈ cs ∨ ∃ first, s.file.chain = .contiguous first cs.length ∧
    s.file.currentCluster = first + cs.length ∧ s.file.cursor = cs.length * s.fs.fs.clusterLength

theorem Kept.near (kept : Kept home cs s) : Near home cs s := ⟨kept.toSized, kept.place.imp_right Or.inl⟩

/-- A write right after a contiguous chain finds the cluster there free. -/
def WritesInside (home : Nat → CacheKind) (op : HandleOp) (s : FileSession size n) : Prop :=
  ∀ buf first clusterCount, op = .write buf → s.file.chain = .contiguous first clusterCount →
    s.file.currentCluster = first + clusterCount →
    (s.fs.volume home).InHeap s.file.currentCluster ∧ (s.fs.volume home).IsFree s.file.currentCluster

theorem Near.write (near : Near home cs s) {buf : List UInt8} (fits : (HandleOp.write buf).Fits s)
    (inside : WritesInside home (.write buf) s) :
    (File.write buf s).2 = s ∨ ∃ added, Kept home (cs ++ added) (File.write buf s).2 ∧
      Volume.Spares home (cs ++ added) (s.fs.volume home) ((File.write buf s).2.fs.volume home) := by
  refine near.toSized.write ?_ fits.1 fits.2
  rcases near.place with none_ | member | ⟨first, chain, current, cursor⟩
  · exact Or.inl none_
  · exact Or.inr (Or.inl member)
  · obtain ⟨inHeap, free⟩ := inside buf first cs.length rfl chain current
    refine Or.inr (Or.inr ⟨?_, inHeap, free, cursor⟩)
    rw [chain, current]
    rfl

/-- Reading at the end of the file does nothing. -/
theorem read_ended (mounted : s.fs.isMounted = true) (ended : s.file.details.dataLength ≤ s.file.cursor) (len : Nat) :
    (File.read len s).2 = s := by
  have eof : s.file.eof = true := decide_eq_true ended
  rw [File.read, Exec.bind_of_ok (mount_run mounted), Exec.bind_of_ok (Exec.get_apply s)]
  split
  · rfl
  · dsimp only
    rfl

theorem Near.run (near : Near home cs s) {op : HandleOp} (fits : op.Fits s) (inside : WritesInside home op s) :
    ∃ cs', Near home cs' (op.run s) := by
  cases op with
  | read len =>
    rcases near.place with none_ | member | ⟨first, chain, current, cursor⟩
    · exact ⟨cs, (Kept.read ⟨near.toSized, Or.inl none_⟩ len).near⟩
    · exact ⟨cs, (Kept.read ⟨near.toSized, Or.inr member⟩ len).near⟩
    · rw [HandleOp.run, read_ended near.layout.mounted (cursor ▸ near.toSized.fits)]
      exact ⟨cs, near⟩
  | seek c =>
    obtain ⟨r, s', run, sized, volume, moved, sought⟩ := near.toSized.seek c
    rw [HandleOp.run, run]
    refine ⟨cs, sized, ?_⟩
    have length : s'.fs.fs.clusterLength = s.fs.fs.clusterLength :=
      congrArg (fun v : Volume size => v.setup.details.clusterLength) volume
    cases sought with
    | outOfRange same => exact same ▸ near.place
    | nowhere empty remaining => exact Or.inl empty
    | inside here cursor => exact Or.inr (Or.inl (List.mem_of_getElem? here.1))
    | ended first chain final current cursor =>
      exact Or.inr (Or.inr ⟨first, moved.chain.trans chain, current, by rw [cursor, final, length]⟩)
    | stuck first last clusterCount chain current =>
      rcases near.place with none_ | member | ⟨_, other, _⟩
      · exact Or.inl none_
      · exact Or.inr (Or.inl (current ▸ member))
      · cases chain.symm.trans other
  | write buf =>
    rcases near.write fits inside with same | ⟨added, kept, _⟩
    · rw [HandleOp.run, same]
      exact ⟨cs, near⟩
    · exact ⟨cs ++ added, kept.near⟩

theorem Near.runs (near : Near home cs s) (runs : HandleOp.Runs (WritesInside home) s s') :
    ∃ cs', Near home cs' s' := by
  induction runs with
  | start => exact ⟨cs, near⟩
  | next op _ fits inside ih =>
    obtain ⟨cs₁, near₁⟩ := ih
    exact near₁.run fits inside

end FileSession

namespace FileSystem

open FileSession File

variable {size n : Nat} {home : Nat → CacheKind} {fs fs' : FileSystem size n} {fuel : Nat} {path : List Char}
  {options : OpenOptions} {file : File}

/-- The handle of an empty file is on every volume. -/
theorem owns_nil (v : Volume size) (noFatChain : Bool) : v.Owns home noFatChain .empty [] where
  lists := rfl
  threads _ := ⟨.nil, fun c none_ => by cases none_⟩
  stored _ _ _ same := by cases same
  distinct := .nil
  inHeap c none_ := by cases none_
  used c none_ := by cases none_
  data c none_ := by cases none_

section Opened

variable (fit : fs.Fit home)
  (stored : ∀ details fs₁, findFileInner fuel path (some attrArchive) fs = (.ok details, fs₁) →
  ∃ cs, (fs.volume home).Stores home details cs) (opens : «open» fuel path options fs = (.ok file, fs'))

include fit stored opens

theorem open_kept (left : fs'.Fit home) : ∃ cs, Kept home cs ⟨fs', file⟩ := by
  obtain ⟨details, cs, rfl, ⟨_, _, stores⟩ | ⟨rfl, empty, valid⟩⟩ := open_ok fit stored opens
  · exact ⟨cs, left.kept stores options⟩
  · exact ⟨[], left.kept (stores_nil left.layout empty valid) options⟩

/-- The position of a handle denotes its cursor when `open` returns it, unless it is opened for
appending and the valid data do not end in the last cluster, and again after every seek that
succeeds, unless the seek is to the very end of a contiguous chain. -/
theorem position_denotes_cursor_iff : ∃ cs, (fs'.volume home).Owns home file.details.flags.noFatChain file.chain cs ∧
    (Positioned fs'.fs.clusterLength cs file ↔ options.append = false ∨ cs = [] ∨
      file.details.validDataLength / fs'.fs.clusterLength + 1 = cs.length) ∧
    (fs'.Fit home → ∀ s, HandleOp.Runs SeeksInside ⟨fs', file⟩ s → ∀ c s', File.seek c s = (.ok (), s') →
      ∃ cs', (s'.fs.volume home).Owns home s'.file.details.flags.noFatChain s'.file.chain cs' ∧
        (Positioned s'.fs.fs.clusterLength cs' s'.file ↔ ¬ AtEnd c s)) := by
  have later : fs'.Fit home → ∀ s, HandleOp.Runs SeeksInside ⟨fs', file⟩ s → ∀ c s', File.seek c s = (.ok (), s') →
      ∃ cs', (s'.fs.volume home).Owns home s'.file.details.flags.noFatChain s'.file.chain cs' ∧
        (Positioned s'.fs.fs.clusterLength cs' s'.file ↔ ¬ AtEnd c s) := by
    intro left s runs c s' run
    obtain ⟨cs₀, kept₀⟩ := open_kept fit stored opens left
    obtain ⟨cs, kept⟩ := kept₀.runs runs
    obtain ⟨r, s₁, run₁, sized₁, _⟩ := kept.toSized.seek c
    cases run.symm.trans run₁
    exact ⟨cs, sized₁.owns, kept.toSized.seek_positioned_iff run⟩
  obtain ⟨details, cs, rfl, ⟨left, _, stores⟩ | ⟨rfl, empty, valid⟩⟩ := open_ok fit stored opens
  · exact ⟨cs, stores.owns, opened_positioned_iff left.layout stores options, later⟩
  · refine ⟨[], owns_nil _ _, iff_of_true (Or.inl ⟨rfl, ?_, rfl⟩) (Or.inr (Or.inl rfl)), later⟩
    simp [opened, valid]

/-- No write changes a data sector outside of the clusters of the file, in every run in which no
write is made right after a contiguous chain unless the cluster there is free. -/
theorem writes_stay_in_chain (left : fs'.Fit home) {s : FileSession size n}
    (runs : HandleOp.Runs (WritesInside home) ⟨fs', file⟩ s) {buf : List UInt8} (fits : (HandleOp.write buf).Fits s)
    (inside : WritesInside home (.write buf) s) :
    ∃ cs, ((File.write buf s).2.fs.volume home).Owns home (File.write buf s).2.file.details.flags.noFatChain
        (File.write buf s).2.file.chain cs ∧
      ∀ t, home t = .data → ((File.write buf s).2.fs.volume home).sectors t ≠ (s.fs.volume home).sectors t →
        ∃ c ∈ cs, ∃ i < s.fs.fs.sectorsPerCluster, t = (s.fs.volume home).dataSector c i := by
  obtain ⟨cs₀, kept₀⟩ := open_kept fit stored opens left
  obtain ⟨cs, near⟩ := kept₀.near.runs runs
  rcases near.write fits inside with same | ⟨added, kept, spares⟩
  · rw [same]
    exact ⟨cs, near.owns, fun t _ changed => absurd rfl changed⟩
  · refine ⟨cs ++ added, kept.owns, fun t here changed => ?_⟩
    by_contra outside
    refine changed (spares t here fun c member i small same => outside ⟨c, member, i, small, same⟩)

end Opened

/-- The entry set of a file whose name is one unit, without a FAT chain. -/
def archiveSet (unit nameHash first length : Nat) : List RawDirEntry :=
  [FileDirEntry.serialize {
      secondaryCount := 2, setChecksum := 0, fileAttributes := attrArchive, createTimestamp := minTimestamp
      lastModifiedTimestamp := minTimestamp, lastAccessedTimestamp := minTimestamp, create10msIncrement := 0
      lastModified10msIncrement := 0, createUtcOffset := 0, lastModifiedUtcOffset := 0, lastAccessedUtcOffset := 0 },
    StreamExtensionDirEntry.serialize {
      generalSecondaryFlags := Session.allocatedFlags, nameLength := 1, nameHash, validDataLength := length
      firstCluster := first, dataLength := length },
    fileNameSerialize [unit]]

/-- A volume with a file `f` in the clusters 3 and 4, and a file `g` in cluster 5. -/
def pairVolume : FileSystem 512 1 :=
  { File.smallVolume with
    dev := ⟨fun s =>
      if s = 10 then fun i => if i.val = 0 then 15 else 0
      else if s = 100 then entrySector (archiveSet 102 35 3 1024 ++ archiveSet 103 32803 5 512)
      else fun _ => 0, [], []⟩
    upcaseTable := .default }

def pairOptions : OpenOptions := { read := true, write := true }

def pairDetails : FileDetails where
  firstCluster := 3
  dataLength := 1024
  validDataLength := 1024
  attributes := attrArchive
  location := ⟨100, 0⟩
  flags := Session.allocatedFlags
  secondaryCount := 2
  created := {}
  modified := {}
  accessed := {}

/-- The handle of `f`. -/
def pairSession : FileSession 512 1 :=
  ⟨(«open» 40 ['f'] pairOptions pairVolume).2, opened pairDetails [3, 4] 512 pairOptions⟩

theorem pairVolume_data (c : Nat) : (pairVolume.volume smallHome).IsData smallHome c := by
  intro i inside
  have one : i < 1 := inside
  have sector : (pairVolume.volume smallHome).dataSector c i = 100 + (c - 2) * 1 + i := rfl
  rw [sector, smallHome, if_neg (by omega), if_neg (by omega)]

theorem pairVolume_fit : pairVolume.Fit smallHome where
  sound := sound_of_new _ rfl fun k => by cases k <;> rfl
  layout := smallVolume_layout.of_same rfl rfl rfl rfl
  search := le_rfl
  room c _ _ := pairVolume_data c

theorem pairVolume_stores : (pairVolume.volume smallHome).Stores smallHome pairDetails [3, 4] where
  count := by decide
  valid := le_rfl
  first c head := (Option.some.inj head).symm
  contiguous _ := rfl
  linked flag := by cases flag
  distinct := by decide
  inHeap c member := by
    rcases List.mem_pair.mp member with rfl | rfl <;> exact ⟨by decide, by decide⟩
  used c member := by
    unfold Volume.IsFree
    rcases List.mem_pair.mp member with rfl | rfl <;> decide +kernel
  data c _ := pairVolume_data c

theorem pairVolume_stored : ∀ details fs₁, findFileInner 40 ['f'] (some attrArchive) pairVolume = (.ok details, fs₁) →
    ∃ cs, (pairVolume.volume smallHome).Stores smallHome details cs := by
  intro details fs₁ found
  have same : (findFileInner 40 ['f'] (some attrArchive) pairVolume).1 = .ok pairDetails := by decide +kernel
  rw [found] at same
  cases same
  exact ⟨[3, 4], pairVolume_stores⟩

theorem pairSession_opened : «open» 40 ['f'] pairOptions pairVolume = (.ok pairSession.file, pairSession.fs) ∧
    pairSession.fs.Fit smallHome :=
  open_found_state pairVolume_fit (by decide +kernel) pairVolume_stores rfl rfl

theorem position_denotes_cursor_iff_pair :
    ∃ cs, (pairSession.fs.volume smallHome).Owns smallHome true (.contiguous 3 2) cs ∧
    Positioned 512 cs pairSession.file := by
  obtain ⟨opens, _⟩ := pairSession_opened
  obtain ⟨cs, owns, iff_, _⟩ := position_denotes_cursor_iff pairVolume_fit pairVolume_stored opens
  have length : pairSession.fs.fs.clusterLength = 512 := by decide +kernel
  rw [length] at iff_
  exact ⟨cs, owns, iff_.mpr (Or.inl rfl)⟩

/-- After a seek to the end of `f` the handle is at the cluster of `g`. -/
theorem seek_leaves_chain :
    pairVolume.Fit smallHome ∧ (pairVolume.volume smallHome).Stores smallHome pairDetails [3, 4] ∧
    «open» 40 ['f'] pairOptions pairVolume = (.ok pairSession.file, pairSession.fs) ∧
    1024 ≤ pairSession.file.details.validDataLength ∧ (File.seek 1024 pairSession).1 = .ok () ∧
    (File.seek 1024 pairSession).2.file.chain = .contiguous 3 2 ∧
    ¬ Positioned 512 [3, 4] (File.seek 1024 pairSession).2.file := by
  refine ⟨pairVolume_fit, pairVolume_stores, pairSession_opened.1, le_rfl, by decide +kernel, by decide +kernel, ?_⟩
  have current : (File.seek 1024 pairSession).2.file.currentCluster = 5 := by decide +kernel
  have foreign : (File.seek 1024 pairSession).2.file.currentCluster ∉ [3, 4] := by
    rw [current]
    decide
  rintro (⟨none_, _⟩ | inside | past)
  · cases none_
  · exact foreign (List.mem_of_getElem? inside.1)
  · exact foreign (List.mem_of_getElem? past.2.2.2)

theorem writes_stay_in_chain_pair : ∃ cs, ((File.write [1] pairSession).2.fs.volume smallHome).Owns smallHome
      (File.write [1] pairSession).2.file.details.flags.noFatChain (File.write [1] pairSession).2.file.chain cs ∧
    ∀ t, smallHome t = .data → ((File.write [1] pairSession).2.fs.volume smallHome).sectors t ≠
      (pairSession.fs.volume smallHome).sectors t →
      ∃ c ∈ cs, ∃ i < pairSession.fs.fs.sectorsPerCluster, t = (pairSession.fs.volume smallHome).dataSector c i := by
  obtain ⟨opens, left⟩ := pairSession_opened
  refine writes_stay_in_chain pairVolume_fit pairVolume_stored opens left .start
    ⟨by decide +kernel, by decide +kernel⟩ ?_
  intro buf first clusterCount _ chain current
  cases chain
  cases current

def otherDetails : FileDetails :=
  { pairDetails with firstCluster := 5, dataLength := 512, validDataLength := 512, location := ⟨100, 3⟩ }

theorem otherDetails_stores : (pairVolume.volume smallHome).Stores smallHome otherDetails [5] where
  count := by decide
  valid := le_rfl
  first c head := (Option.some.inj head).symm
  contiguous _ := rfl
  linked flag := by cases flag
  distinct := by decide
  inHeap c member := by
    rw [List.mem_singleton.mp member]
    exact ⟨by decide, by decide⟩
  used c member := by
    unfold Volume.IsFree
    rw [List.mem_singleton.mp member]
    decide +kernel
  data c _ := pairVolume_data c

theorem owns_three {v : Volume size} {a b c : Nat} {cs : List Nat} (owns : v.Owns home false (.fat a c 3) cs)
    (second : v.next a = some b) : cs = [a, b, c] := by
  obtain ⟨head, last, length⟩ := owns.lists
  obtain ⟨x, y, z, rfl⟩ := List.length_eq_three.mp length
  have next := (owns.threads rfl).next_eq (j := 0) rfl
  cases head
  cases last
  rw [second] at next
  cases next
  rfl

/-- A byte that is written at the end of `f` goes into the cluster of `g`, and the chain of `f` goes on elsewhere. -/
theorem write_reaches_other_file :
    pairVolume.Fit smallHome ∧ (pairVolume.volume smallHome).Stores smallHome pairDetails [3, 4] ∧
    (findFileInner 40 ['g'] (some attrArchive) pairVolume).1 = .ok otherDetails ∧
    (pairVolume.volume smallHome).Stores smallHome otherDetails [5] ∧
    «open» 40 ['f'] pairOptions pairVolume = (.ok pairSession.file, pairSession.fs) ∧
    ∃ s s' : FileSession 512 1, File.seek 1024 pairSession = (.ok (), s) ∧ File.write
    [1] s = (.ok (), s') ∧ smallHome 103 = .data ∧
      (s'.fs.volume smallHome).sectors 103 ≠ (s.fs.volume smallHome).sectors 103 ∧
      ∀ cs, (s'.fs.volume smallHome).Owns smallHome s'.file.details.flags.noFatChain s'.file.chain cs →
        ∀ c ∈ cs, ∀ i < s.fs.fs.sectorsPerCluster, 103 ≠ (s.fs.volume smallHome).dataSector c i := by
  refine ⟨pairVolume_fit, pairVolume_stores, by decide +kernel, otherDetails_stores, pairSession_opened.1,
    (File.seek 1024 pairSession).2, (File.write [1] (File.seek 1024 pairSession).2).2,
    Exec.run_of_fst (by decide +kernel), Exec.run_of_fst (by decide +kernel), rfl, fun same => ?_, fun cs owns => ?_⟩
  · have before : ((File.seek 1024 pairSession).2.fs.volume smallHome).sectors 103 0 = 0 := by decide +kernel
    have after : ((File.write [1] (File.seek 1024 pairSession).2).2.fs.volume smallHome).sectors 103 0 = 1 := by
      decide +kernel
    rw [same, before] at after
    cases after
  · have flag : (File.write [1] (File.seek 1024 pairSession).2).2.file.details.flags.noFatChain = false := by
      decide +kernel
    have chain : (File.write [1] (File.seek 1024 pairSession).2).2.file.chain = .fat 3 6 3 := by decide +kernel
    have second : ((File.write [1] (File.seek 1024 pairSession).2).2.fs.volume smallHome).next 3 = some 4 := by
      decide +kernel
    have one : (File.seek 1024 pairSession).2.fs.fs.sectorsPerCluster = 1 := by decide +kernel
    have heap : (File.seek 1024 pairSession).2.fs.fs.clusterHeapOffset = 100 := by decide +kernel
    have sector : ∀ c i, ((File.seek 1024 pairSession).2.fs.volume smallHome).dataSector c i =
        100 + (c - 2) * 1 + i := by
      intro c i
      have here : ∀ fs : FileSystem 512 1, (fs.volume smallHome).dataSector c i =
        fs.fs.clusterHeapOffset + (c - 2) * fs.fs.sectorsPerCluster + i := fun _ => rfl
      rw [here, heap, one]
    rw [flag, chain] at owns
    rw [one]
    intro c member i first
    rw [sector]
    rw [owns_three owns second] at member
    simp only [List.mem_cons, List.not_mem_nil, or_false] at member
    omega

end FileSystem

end ExFatSlim
