import ExFatSlim.Catalogs
import ExFatSlim.Copying
import ExFatSlim.Reading

namespace ExFatSlim

namespace Volume

variable {size : Nat} {home : Nat → CacheKind} {v : Volume size} {details : FileDetails} {chain : StoredChain}
  {cs : List Nat}

/-- Details with a chain's first cluster and flags stand for its clusters. -/
theorem Owns.stores (owns : v.Owns home details.flags.noFatChain chain cs)
    (count : cs.length = FileSystem.divCeil details.dataLength v.setup.details.clusterLength)
    (valid : details.validDataLength ≤ details.dataLength)
    (first : details.firstCluster = File.firstClusterOf chain) :
    v.Stores home details cs where
  count := count
  valid := valid
  first c head := by
    have lists := owns.lists
    rw [first]
    cases chain with
    | empty =>
      rw [show cs = [] from lists] at head
      cases head
    | contiguous start clusterCount =>
      obtain ⟨some_, rfl⟩ := lists
      rw [List.head?_range'] at head
      simp only [Nat.pos_iff_ne_zero.mp some_, if_false, Option.mem_def, Option.some_inj] at head
      exact head.symm
    | fat start last clusterCount => exact Option.some.inj ((Option.mem_def.mp head).symm.trans lists.1)
  contiguous flag := by
    have lists := owns.lists
    rw [first]
    cases chain with
    | empty =>
      rw [show cs = [] from lists]
      rfl
    | contiguous start clusterCount =>
      obtain ⟨some_, rfl⟩ := lists
      rw [List.length_range']
      rfl
    | fat start last clusterCount =>
      have stored := owns.stored start last clusterCount rfl
      rw [flag] at stored
      cases stored
  linked := owns.threads
  distinct := owns.distinct
  inHeap := owns.inHeap
  used := owns.used
  data := owns.data

end Volume

namespace File

open FileSession

variable {size n : Nat} {home : Nat → CacheKind} {s s' : FileSession size n} {cs : List Nat}

/-- The bytes of the file. -/
def wholeContent (v : Volume size) (cs : List Nat) (file : File) : List UInt8 :=
  (List.range file.details.dataLength).map (contentByte v cs file)

/-- `read_to_end` from the start of a file that fits into a buffer reads all of it. -/
theorem readToEnd_whole (readable : Readable home cs s) (start : s.file.cursor = 0)
    (short : s.file.details.dataLength < 2 ^ s.fs.usizeBits) :
    ∃ s', readToEnd s = (.ok (wholeContent (s.fs.volume home) cs s.file), s') ∧
      s'.fs.Sound home ∧ s'.fs.volume home = s.fs.volume home ∧ s'.file.touched = s.file.touched := by
  have mounted : s.fs.isMounted = true := readable.layout.mounted
  have valid := readable.valid
  have begin : readToEnd s = readToEndIn s.file.details.dataLength s.file.details.dataLength [] s := by
    rw [readToEnd, Exec.bind_of_ok (mount_run mounted), Exec.bind_of_ok (Exec.get_apply s), start, Nat.sub_zero,
      Nat.mod_eq_of_lt short,
      readable.enabled]
    rfl
  rw [begin]
  rcases Nat.eq_zero_or_pos s.file.details.dataLength with none_ | some_
  · refine ⟨s, ?_, readable.sound, rfl, rfl⟩
    rw [wholeContent, none_]
    rfl
  · have flows : ¬ Stalls s s.file.details.dataLength := by
      rintro ⟨large, _⟩
      rw [start, Nat.sub_zero] at large
      omega
    obtain ⟨bytes, s', run, has⟩ := readable.read (by rw [start]; exact some_) flows
    have touched : s'.file.touched = s.file.touched := by
      have moves : Moves home (Reads home : FileSession size n → FileSession size n → Prop) := reads_moves
      have reads := File.read_respects moves s.file.details.dataLength s
      rw [run] at reads
      exact reads.touched
    have length : bytes.length = s.file.details.dataLength := by
      rcases read_count run with ⟨none_, _⟩ | ⟨_, same, _, count⟩
      · cases none_
      · cases same
        rw [count, start, Nat.sub_zero, Nat.min_self]
    have whole : bytes = wholeContent (s.fs.volume home) cs s.file := by
      refine List.ext_getElem (by simp [wholeContent, length]) fun i inside _ => ?_
      rw [has.content i inside, start, Nat.zero_add]
      simp [wholeContent]
    refine ⟨s', ?_, has.readable.sound, has.volume, touched⟩
    obtain ⟨rounds, more⟩ := Nat.exists_eq_succ_of_ne_zero some_.ne'
    have filled : bytes.isEmpty = false := by
      rw [List.isEmpty_eq_false_iff, ← List.length_pos_iff]
      omega
    rw [more, readToEndIn, List.length_nil, if_neg (by omega), Nat.sub_zero, ← more, Exec.bind_of_ok run]
    dsimp only
    rw [filled, if_neg Bool.false_ne_true, List.nil_append, whole.symm]
    cases rounds with
    | zero => rfl
    | succ rounds =>
      rw [readToEndIn, if_pos length.ge]
      rfl

end File

namespace Volume

variable {size start : Nat} {home : Nat → CacheKind} {v v' : Volume size} {cs : List Nat} {bytes : List UInt8}

/-- What is put into a file changes its clusters. -/
theorem Spliced.changes (spliced : Spliced home cs start bytes v v') (layout : Layout size home v.setup)
    (inHeap : ∀ c ∈ cs, v.InHeap c) :
    Changes home {c | c ∈ cs} v v' := by
  have edited : Edited home v v' := ⟨by rw [spliced.rewritten.setup], spliced.rewritten.others⟩
  refine edited.changes layout (fun c member => (inHeap c member).1) fun s _ apart =>
    spliced.foreign s fun k inside same => ?_
  obtain ⟨index, offset⟩ := fileSector_cluster layout inside
  rw [fileSector, List.getD_eq_getElem _ _ index] at same
  exact apart _ (List.getElem_mem index) _ offset same

end Volume

namespace FileSession

open File Volume

variable {size n : Nat} {home : Nat → CacheKind} {s : FileSession size n}

/-- The file, which was empty, has the bytes `contents` in the clusters `cs`, which were free. -/
structure Fills (home : Nat → CacheKind) (contents : List UInt8) (cs : List Nat)
    (s s' : FileSession size n) : Prop where
  holds : Holds home cs s'
  changes : Changes home {c | c ∈ cs} (s.fs.volume home) (s'.fs.volume home)
  fresh : ∀ c ∈ cs, (s.fs.volume home).InHeap c ∧ (s.fs.volume home).IsFree c
  count : cs.length = FileSystem.divCeil contents.length s.fs.fs.clusterLength
  bytes : ∀ i (inside : i < contents.length), (s'.fs.volume home).fileByte cs i = contents[i]
  details : s'.file.details = { s.file.details with
    flags := s'.file.details.flags
    dataLength := contents.length
    validDataLength := contents.length }
  dirty : s'.file.touched.isDirEntryDirty = true

theorem sameEntry_edits : Edits home (SameEntry : FileSession size n → FileSession size n → Prop) where
  use _ := onFs_sameEntry _
  move _ same s := congrArg FileDirty.isDirEntryDirty (same s.file)
  edit _ _ := .bind (onFs_sameEntry _) fun _ => onSession_sameEntry (Session.insert_sameEntry _)

/-- Writing to an empty file with room for it fills it. -/
theorem Writable.fills (writable : Writable home [] s) {contents : List UInt8} (some_ : contents ≠ [])
    (addressable : contents.length < 2 ^ s.fs.usizeBits)
    (space : FileSystem.divCeil contents.length s.fs.fs.clusterLength ≤ (s.fs.volume home).freeClusters.card)
    (smooth : ¬ Trips size s.fs.fs.clusterLength 0 contents.length) :
    ∃ s' cs, File.write contents s = (.ok (), s') ∧ Fills home contents cs s s' := by
  have holds := writable.toHolds
  obtain ⟨_, pos, _⟩ := holds.clusterLength
  have nothing : s.file.details.dataLength = 0 := by
    have fits := le_divCeil_mul pos s.file.details.dataLength
    rw [← writable.clusters, List.length_nil, Nat.zero_mul] at fits
    exact Nat.le_zero.mp fits
  have valid : s.file.details.validDataLength = 0 := Nat.le_zero.mp (nothing ▸ writable.valid)
  have begin : s.file.cursor = 0 := Nat.le_zero.mp (valid ▸ writable.cursor)
  rw [← Nat.zero_add contents.length, ← begin] at space
  rw [← begin] at smooth
  obtain ⟨s₁, cs, run₁, holds₁, extended, grown, length⟩ := holds.reserve writable.clusters (by omega) addressable
    (by rw [List.length_nil, Nat.zero_add]; exact space)
  rw [List.nil_append] at holds₁
  rw [List.length_nil, Nat.zero_add, Nat.zero_max, begin, Nat.zero_add] at length
  obtain ⟨details₁, cursor₁, options₁⟩ := grown.kept
  have setup := extended.setup
  have clusterLength : s₁.fs.fs.clusterLength = s.fs.fs.clusterLength :=
    congrArg (fun u : Setup => u.details.clusterLength) setup
  have enough := le_divCeil_mul pos contents.length
  rw [← length] at enough
  have bound := holds₁.capacity
  rw [clusterLength] at bound
  have written := write_eq holds.layout.mounted writable.enabled some_
    (by rw [capacity, ← writable.clusters]; exact holds.capacity) (by omega)
  rw [Exec.bind_of_ok run₁, Exec.bind_of_ok (updateDataLength_run (by omega))] at written
  have denotes : Denotes s.fs.fs.clusterLength cs s₁.file := by
    rw [← List.nil_append cs]
    refine writable.position.extended (lists_empty holds.owns.lists) grown ?_
    rw [List.nil_append]
    rintro rfl
    rw [List.length_nil, Nat.zero_mul] at enough
    exact some_ (List.length_eq_zero_iff.mp (Nat.le_zero.mp enough))
  have valid₁ : s₁.file.details.validDataLength = 0 := by rw [details₁, valid]
  have data₁ : s₁.file.details.dataLength = 0 := by rw [details₁, nothing]
  have ends : max (s₁.file.cursor + contents.length) s₁.file.details.validDataLength = contents.length := by
    rw [cursor₁, begin, valid₁, Nat.zero_add, Nat.max_zero]
  rw [ends, data₁, Nat.max_zero] at written
  obtain ⟨s₂, ready⟩ : ∃ s₂ : FileSession size n, (⟨s₁.fs, { s₁.file with
    details := { s₁.file.details with validDataLength := contents.length, dataLength := contents.length }
    touched := { s₁.file.touched with isDirEntryDirty := true } }⟩ : FileSession size n) = s₂ := ⟨_, rfl⟩
  have written : File.write contents s = writeBytes contents s₂ := ready ▸ written
  have holds₂ : Holds home cs s₂ := ready ▸ holds₁.rewritten holds₁.sound (.refl _) rfl rfl
  have fs₂ : s₂.fs = s₁.fs := ready ▸ rfl
  have cursor₂ : s₂.file.cursor = 0 := by
    rw [← ready]
    exact cursor₁.trans begin
  have denotes₂ : Denotes s₂.fs.fs.clusterLength cs s₂.file := by
    rw [fs₂, clusterLength, ← ready]
    exact denotes
  rw [begin, ← clusterLength, ← fs₂, ← cursor₂] at smooth
  have room : s₂.file.cursor + contents.length ≤ cs.length * s₂.fs.fs.clusterLength := by
    rw [cursor₂, fs₂, clusterLength, Nat.zero_add]
    exact enough
  obtain ⟨s', run', put, _⟩ := writeBytes_put holds₂ denotes₂ some_ room smooth
  have more := extended.changes
  rw [List.nil_append, ← fs₂] at more
  refine ⟨s', cs, written.trans run', put.holds, ?_, extended.wasFree, length, fun i inside => ?_, ?_, ?_⟩
  · exact (more.trans (put.spliced.changes holds₂.layout holds₂.owns.inHeap)).mono (Set.union_self _).le
  · have byte : (s'.fs.volume home).fileByte cs i = _ := put.spliced.bytes i (by
      have clusters : (s₂.fs.volume home).setup.details.clusterLength = s.fs.fs.clusterLength := fs₂ ▸ clusterLength
      rw [clusters]
      exact lt_of_lt_of_le inside enough)
    rw [byte, cursor₂, if_pos ⟨Nat.zero_le i, by rw [Nat.zero_add]; exact inside⟩, Nat.sub_zero,
      List.getElem?_eq_getElem inside]
    rfl
  · rw [put.moved.details, ← ready, details₁]
  · have edits : Edits home (SameEntry : FileSession size n → FileSession size n → Prop) := sameEntry_edits
    have same := writeBytes_respects edits contents s₂
    rw [run'] at same
    refine Eq.trans same ?_
    rw [← ready]

end FileSession

end ExFatSlim
