import ExFatSlim.FsRuns
import ExFatSlim.Reading

namespace ExFatSlim

/-- `FileHandle::read` with the reply to its request: what it returns, and the buffer of the caller after it. -/
def FileHandle.read (buf : List UInt8) : Except FsError FsResp → Except (Fault FsError) (Option Nat × List UInt8)
  | .ok (.read data) =>
    if data.isEmpty then .ok (none, buf)
    else if data.length ≤ buf.length then .ok (some data.length, File.filled buf data)
    else .error .panic
  | .ok _ => .error (.error .unexpectedResponse)
  | .error e => .error (.error e)

/-- The reply of the actor: the bytes that were read, and zeros up to the length of the buffer. -/
def FileHandle.padded (bytes : List UInt8) (len : Nat) : List UInt8 := bytes ++ List.replicate (len - bytes.length) 0

theorem FileHandle.length_padded {bytes : List UInt8} {len : Nat} (fits : bytes.length ≤ len) :
    (padded bytes len).length = len := by
  rw [padded, List.length_append, List.length_replicate]
  omega

/-- The client takes such a reply for a full read. -/
theorem FileHandle.read_padded {buf bytes : List UInt8} (fits : bytes.length ≤ buf.length) :
    FileHandle.read buf (.ok (.read (padded bytes buf.length))) =
      .ok (if buf = [] then (none, buf) else (some buf.length, padded bytes buf.length)) := by
  have length := length_padded fits
  by_cases nothing : buf = []
  · subst nothing
    have empty : padded bytes ([] : List UInt8).length = [] := List.eq_nil_of_length_eq_zero length
    rw [FileHandle.read, empty]
    rfl
  · have some_ : (padded bytes buf.length).isEmpty = false := by
      rw [List.isEmpty_eq_false_iff, ← List.length_pos_iff, length]
      exact List.length_pos_iff.mpr nothing
    rw [FileHandle.read, some_, if_neg Bool.false_ne_true, if_pos length.le, if_neg nothing, File.filled, length,
      List.drop_length,
      List.append_nil]

namespace FsManager

variable {size n : Nat} [NeZero n] {fuel : Nat} {cause : DeviceError} {handle : UInt32} {m : FsManager size n}
  {fs : FileSystem size n} {stored : Stored File} {buf : List UInt8}

/-- A read through the actor returns what `read` on the same handle has returned, and leaves the same state. -/
def ReadsAs (fuel : Nat) (cause : DeviceError) (handle : UInt32) (buf : List UInt8) (m : FsManager size n)
    (result : Option Nat × List UInt8) (s : FileSession size n) : Prop :=
  ∃ answer m', m.round fuel (.request (.readFile handle buf.length) cause) = some (some answer, m') ∧
    FileHandle.read buf answer = .ok result ∧ m'.fileSystem = some s.fs ∧
    (m'.files.get handle).map (·.item) = some s.file

/-- The reply to a request to read holds the whole buffer. -/
theorem round_readFile (present : m.fileSystem = some fs) (missing : m.dev = none)
    (here : m.files.get handle = some stored)
    {len : Nat} {result : Option (List UInt8)} {s : FileSession size n}
    (run : File.read len ⟨fs, stored.item⟩ = (.ok result, s)) :
    m.round fuel (.request (.readFile handle len) cause) =
      some (some (.ok (.read (FileHandle.padded (result.getD []) len))),
        { m with fileSystem := some s.fs, files := m.files.put handle { stored with item := s.file } }) := by
  have mounted : mount cause m = (.ok (), m) := by
    rw [mount, missing]
    simp only [present]
  have served : Mounted.serve fuel cause (.readFile handle len)
    (⟨fs, m.files, m.directories, m.served⟩ : Mounted size n) =
      (.ok (.read (FileHandle.padded (result.getD []) len)),
        ⟨s.fs, m.files.put handle { stored with item := s.file }, m.directories, m.served⟩) := by
    rw [Mounted.serve, Exec.bind_apply, Mounted.onFile]
    simp only [here, run, Mounted.convert]
    rfl
  have handled : handleReq fuel cause (.readFile handle len) m =
      (.ok (.read (FileHandle.padded (result.getD []) len)),
        { m with fileSystem := some s.fs, files := m.files.put handle { stored with item := s.file } }) := by
    refine (Exec.bind_of_ok mounted).trans ?_
    rw [onMounted]
    simp only [present, served]
  simp only [round, handled]

/-- A read through the actor agrees with a direct one if the file has as many bytes left as are
asked for, and some are, or if none are asked for at the end of the file. -/
theorem read_agrees_iff (present : m.fileSystem = some fs) (missing : m.dev = none)
    (here : m.files.get handle = some stored)
    {result : Option Nat × List UInt8} {s : FileSession size n}
    (direct : File.readInto buf ⟨fs, stored.item⟩ = (.ok result, s)) : ReadsAs fuel cause handle buf m result s ↔
      (0 < buf.length ∧ stored.item.cursor + buf.length ≤ stored.item.details.dataLength) ∨
        (buf = [] ∧ stored.item.details.dataLength ≤ stored.item.cursor) := by
  rw [File.readInto_eq] at direct
  obtain ⟨read, s', run, last⟩ := Exec.bind_eq_ok.mp direct
  cases last
  have round : m.round fuel (.request (.readFile handle buf.length) cause) = some (some (.ok (.read (FileHandle.padded
      (read.getD []) buf.length))),
        { m with fileSystem := some s.fs, files := m.files.put handle { stored with item := s.file } }) :=
    round_readFile present missing here run
  have files : (m.files.put handle { stored with item := s.file }).get handle =
      some { stored with item := s.file } := by
    rw [Handles.get_put, if_pos rfl]
  -- what the client returns decides
  have decides : ∀ {bytes : List UInt8}, read.getD [] = bytes → bytes.length ≤ buf.length →
      (ReadsAs fuel cause handle buf m (File.delivered buf read) s ↔
        (if buf = [] then (none, buf) else (some buf.length, FileHandle.padded bytes buf.length)) =
          File.delivered buf read) := by
    rintro bytes rfl fits
    constructor
    · rintro ⟨answer, m', run', read', _, _⟩
      rw [round] at run'
      cases run'
      rw [FileHandle.read_padded fits] at read'
      exact Except.ok.inj read'
    · intro same
      refine ⟨_, _, round, ?_, rfl, by rw [files]; rfl⟩
      rw [FileHandle.read_padded fits, same]
  rcases File.read_count run with ⟨rfl, ended⟩ | ⟨bytes, rfl, before, count⟩
  · have ended : stored.item.details.dataLength ≤ stored.item.cursor := ended
    rw [decides rfl (Nat.zero_le _)]
    by_cases nothing : buf = []
    · rw [if_pos nothing]
      exact iff_of_true rfl (Or.inr ⟨nothing, ended⟩)
    · rw [if_neg nothing]
      refine iff_of_false (by simp [File.delivered]) ?_
      rintro (⟨some_, room⟩ | ⟨none_, _⟩)
      · omega
      · exact nothing none_
  · have before : stored.item.cursor < stored.item.details.dataLength := before
    have count : bytes.length = min buf.length (stored.item.details.dataLength - stored.item.cursor) := count
    rw [@decides bytes rfl (count.le.trans (Nat.min_le_left _ _))]
    by_cases nothing : buf = []
    · rw [if_pos nothing]
      refine iff_of_false (by simp [File.delivered]) ?_
      rintro (⟨some_, _⟩ | ⟨_, ended⟩)
      · rw [nothing, List.length_nil] at some_
        omega
      · omega
    · have some_ := List.length_pos_iff.mpr nothing
      rw [if_neg nothing]
      constructor
      · intro same
        have number : buf.length = bytes.length := Option.some.inj (Prod.mk.inj same).1
        exact Or.inl ⟨some_, by omega⟩
      · rintro (⟨_, room⟩ | ⟨_, ended⟩)
        · have number : bytes.length = buf.length := by omega
          have whole : FileHandle.padded bytes buf.length = File.filled buf bytes := by
            rw [FileHandle.padded, File.filled, number, Nat.sub_self, List.drop_length]
            rfl
          rw [whole, File.delivered, number]
        · omega

/-- The actor with one file open, under handle 1. -/
def holding (fs : FileSystem size n) (file : File) : FsManager size n where
  dev := none
  fileSystem := some fs
  files := Handles.new.put 1 ⟨file, 0⟩
  directories := .new
  timeProvider := none
  clock := 0
  usizeBits := fs.usizeBits
  served := 1

omit [NeZero n] in
theorem holding_get (fs : FileSystem size n) (file : File) : (holding fs file).files.get 1 = some ⟨file, 0⟩ := by
  rw [holding, Handles.get_put, if_pos rfl]

open FileSystem in
/-- Three bytes at the start of `f`. -/
theorem read_agrees_iff_start :
    ∃ s, File.readInto [1, 2, 3] (⟨pairVolume, opened pairDetails [3, 4] 512 pairOptions⟩ :
      FileSession 512 1) = (.ok (some 3, [0, 0, 0]), s) ∧
    ReadsAs 40 ⟨0, false⟩ 1
    [1, 2, 3] (holding pairVolume (opened pairDetails [3, 4] 512 pairOptions)) (some 3, [0, 0, 0]) s := by
  refine ⟨_, Exec.run_of_fst (by decide +kernel), ?_⟩
  exact (read_agrees_iff rfl rfl (holding_get _ _) (Exec.run_of_fst (by decide +kernel))).mpr
    (Or.inl ⟨by decide, by decide⟩)

open FileSystem in
/-- The handle of `f`, one byte before its end. -/
def lastByte : FileSession 512 1 := (File.seek 1023 ⟨pairVolume, opened pairDetails [3, 4] 512 pairOptions⟩).2

/-- A short read at the end of a file comes back as a full one. -/
theorem short_read_is_padded : (File.readInto [1, 2] lastByte).1 = .ok (some 1, [0, 2]) ∧
    ¬ ReadsAs 40 ⟨0, false⟩ 1
    [1, 2] (holding lastByte.fs lastByte.file) (some 1, [0, 2]) (File.readInto [1, 2] lastByte).2 ∧
    ∃ answer m', (holding lastByte.fs lastByte.file).round 40 (.request (.readFile 1 2) ⟨0, false⟩) =
      some (some answer, m') ∧
      FileHandle.read [1, 2] answer = .ok (some 2, [0, 0]) := by
  have read : File.read 2 (⟨lastByte.fs, lastByte.file⟩ : FileSession 512 1) =
    (.ok (some [0]), (File.read 2 lastByte).2) :=
    Exec.run_of_fst (by decide +kernel)
  have round : (holding lastByte.fs lastByte.file).round 40 (.request (.readFile 1 2) ⟨0, false⟩) = _ :=
    round_readFile rfl rfl (holding_get _ _) read
  have client : FileHandle.read [1, 2] (.ok (.read (FileHandle.padded [0] 2))) = .ok (some 2, [0, 0]) :=
    FileHandle.read_padded (by decide)
  refine ⟨by decide +kernel, ?_, _, _, round, client⟩
  rintro ⟨answer, m', run, same, _⟩
  rw [show ([1, 2] : List UInt8).length = 2 from rfl, round] at run
  cases run
  have shown : FileHandle.read [1, 2] (.ok (.read (FileHandle.padded [0] 2))) = .ok (some 1, [0, 2]) := same
  rw [client] at shown
  cases shown

end FsManager

end ExFatSlim
