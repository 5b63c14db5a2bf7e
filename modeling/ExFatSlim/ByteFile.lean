import ExFatSlim.Lib.Simulation
import ExFatSlim.FailedCalls
import ExFatSlim.Reading

namespace ExFatSlim

/-- What the caller of a handle is told. -/
inductive HandleReply where
  | bytes (out : Option (List UInt8))
  | done
  | failed (e : Fault ExFatError)
  deriving DecidableEq

/-- A file as the user of a handle sees it: the bytes that were written, the
length, up to which it reads as zeros, and the cursor. -/
structure ByteFile where
  written : List UInt8
  length : Nat
  cursor : Nat
  readable : Bool
  writable : Bool

namespace ByteFile

/-- What there is to read. -/
def content (f : ByteFile) : List UInt8 := f.written ++ List.replicate (f.length - f.written.length) 0

/-- The file with a buffer in the place of what is at the cursor. -/
def splice (f : ByteFile) (buf : List UInt8) : ByteFile :=
  { f with
    written := f.content.take f.cursor ++ buf ++ f.written.drop (f.cursor + buf.length)
    length := max f.length (f.cursor + buf.length)
    cursor := f.cursor + buf.length }

/-- What a call does. -/
def step : Machine HandleOp HandleReply ByteFile
  | .read len, f =>
    if f.readable = false then (.failed (.error .readNotEnabled), f)
    else if f.length ≤ f.cursor then (.bytes none, f)
    else
      let out := (f.content.drop f.cursor).take len
      (.bytes (some out), { f with cursor := f.cursor + out.length })
  | .seek cursor, f =>
    if f.written.length < cursor then (.failed (.error .seekOutOfRange), f) else (.done, { f with cursor })
  | .write buf, f =>
    if buf = [] then (.done, f)
    else if f.writable = false then (.failed (.error .writeNotEnabled), f)
    else (.done, f.splice buf)

end ByteFile

namespace HandleOp

variable {size n : Nat}

def replyUnit : Except (Fault ExFatError) Unit → HandleReply
  | .ok () => .done
  | .error e => .failed e

def replyBytes : Except (Fault ExFatError) (Option (List UInt8)) → HandleReply
  | .ok out => .bytes out
  | .error e => .failed e

/-- What a call on a handle answers, and what it leaves. -/
def call : Machine HandleOp HandleReply (FileSession size n)
  | .read len, s => (replyBytes (File.read len s).1, (File.read len s).2)
  | .seek cursor, s => (replyUnit (File.seek cursor s).1, (File.seek cursor s).2)
  | .write buf, s => (replyUnit (File.write buf s).1, (File.write buf s).2)

open FileSession in
/-- The calls that the code carries out: no read across the end of the word in
which the rest of the valid data is counted, no seek to the end of the last
cluster, no write from behind the valid data, no write that ends in the first
sector of a cluster that it enters, and no write for which there is no room. -/
def Regular (home : Nat → CacheKind) (op : HandleOp) (s : FileSession size n) : Prop :=
  match op with
  | .read len => ¬ Stalls s len
  | .seek c => c ≤ s.file.details.validDataLength → ¬ AtEnd c s ∧ ¬ AtFatEnd c s
  | .write buf => buf ≠ [] → s.file.openOptions.write = true →
      s.file.cursor ≤ s.file.details.validDataLength ∧ buf.length < 2 ^ s.fs.usizeBits ∧
      FileSystem.divCeil (s.file.cursor + buf.length) s.fs.fs.clusterLength ≤
        FileSystem.divCeil s.file.details.dataLength s.fs.fs.clusterLength + (s.fs.volume home).freeClusters.card ∧
      ¬ File.Trips size s.fs.fs.clusterLength s.file.cursor buf.length

end HandleOp

namespace FileSession

open File

variable {size n : Nat} {home : Nat → CacheKind} {s s' : FileSession size n} {cs : List Nat} {f : ByteFile}

/-- A handle whose position denotes its cursor stands for a file. -/
structure Stands (home : Nat → CacheKind) (cs : List Nat) (s : FileSession size n) (f : ByteFile) :
    Prop extends Formed home cs s where
  position : Positioned s.fs.fs.clusterLength cs s.file
  inside : s.file.cursor ≤ s.file.details.dataLength
  written : f.written = (List.range s.file.details.validDataLength).map ((s.fs.volume home).fileByte cs)
  length : f.length = s.file.details.dataLength
  cursor : f.cursor = s.file.cursor
  readable : f.readable = s.file.openOptions.read
  writable : f.writable = s.file.openOptions.write

theorem Stands.length_written (stands : Stands home cs s f) : f.written.length = s.file.details.validDataLength := by
  rw [stands.written, List.length_map, List.length_range]

theorem Stands.length_content (stands : Stands home cs s f) : f.content.length = s.file.details.dataLength := by
  have valid := stands.valid
  rw [ByteFile.content, List.length_append, List.length_replicate, stands.length_written, stands.length]
  omega

/-- The file reads as the bytes of its clusters up to the valid length, and as zeros after it. -/
theorem Stands.content_get (stands : Stands home cs s f) {i : Nat} (before : i < s.file.details.dataLength) :
    f.content[i]? = some (contentByte (s.fs.volume home) cs s.file i) := by
  have length := stands.length_written
  rw [ByteFile.content, contentByte]
  by_cases valid : i < s.file.details.validDataLength
  · rw [List.getElem?_append_left (by omega), if_pos valid, stands.written, List.getElem?_map,
      List.getElem?_range valid]
    rfl
  · rw [List.getElem?_append_right (by omega), if_neg valid, List.getElem?_replicate, if_pos]
    rw [stands.length, length]
    omega

theorem Stands.content_eq (stands : Stands home cs s f) :
    f.content = (List.range s.file.details.dataLength).map (contentByte (s.fs.volume home) cs s.file) := by
  refine List.ext_getElem? fun i => ?_
  by_cases before : i < s.file.details.dataLength
  · rw [stands.content_get before, List.getElem?_map, List.getElem?_range before]
    rfl
  · rw [List.getElem?_eq_none (by rw [stands.length_content]; omega), List.getElem?_eq_none (by simpa using before)]

theorem Stands.readable' (stands : Stands home cs s f) (enabled : s.file.openOptions.read = true) :
    Readable home cs s where
  toHolds := stands.toHolds
  enabled := enabled
  clusters := stands.clusters.ge
  valid := stands.valid
  position := stands.position

/-- The handle at another place of the same file. -/
theorem Stands.sent (stands : Stands home cs s f) (holds : Holds home cs s')
    (volume : s'.fs.volume home = s.fs.volume home)
    (moved : Moved s.file s'.file) (position : Positioned s'.fs.fs.clusterLength cs s'.file)
    (inside : s'.file.cursor ≤ s.file.details.dataLength) :
    Stands home cs s' { f with cursor := s'.file.cursor } where
  toHolds := holds
  clusters := by
    rw [moved.details, show s'.fs.fs = s.fs.fs from congrArg (fun v : Volume size => v.setup.details) volume]
    exact stands.clusters
  valid := by
    rw [moved.details]
    exact stands.valid
  position := position
  inside := by
    rw [moved.details]
    exact inside
  written := by
    rw [moved.details, volume]
    exact stands.written
  length := by
    rw [moved.details]
    exact stands.length
  cursor := rfl
  readable := by
    rw [moved.options]
    exact stands.readable
  writable := by
    rw [moved.options]
    exact stands.writable

theorem Stands.read (stands : Stands home cs s f) {len : Nat} (flows : ¬ Stalls s len) :
    (HandleOp.call (.read len) s).1 = (ByteFile.step (.read len) f).1 ∧
      Stands home cs (HandleOp.call (.read len) s).2 (ByteFile.step (.read len) f).2 := by
  rw [HandleOp.call, ByteFile.step, stands.readable, stands.length, stands.cursor]
  dsimp only
  cases enabled : s.file.openOptions.read with
  | false =>
    have run : File.read len s = (.error (.error .readNotEnabled), s) := by
      rw [File.read, Exec.bind_of_ok (mount_run stands.layout.mounted), Exec.bind_of_ok (Exec.get_apply s)]
      dsimp only
      rw [enabled]
      rfl
    rw [run]
    exact ⟨rfl, stands⟩
  | true =>
    have able := stands.readable' enabled
    by_cases ended : s.file.details.dataLength ≤ s.file.cursor
    · rw [able.read_at_end ended, if_neg (by simp), if_pos ended]
      exact ⟨rfl, stands⟩
    obtain ⟨bytes, s', run, has⟩ := able.read (Nat.lt_of_not_le ended) flows
    obtain ⟨none_, _⟩ | ⟨_, same, _, count⟩ := read_count run
    · cases none_
    cases same
    have out : bytes = (f.content.drop s.file.cursor).take len := by
      refine List.ext_getElem? fun i => ?_
      rw [List.getElem?_take, List.getElem?_drop]
      by_cases within : i < bytes.length
      · rw [if_pos (by omega), stands.content_get (by omega), List.getElem?_eq_getElem within, has.content i within]
      · rw [List.getElem?_eq_none (Nat.le_of_not_lt within)]
        split
        · rw [List.getElem?_eq_none]
          rw [stands.length_content]
          omega
        · rfl
    rw [run, if_neg (by simp), if_neg ended, ← out]
    have cursor := has.cursor
    refine ⟨rfl, ?_⟩
    have moved := stands.sent has.readable.toHolds has.volume has.moved has.readable.position (by omega)
    rw [stands.readable, enabled, stands.length, cursor] at moved
    exact moved

theorem Stands.seek (stands : Stands home cs s f) {c : Nat}
    (regular : c ≤ s.file.details.validDataLength → ¬ AtEnd c s ∧ ¬ AtFatEnd c s) :
    (HandleOp.call (.seek c) s).1 = (ByteFile.step (.seek c) f).1 ∧
      Stands home cs (HandleOp.call (.seek c) s).2 (ByteFile.step (.seek c) f).2 := by
  rw [HandleOp.call, ByteFile.step, stands.length_written]
  dsimp only
  by_cases far : s.file.details.validDataLength < c
  · rw [seek_far stands.layout.mounted far, if_pos far]
    exact ⟨rfl, stands⟩
  have near := Nat.le_of_not_lt far
  obtain ⟨notEnd, notFatEnd⟩ := regular near
  obtain ⟨s', run⟩ := (stands.toFormed.seek_near near).mpr notFatEnd
  have sized : Sized home cs s := ⟨stands.toHolds, stands.clusters.ge, stands.valid, stands.inside⟩
  obtain ⟨r, s₁, run₁, sized₁, volume, moved, sought⟩ := sized.seek c
  cases run.symm.trans run₁
  have position := (sized.seek_positioned_iff run).mpr notEnd
  have cursor : s'.file.cursor = c := by
    cases sought with
    | nowhere empty _ =>
      subst empty
      have nothing := sized₁.dataLength_nil
      have inside := sized₁.cursor
      have valid := stands.valid
      rw [← moved.details] at near valid
      omega
    | inside _ cursor => exact cursor
    | ended _ _ _ _ cursor => exact cursor
  have valid := stands.valid
  rw [run, if_neg far]
  refine ⟨rfl, ?_⟩
  have sent := stands.sent sized₁.toHolds volume moved position (by omega)
  rw [cursor] at sent
  exact sent

theorem Stands.writable' (stands : Stands home cs s f) (enabled : s.file.openOptions.write = true)
    (before : s.file.cursor ≤ s.file.details.validDataLength) : Writable home cs s where
  toHolds := stands.toHolds
  enabled := enabled
  clusters := stands.clusters
  position := stands.position
  cursor := before
  valid := stands.valid

/-- A write changes none of the options of its handle. -/
theorem Writable.write_options (writable : Writable home cs s) {buf : List UInt8} (nonempty : buf ≠ [])
    (addressable : buf.length < 2 ^ s.fs.usizeBits)
    (space : FileSystem.divCeil (s.file.cursor + buf.length) s.fs.fs.clusterLength ≤
      cs.length + (s.fs.volume home).freeClusters.card) :
    (File.write buf s).2.file.openOptions = s.file.openOptions := by
  obtain ⟨s₁, added, run, ready⟩ := writable.prepare nonempty addressable space
  have place : s₁.file.currentCluster ∈ cs ++ added := by
    rcases ready.denotes with inside | past
    · exact List.mem_of_getElem? inside.1
    · exact List.mem_of_getElem? past.2.2.2
  have wanders := writeBytes_wanders ready.holds place buf
  rw [run, wanders.moved.options, ready.options]

/-- The bytes of the file after a write, read from its clusters. -/
theorem Splices.written_eq {added : List Nat} {buf : List UInt8} (splices : Splices home cs added buf s s')
    (stands : Stands home cs s f) (before : s.file.cursor ≤ s.file.details.validDataLength) :
    (f.splice buf).written =
      (List.range s'.file.details.validDataLength).map ((s'.fs.volume home).fileByte (cs ++ added)) := by
  have valid := stands.valid
  have head : f.content.take f.cursor = f.written.take f.cursor := by
    rw [ByteFile.content, List.take_append_of_le_length]
    rw [stands.length_written, stands.cursor]
    exact before
  have old : ∀ i < s.file.details.validDataLength, f.written[i]? = some ((s.fs.volume home).fileByte cs i) := by
    intro i inside
    rw [stands.written, List.getElem?_map, List.getElem?_range inside]
    rfl
  have length := stands.length_written
  have cursor := stands.cursor
  have now := splices.validDataLength
  refine List.ext_getElem? fun i => ?_
  rw [ByteFile.splice, head]
  dsimp only
  rw [List.getElem?_map, List.append_assoc]
  by_cases first : i < s.file.cursor
  · rw [List.getElem?_append_left (by rw [List.length_take]; omega), List.getElem?_take, if_pos (by omega),
      old i (by omega),
      List.getElem?_range (by omega), ← splices.kept i (by omega) (Or.inl first)]
    rfl
  rw [List.getElem?_append_right (by rw [List.length_take]; omega), List.length_take,
    Nat.min_eq_left (by omega), cursor]
  by_cases second : i < s.file.cursor + buf.length
  · rw [List.getElem?_append_left (by omega), List.getElem?_eq_getElem (by omega), List.getElem?_range (by omega)]
    have here := splices.written (i - s.file.cursor) (by omega)
    rw [show s.file.cursor + (i - s.file.cursor) = i by omega] at here
    rw [← here]
    rfl
  rw [List.getElem?_append_right (by omega), List.getElem?_drop,
    show s.file.cursor + buf.length + (i - s.file.cursor - buf.length) = i by omega]
  by_cases third : i < s.file.details.validDataLength
  · rw [old i third, List.getElem?_range (by omega), ← splices.kept i third (Or.inr (by omega))]
    rfl
  · rw [List.getElem?_eq_none (by omega), List.getElem?_eq_none (by rw [List.length_range]; omega)]
    rfl

theorem Stands.write (stands : Stands home cs s f) {buf : List UInt8}
    (regular : HandleOp.Regular home (.write buf) s) :
    (HandleOp.call (.write buf) s).1 = (ByteFile.step (.write buf) f).1 ∧
      ∃ cs', Stands home cs' (HandleOp.call (.write buf) s).2 (ByteFile.step (.write buf) f).2 := by
  rw [HandleOp.call, ByteFile.step]
  dsimp only
  by_cases empty : buf = []
  · subst empty
    exact ⟨rfl, cs, stands⟩
  rw [if_neg empty, stands.writable]
  cases enabled : s.file.openOptions.write with
  | false =>
    rw [write_refused stands.layout.mounted enabled empty]
    exact ⟨rfl, cs, stands⟩
  | true =>
    obtain ⟨before, addressable, space, smooth⟩ := regular empty enabled
    rw [← stands.clusters] at space
    have writable := stands.writable' enabled before
    obtain ⟨s', added, run, splices⟩ := writable.splices empty addressable space smooth
    have options := writable.write_options empty addressable space
    rw [run] at options
    rw [run, if_neg (by simp)]
    refine ⟨rfl, cs ++ added, ?_⟩
    have after := splices.writable
    exact {
      toHolds := after.toHolds
      clusters := after.clusters
      valid := after.valid
      position := after.position
      inside := after.cursor.trans after.valid
      written := splices.written_eq stands before
      length := by
        rw [splices.dataLength, ← stands.length, ← stands.cursor]
        rfl
      cursor := by
        rw [splices.cursor, ← stands.cursor]
        rfl
      readable := by
        rw [options]
        exact stands.readable
      writable := by
        rw [options]
        exact stands.writable }

/-- One call on a handle does what it does on the file. -/
theorem call_simulates :
    (HandleOp.call : Machine HandleOp HandleReply (FileSession size n)).Simulates ByteFile.step
      (HandleOp.Regular home)
    fun s f => ∃ cs, Stands home cs s f := by
  rintro op s f ⟨cs, stands⟩ regular
  cases op with
  | read len =>
    obtain ⟨answer, shown⟩ := stands.read regular
    exact ⟨answer, cs, shown⟩
  | seek c =>
    obtain ⟨answer, shown⟩ := stands.seek regular
    exact ⟨answer, cs, shown⟩
  | write buf => exact stands.write regular

/-- The file that a handle stands for when its clusters are `cs`. -/
def byteFile (home : Nat → CacheKind) (cs : List Nat) (s : FileSession size n) : ByteFile where
  written := (List.range s.file.details.validDataLength).map ((s.fs.volume home).fileByte cs)
  length := s.file.details.dataLength
  cursor := s.file.cursor
  readable := s.file.openOptions.read
  writable := s.file.openOptions.write

theorem Stands.eq_byteFile (stands : Stands home cs s f) : f = s.byteFile home cs := by
  obtain ⟨_, _, _, written, length, cursor, readable, writable⟩ := stands
  rw [byteFile, ← written, ← length, ← cursor, ← readable, ← writable]

end FileSession

namespace FileSystem

open FileSession
open File (smallHome)

variable {size n : Nat} {home : Nat → CacheKind} {fs fs' : FileSystem size n} {details : FileDetails} {cs : List Nat}

theorem Fit.stands (fit : fs.Fit home) (stores : (fs.volume home).Stores home details cs) {options : OpenOptions}
    (whole : options.append = false ∨ cs = [] ∨ details.validDataLength / fs.fs.clusterLength + 1 = cs.length) :
    Stands home cs ⟨fs, opened details cs fs.fs.clusterLength options⟩
      (byteFile home cs ⟨fs, opened details cs fs.fs.clusterLength options⟩) where
  toFormed := formed_of_opened fit stores options
  position := (opened_positioned_iff fit.layout stores options).mpr whole
  inside := by
    rw [opened]
    split
    · exact stores.valid
    · exact Nat.zero_le _
  written := rfl
  length := rfl
  cursor := rfl
  readable := rfl
  writable := rfl

/-- The place of the handle of an empty file is right, as is that of one for
appending where the valid data end in the last cluster. -/
theorem Fit.placed (fit : fs.Fit home) (stores : (fs.volume home).Stores home details cs) {options : OpenOptions}
    (whole : options.append = true → details.dataLength ≠ 0 →
      details.validDataLength / fs.fs.clusterLength + 1 = divCeil details.dataLength fs.fs.clusterLength) :
    options.append = false ∨ cs = [] ∨ details.validDataLength / fs.fs.clusterLength + 1 = cs.length := by
  cases append : options.append with
  | false => exact Or.inl rfl
  | true =>
    by_cases empty : cs = []
    · exact Or.inr (Or.inl empty)
    have some_ : details.dataLength ≠ 0 := by
      intro none_
      obtain ⟨_, pos, _⟩ := (fit.kept stores options).clusterLength
      have none' : divCeil 0 fs.fs.clusterLength = 0 := by
        rw [divCeil, Nat.zero_add, Nat.div_eq_of_lt (Nat.sub_lt pos Nat.one_pos)]
      have count := stores.count
      rw [none_] at count
      exact empty (List.length_eq_zero_iff.mp (count.trans none'))
    exact Or.inr (Or.inr ((whole append some_).trans stores.count.symm))

/-- A handle that `open` returns answers every run of reads, seeks and writes as
the file does that was opened, and stands in the end for what the run has made
of that file. A handle for appending starts at the end of the valid data, which
has to be in the last cluster. -/
theorem handle_refines_file (fit : fs.Fit home) {fuel : Nat} {path : List Char} {options : OpenOptions} {file : File}
    (stored : ∀ details fs₁, findFileInner fuel path (some attrArchive) fs = (.ok details, fs₁) →
      ∃ cs, (fs.volume home).Stores home details cs)
    (opens : «open» fuel path options fs = (.ok file, fs')) (left : fs'.Fit home)
    (whole : options.append = true → file.details.dataLength ≠ 0 →
      file.details.validDataLength / fs'.fs.clusterLength + 1 = divCeil file.details.dataLength fs'.fs.clusterLength)
    {ops : List HandleOp} (regular : HandleOp.call.Allows (HandleOp.Regular home) ops ⟨fs', file⟩) :
    ∃ cs cs', (fs'.volume home).Owns home file.details.flags.noFatChain file.chain cs ∧
      let s := (HandleOp.call.run ops ⟨fs', file⟩).2
      (s.fs.volume home).Owns home s.file.details.flags.noFatChain s.file.chain cs' ∧
      HandleOp.call.run ops ⟨fs', file⟩ = ((ByteFile.step.run ops (byteFile home cs ⟨fs', file⟩)).1, s) ∧
      s.byteFile home cs' = (ByteFile.step.run ops (byteFile home cs ⟨fs', file⟩)).2 := by
  obtain ⟨details, cs, rfl, stores⟩ : ∃ details cs, file = opened details cs fs'.fs.clusterLength options ∧
      (fs'.volume home).Stores home details cs := by
    obtain ⟨details, cs, rfl, ⟨_, _, stores⟩ | ⟨rfl, empty, valid⟩⟩ := open_ok fit stored opens
    · exact ⟨details, cs, rfl, stores⟩
    · exact ⟨details, [], rfl, stores_nil left.layout empty valid⟩
  have stands := left.stands stores (left.placed stores whole)
  obtain ⟨answers, cs', last⟩ := call_simulates.run ops ⟨cs, stands⟩ regular
  exact ⟨cs, cs', stores.owns, last.owns, Prod.ext answers rfl, last.eq_byteFile.symm⟩

/-- A write of three bytes to a file of zeros, and two of them read back. -/
def pairCalls : List HandleOp := [.write [1, 2, 3], .seek 1, .read 2]

theorem pairCalls_regular : HandleOp.call.Allows (HandleOp.Regular smallHome) pairCalls pairSession := by
  have chain : (HandleOp.call (.write [1, 2, 3]) pairSession).2.file.chain = .contiguous 3 2 := by decide +kernel
  refine ⟨fun _ _ => ⟨by decide +kernel, by decide +kernel, le_trans (b := 2) (by decide +kernel) (by decide +kernel),
    by decide +kernel⟩, fun _ => ⟨?_, ?_⟩, ?_, trivial⟩
  · rintro ⟨first, clusterCount, same, final⟩
    cases chain.symm.trans same
    revert final
    decide +kernel
  · rintro ⟨first, last, clusterCount, same, _⟩
    cases chain.symm.trans same
  · unfold HandleOp.Regular Stalls
    decide +kernel

theorem handle_refines_file_pair :
    (HandleOp.call.run pairCalls pairSession).1 = [.done, .done, .bytes (some [2, 3])] := by
  obtain ⟨opens, left⟩ := pairSession_opened
  obtain ⟨cs, cs', owns, _, answers, _⟩ := handle_refines_file pairVolume_fit pairVolume_stored opens left
    (by intro append; cases append) pairCalls_regular
  rw [show pairSession = ⟨pairSession.fs, pairSession.file⟩ from rfl, answers]
  rfl

end FileSystem

end ExFatSlim
