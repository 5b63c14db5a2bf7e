import ExFatSlim.SetWriter

namespace ExFatSlim

theorem EntryType.ofByte_file {x : UInt8} : EntryType.ofByte x = .fileAndDirectory ↔ x = 0x85 := by
  refine ⟨fun same => ?_, fun file => by rw [file]; rfl⟩
  by_contra other
  unfold ofByte at same
  simp only [if_neg other] at same
  repeat' split at same
  all_goals cases same

/-- Entries with the secondary bit describe no file, and do not end a directory. -/
theorem EntryType.ofByte_secondary {x : UInt8} (high : 0xC0 ≤ x) :
    EntryType.ofByte x ≠ .fileAndDirectory ∧ x ≠ 0 := by
  have some_ : x ≠ 0 := by
    rintro rfl
    exact absurd high (by decide)
  refine ⟨fun type => ?_, some_⟩
  rw [EntryType.ofByte_file.mp type] at high
  exact absurd high (by decide)

/-- What a scan reports of a file entry and the stream extension after it. -/
def detailsOf (file : RawDirEntry) (place : Location) (stream : RawDirEntry) : FileDetails where
  firstCluster := (StreamExtensionDirEntry.ofRaw stream).firstCluster
  dataLength := (StreamExtensionDirEntry.ofRaw stream).dataLength
  validDataLength := (StreamExtensionDirEntry.ofRaw stream).validDataLength
  attributes := (FileDirEntry.ofRaw file).fileAttributes
  location := place
  flags := (StreamExtensionDirEntry.ofRaw stream).generalSecondaryFlags
  secondaryCount := (FileDirEntry.ofRaw file).secondaryCount
  created := (FileDirEntry.ofRaw file).created
  modified := (FileDirEntry.ofRaw file).modified
  accessed := (FileDirEntry.ofRaw file).accessed

/-- A file entry, its stream extension, and as many file name entries as its name
takes, which is a sequence of any 16-bit units. Its hash may be any. -/
structure NamedSet where
  fileDir : RawDirEntry
  stream : RawDirEntry
  names : List RawDirEntry
  isFile : EntryType.ofByte (fileDir.byte 0) = .fileAndDirectory
  isStream : EntryType.ofByte (stream.byte 0) = .streamExtension
  areNames : ∀ raw ∈ names, EntryType.ofByte (raw.byte 0) = .filename
  named : 0 < (StreamExtensionDirEntry.ofRaw stream).nameLength
  nameCount : names.length = FileSystem.divCeil (StreamExtensionDirEntry.ofRaw stream).nameLength 15

namespace NamedSet

def raws (set : NamedSet) : List RawDirEntry := set.fileDir :: set.stream :: set.names

/-- The full name. -/
def units (set : NamedSet) : List Nat :=
  (set.names.flatMap fileNameOfRaw).take (StreamExtensionDirEntry.ofRaw set.stream).nameLength

/-- What a scan reports of the set at a place. -/
def details (set : NamedSet) (place : Location) : FileDetails := detailsOf set.fileDir place set.stream

/-- Whether the parts of the name pass a filter, read from the entries one by one. -/
def partsPass (filter : DirectoryEntryFilter) (table : UpcaseTable) (nameLength : Nat) :
    List Nat → List RawDirEntry → Bool
  | _, [] => true
  | units, raw :: rest =>
    let part := (fileNameOfRaw raw).take (min (nameLength - units.length) 15)
    filter.fileName part units.length table && partsPass filter table nameLength (units ++ part) rest

/-- Whether the set passes a filter: its hash and attributes, its length, and its parts one by one. -/
def passes (set : NamedSet) (filter : DirectoryEntryFilter) (table : UpcaseTable) : Bool :=
  filter.hash (StreamExtensionDirEntry.ofRaw set.stream).nameHash (FileDirEntry.ofRaw set.fileDir).fileAttributes &&
    filter.fileNameLength (StreamExtensionDirEntry.ofRaw set.stream).nameLength &&
    partsPass filter table (StreamExtensionDirEntry.ofRaw set.stream).nameLength [] set.names

end NamedSet

/-- A well-formed entry set: one whose name is spelled in UTF-16, with its
checksum and with what else the secondary count includes. -/
structure EntrySet extends NamedSet where
  extras : List RawDirEntry
  name : List Char
  areExtras : ∀ raw ∈ extras, 0xC0 ≤ raw.byte 0
  secondaryCount : (FileDirEntry.ofRaw fileDir).secondaryCount = 1 + names.length + extras.length
  checksum : (FileDirEntry.ofRaw fileDir).setChecksum = setChecksum (fileDir :: stream :: (names ++ extras))
  nameLength : (StreamExtensionDirEntry.ofRaw stream).nameLength = (encodeUtf16 name).length
  spelled : (names.flatMap fileNameOfRaw).take (encodeUtf16 name).length = encodeUtf16 name

namespace EntrySet

/-- The entries of the set. -/
def raws (set : EntrySet) : List RawDirEntry := set.fileDir :: set.stream :: (set.names ++ set.extras)

theorem length_raws (set : EntrySet) : set.raws.length = (FileDirEntry.ofRaw set.fileDir).secondaryCount + 1 := by
  rw [set.secondaryCount, raws]
  simp only [List.length_cons, List.length_append]
  omega

theorem short (set : EntrySet) : (encodeUtf16 set.name).length ≤ 255 := by
  have byte := Nat.lt_succ_iff.mp ((set.stream.slice 3 1).headD 0).toNat_lt
  have value : (StreamExtensionDirEntry.ofRaw set.stream).nameLength = ((set.stream.slice 3 1).headD 0).toNat := rfl
  rw [← set.nameLength, value]
  exact byte

theorem skipped_secondary (set : EntrySet) {raw : RawDirEntry} (member : raw ∈ set.names ++ set.extras) :
    EntryType.ofByte (raw.byte 0) ≠ .fileAndDirectory ∧ raw.byte 0 ≠ 0 := by
  rcases List.mem_append.mp member with name | extra
  · have type := set.areNames raw name
    refine ⟨by rw [type]; simp, fun zero => ?_⟩
    rw [EntryType.ofByte_zero.mpr zero] at type
    cases type
  · exact EntryType.ofByte_secondary (set.areExtras raw extra)

theorem stream_byte (set : EntrySet) : set.stream.byte 0 ≠ 0 := by
  intro zero
  have type := set.isStream
  rw [EntryType.ofByte_zero.mpr zero] at type
  cases type

end EntrySet

/-- What a directory is made of: unused entries, entries in use that describe no
file, such as the bitmap's, and entry sets. -/
inductive Piece where
  | spare (raw : RawDirEntry) (unused : ¬ InUse raw ∧ raw.byte 0 ≠ 0)
  | other (raw : RawDirEntry) (used : InUse raw ∧ EntryType.ofByte (raw.byte 0) ≠ .fileAndDirectory)
  | file (set : EntrySet)

def Piece.raws : Piece → List RawDirEntry
  | .spare raw _ => [raw]
  | .other raw _ => [raw]
  | .file set => set.raws

/-- Whether a scan with the filter returns the piece. -/
def Piece.passes (filter : DirectoryEntryFilter) (table : UpcaseTable) : Piece → Bool
  | .file set => set.passes filter table
  | _ => false

/-- Entries with their places, from number `k` on. -/
def placed (place : Nat → Location) : Nat → List RawDirEntry → List DirSlot
  | _, [] => []
  | k, raw :: raws => (raw, place k) :: placed place (k + 1) raws

theorem placed_append (place : Nat → Location) (xs ys : List RawDirEntry) : ∀ k,
    placed place k (xs ++ ys) = placed place k xs ++ placed place (k + xs.length) ys := by
  induction xs with
  | nil => intro k; rfl
  | cons x xs ih =>
    intro k
    rw [List.cons_append, placed, placed, ih, List.length_cons, List.cons_append, Nat.add_right_comm, Nat.add_assoc]

@[simp] theorem length_placed (place : Nat → Location) (raws : List RawDirEntry) :
    ∀ k, (placed place k raws).length = raws.length := by
  induction raws with
  | nil => intro k; rfl
  | cons raw raws ih => intro k; rw [placed, List.length_cons, ih, List.length_cons]

@[simp] theorem map_placed (place : Nat → Location) (raws : List RawDirEntry) :
    ∀ k, (placed place k raws).map Prod.fst = raws := by
  induction raws with
  | nil => intro k; rfl
  | cons raw raws ih => intro k; rw [placed, List.map_cons, ih]

theorem placed_get (place : Nat → Location) (raws : List RawDirEntry) : ∀ k i,
    (placed place k raws)[i]? = (raws[i]?).map fun raw => (raw, place (k + i)) := by
  induction raws with
  | nil => intro k i; simp [placed]
  | cons raw raws ih =>
    intro k i
    rw [placed]
    cases i with
    | zero => rfl
    | succ i => rw [List.getElem?_cons_succ, List.getElem?_cons_succ, ih, Nat.add_right_comm, Nat.add_assoc]

theorem not_end_of_byte {raw : RawDirEntry} (some_ : raw.byte 0 ≠ 0) : isEndOfDirectory raw = false := by
  rw [Bool.eq_false_iff]
  intro all
  rw [isEndOfDirectory, List.all_eq_true] at all
  have zero := all ⟨0, by decide⟩ (List.mem_finRange _)
  exact some_ (by simpa [Block.byte, rawEntryLen] using zero)

theorem isEndOfDirectory_zeroEntry : isEndOfDirectory zeroEntry = true := by decide

namespace DirectoryEntryChain

open Scan

variable {size n : Nat} {home : Nat → CacheKind} {v : Volume size} {s : Scan size n} {place : Nat → Location}

theorem visits_cons {stop : RawDirEntry → Bool} {e : DirSlot} {es : List DirSlot}
    (visits : Visits home v stop (e :: es) s)
    (going : stop e.1 = false) : ∃ s', next s = (.ok (some e), s') ∧ Visits home v stop es s' := by
  cases visits with
  | stopped _ _ _ halt =>
    rw [going] at halt
    cases halt
  | visited _ run _ visits => exact ⟨_, run, visits⟩

/-- An entry that is neither a file entry nor the end marker. -/
def Skipped (raw : RawDirEntry) : Prop := EntryType.ofByte (raw.byte 0) ≠ .fileAndDirectory ∧ raw.byte 0 ≠ 0

theorem nextFileDirEntry_skip (fuel : Nat) {raw : RawDirEntry} (skipped : Skipped raw) {k : Nat}
    {raws : List RawDirEntry}
    (visits : Visits home v isEndOfDirectory (placed place k (raw :: raws)) s) :
    ∃ s', nextFileDirEntry (fuel + 1) s = nextFileDirEntry fuel s' ∧
      Visits home v isEndOfDirectory (placed place (k + 1) raws) s' := by
  obtain ⟨s', run, rest⟩ := visits_cons visits (not_end_of_byte skipped.2)
  refine ⟨s', ?_, rest⟩
  rw [nextFileDirEntry, Exec.bind_of_ok run]
  dsimp only
  cases type : EntryType.ofByte (raw.byte 0) with
  | endOfDirectory => exact absurd (EntryType.ofByte_zero.mp type) skipped.2
  | fileAndDirectory => exact absurd type skipped.1
  | _ => rfl

theorem nextFileDirEntry_skips (fuel : Nat) (raws : List RawDirEntry) :
    ∀ {k : Nat} {rest : List RawDirEntry} {s : Scan size n},
    (∀ raw ∈ raws, Skipped raw) → Visits home v isEndOfDirectory (placed place k (raws ++ rest)) s →
    ∃ s', nextFileDirEntry (fuel + raws.length) s = nextFileDirEntry fuel s' ∧
      Visits home v isEndOfDirectory (placed place (k + raws.length) rest) s' := by
  induction raws with
  | nil =>
    intro k rest s _ visits
    exact ⟨s, rfl, visits⟩
  | cons raw raws ih =>
    intro k rest s skipped visits
    obtain ⟨s₁, run₁, visits₁⟩ :=
      nextFileDirEntry_skip (fuel + raws.length) (skipped raw List.mem_cons_self) visits
    obtain ⟨s₂, run₂, visits₂⟩ := ih (fun raw member => skipped raw (List.mem_cons_of_mem _ member)) visits₁
    refine ⟨s₂, ?_, ?_⟩
    · rw [List.length_cons, ← Nat.add_assoc, run₁, run₂]
    · rw [List.length_cons, Nat.add_comm raws.length, ← Nat.add_assoc]
      exact visits₂

theorem nextFileDirEntry_file (fuel : Nat) {raw : RawDirEntry}
    (type : EntryType.ofByte (raw.byte 0) = .fileAndDirectory) {k : Nat}
    {raws : List RawDirEntry} (visits : Visits home v isEndOfDirectory (placed place k (raw :: raws)) s) :
    ∃ s', nextFileDirEntry (fuel + 1) s = (.ok (some (.ofRaw raw, place k)), s') ∧
      Visits home v isEndOfDirectory (placed place (k + 1) raws) s' := by
  have some_ : raw.byte 0 ≠ 0 := by
    intro zero
    rw [EntryType.ofByte_zero.mpr zero] at type
    cases type
  obtain ⟨s', run, rest⟩ := visits_cons visits (not_end_of_byte some_)
  refine ⟨s', ?_, rest⟩
  rw [nextFileDirEntry, Exec.bind_of_ok run]
  dsimp only
  rw [type]
  rfl

/-- Nothing but zeros is left. -/
theorem nextFileDirEntry_end (fuel : Nat) {k zeros : Nat}
    (visits : Visits home v isEndOfDirectory (placed place k (List.replicate zeros zeroEntry)) s) :
    ∃ s', nextFileDirEntry (fuel + 1) s = (.ok none, s') ∧ s'.Shows home v := by
  cases zeros with
  | zero =>
    cases visits with
    | ended _ run shows =>
      refine ⟨_, ?_, shows⟩
      rw [nextFileDirEntry, Exec.bind_of_ok run]
      rfl
  | succ zeros =>
    rw [List.replicate_succ, placed] at visits
    cases visits with
    | stopped _ run shows _ =>
      refine ⟨_, ?_, shows⟩
      rw [nextFileDirEntry, Exec.bind_of_ok run]
      rfl
    | visited _ _ going =>
      rw [isEndOfDirectory_zeroEntry] at going
      cases going

section Names

variable (filter : DirectoryEntryFilter) (nameLength : Nat)

/-- One round over the name entries. -/
theorem nameEntries_round (rounds : Nat) (units : List Nat) {raw : RawDirEntry}
    (type : EntryType.ofByte (raw.byte 0) = .filename) {k : Nat} {raws : List RawDirEntry}
    (visits : Visits home v isEndOfDirectory (placed place k (raw :: raws)) s) :
    ∃ s', Visits home v isEndOfDirectory (placed place (k + 1) raws) s' ∧
      nameEntries filter nameLength (rounds + 1) units s =
      (let part := (fileNameOfRaw raw).take (min (nameLength - units.length) 15)
      if filter.fileName part units.length v.setup.upcaseTable then
        if (units ++ part).length = nameLength then (.ok (some (some (units ++ part))), s')
        else nameEntries filter nameLength rounds (units ++ part) s'
      else (.ok (some none), s')) := by
  have some_ : raw.byte 0 ≠ 0 := by
    intro zero
    rw [EntryType.ofByte_zero.mpr zero] at type
    cases type
  obtain ⟨s', run, rest⟩ := visits_cons visits (not_end_of_byte some_)
  have table : s'.fs.upcaseTable = v.setup.upcaseTable :=
    congrArg (fun v : Volume size => v.setup.upcaseTable) rest.shows.volume
  refine ⟨s', rest, ?_⟩
  rw [nameEntries, Exec.bind_of_ok run]
  dsimp only
  rw [if_pos type, Exec.bind_of_ok (Exec.get_apply s'), table]
  split
  · split <;> rfl
  · rfl

/-- The name entries of a set, which are as many as the name takes. -/
theorem nameEntries_run (names : List RawDirEntry) : ∀ (units : List Nat) (rounds : Nat) {k : Nat}
    {rest : List RawDirEntry} {s : Scan size n}, (∀ raw ∈ names, EntryType.ofByte (raw.byte 0) = .filename) →
      units.length < nameLength →
    names.length = FileSystem.divCeil (nameLength - units.length) 15 → names.length ≤ rounds →
    Visits home v isEndOfDirectory (placed place k (names ++ rest)) s →
    if NamedSet.partsPass filter v.setup.upcaseTable nameLength units names then
      ∃ s', nameEntries filter nameLength rounds units s =
          (.ok (some (some (units ++ (names.flatMap fileNameOfRaw).take (nameLength - units.length)))), s') ∧
        Visits home v isEndOfDirectory (placed place (k + names.length) rest) s'
    else ∃ s' j, j ≤ names.length ∧ nameEntries filter nameLength rounds units s = (.ok (some none), s') ∧
        Visits home v isEndOfDirectory (placed place (k + j) (names.drop j ++ rest)) s' := by
  induction names with
  | nil =>
    intro units rounds k rest s _ more count _ _
    rw [List.length_nil] at count
    simp only [FileSystem.divCeil] at count
    omega
  | cons raw names ih =>
    intro units rounds k rest s areNames more count enough visits
    rw [List.length_cons] at count enough
    obtain ⟨rounds, rfl⟩ : ∃ r, rounds = r + 1 := ⟨rounds - 1, by omega⟩
    obtain ⟨s₁, visits₁, run⟩ :=
      nameEntries_round filter nameLength rounds units (areNames raw List.mem_cons_self) visits
    have length := length_namePart raw (nameLength - units.length)
    rw [NamedSet.partsPass]
    dsimp only at run ⊢
    by_cases pass : filter.fileName ((fileNameOfRaw raw).take (min (nameLength - units.length) 15)) units.length
        v.setup.upcaseTable = true
    · rw [if_pos pass] at run
      rw [pass, Bool.true_and]
      by_cases last : nameLength - units.length ≤ 15
      · -- the last part of the name
        have alone : names = [] := by
          rw [← List.length_eq_zero_iff]
          simp only [FileSystem.divCeil] at count
          omega
        subst alone
        rw [if_pos (by rw [List.length_append, length]; omega)] at run
        rw [if_pos (by simp [NamedSet.partsPass])]
        refine ⟨s₁, ?_, visits₁⟩
        rw [run, List.flatMap_singleton, Nat.min_eq_left last]
      · have part : (fileNameOfRaw raw).take (min (nameLength - units.length) 15) = fileNameOfRaw raw :=
          List.take_of_length_le (by rw [length_fileNameOfRaw]; omega)
        have whole : (raw :: names).flatMap fileNameOfRaw = fileNameOfRaw raw ++ names.flatMap fileNameOfRaw :=
          List.flatMap_cons ..
        have longer : (units ++ fileNameOfRaw raw).length = units.length + 15 := by
          rw [List.length_append, length_fileNameOfRaw]
        rw [part] at run ⊢
        rw [if_neg (by omega)] at run
        have later :=
          ih (units ++ fileNameOfRaw raw) rounds (fun raw member => areNames raw (List.mem_cons_of_mem _ member))
          (by omega) (by rw [longer]; simp only [FileSystem.divCeil] at count ⊢; omega) (by omega) visits₁
        rw [longer, show nameLength - (units.length + 15) = nameLength - units.length - 15 by omega] at later
        by_cases rest : NamedSet.partsPass filter v.setup.upcaseTable nameLength (units ++ fileNameOfRaw raw) names =
          true
        · rw [if_pos rest] at later ⊢
          obtain ⟨s₂, run₂, visits₂⟩ := later
          refine ⟨s₂, ?_, ?_⟩
          · rw [run, run₂, whole, List.take_append, length_fileNameOfRaw, List.append_assoc,
              List.take_of_length_le (show (fileNameOfRaw raw).length ≤ _ by rw [length_fileNameOfRaw]; omega)]
          · rw [List.length_cons, Nat.add_comm names.length, ← Nat.add_assoc]
            exact visits₂
        · rw [if_neg rest] at later ⊢
          obtain ⟨s₂, j, some_, run₂, visits₂⟩ := later
          refine ⟨s₂, j + 1, by rw [List.length_cons]; omega, run.trans run₂, ?_⟩
          rw [Nat.add_comm j, ← Nat.add_assoc, Nat.add_comm 1, List.drop_succ_cons]
          exact visits₂
    · rw [if_neg pass] at run
      rw [Bool.eq_false_iff.mpr pass, Bool.false_and, if_neg (by simp)]
      exact ⟨s₁, 1, by rw [List.length_cons]; omega, run, visits₁⟩

end Names

/-- The name that a scan reports, if it was given a buffer. -/
def reported (nameBuf : Option Nat) (name : List Char) : List UInt8 :=
  match nameBuf with
  | some _ => encodeUtf8 name
  | none => []

/-- What `next_file_entry` does with the file entry that it has come to. -/
def entryFrom (filter : DirectoryEntryFilter) (nameBuf : Option Nat) (fuel : Nat) :
    Option (FileDirEntry × Location) → ExFat (Scan size n) (Option (FileDetails × List UInt8))
  | none => pure none
  | some (fileDirEntry, location) => do
    match ← next with
    | none => pure none
    | some (entry, _) =>
      if EntryType.ofByte (entry.byte 0) = .streamExtension then
        let streamEntry := StreamExtensionDirEntry.ofRaw entry
        if !filter.hash streamEntry.nameHash fileDirEntry.fileAttributes then
          nextFileEntry filter nameBuf fuel
        else if !filter.fileNameLength streamEntry.nameLength then
          nextFileEntry filter nameBuf fuel
        else
          match ← nameEntries filter streamEntry.nameLength (streamEntry.nameLength + 1) [] with
          | none => pure none
          | some none => nextFileEntry filter nameBuf fuel
          | some (some units) =>
            let name ← match nameBuf with
              | some capacity => decodeUtf16ToUtf8 units capacity
              | none => pure []
            pure (some ({
              attributes := fileDirEntry.fileAttributes
              dataLength := streamEntry.dataLength
              validDataLength := streamEntry.validDataLength
              firstCluster := streamEntry.firstCluster
              location
              flags := streamEntry.generalSecondaryFlags
              secondaryCount := fileDirEntry.secondaryCount
              accessed := fileDirEntry.accessed
              created := fileDirEntry.created
              modified := fileDirEntry.modified }, name))
      else pure none

theorem nextFileEntry_eq (filter : DirectoryEntryFilter) (nameBuf : Option Nat) (fuel : Nat) :
    (nextFileEntry filter nameBuf (fuel + 1) : ExFat (Scan size n) _) =
      nextFileDirEntry (fuel + 1) >>= entryFrom filter nameBuf fuel := by
  rw [nextFileEntry]
  congr 1

section Sets

variable {filter : DirectoryEntryFilter} (nameBuf : Option Nat)

/-- A set that passes is returned. -/
theorem entry_found (roomy : ∀ capacity, nameBuf = some capacity → maxNameLen ≤ capacity) {set : EntrySet}
    (passes : set.passes filter v.setup.upcaseTable = true) (f g : Nat) {k : Nat}
    {rest : List RawDirEntry} (visits : Visits home v isEndOfDirectory (placed place k (set.raws ++ rest)) s) :
    ∃ s', (nextFileDirEntry (f + 1) >>= entryFrom filter nameBuf g) s =
        (.ok (some (set.details (place k), reported nameBuf set.name)), s') ∧
      Visits home v isEndOfDirectory (placed place (k + (2 + set.names.length)) (set.extras ++ rest)) s' := by
  simp only [NamedSet.passes, Bool.and_eq_true] at passes
  obtain ⟨⟨hash, length⟩, parts⟩ := passes
  rw [EntrySet.raws, List.cons_append, List.cons_append, List.append_assoc] at visits
  obtain ⟨s₁, run₁, visits₁⟩ := nextFileDirEntry_file f set.isFile visits
  obtain ⟨s₂, run₂, visits₂⟩ := visits_cons visits₁ (not_end_of_byte set.stream_byte)
  have read := nameEntries_run filter (StreamExtensionDirEntry.ofRaw set.stream).nameLength set.names []
    ((StreamExtensionDirEntry.ofRaw set.stream).nameLength + 1) set.areNames set.named
    set.nameCount
    (by rw [set.nameCount]; simp only [FileSystem.divCeil]; omega) visits₂
  rw [if_pos parts, List.length_nil, Nat.sub_zero, List.nil_append] at read
  obtain ⟨s₃, run₃, visits₃⟩ := read
  have spelled : (set.names.flatMap fileNameOfRaw).take (StreamExtensionDirEntry.ofRaw set.stream).nameLength =
      encodeUtf16 set.name := by
    rw [set.nameLength]
    exact set.spelled
  rw [spelled] at run₃
  refine ⟨s₃, ?_, ?_⟩
  · rw [Exec.bind_of_ok run₁, entryFrom, Exec.bind_of_ok run₂]
    dsimp only
    rw [if_pos set.isStream, if_neg (by simp [hash]), if_neg (by simp [length]), Exec.bind_of_ok run₃]
    dsimp only
    cases nameBuf with
    | none => rfl
    | some capacity =>
      refine (Exec.bind_of_ok (decodeUtf16ToUtf8_run set.short (roomy capacity rfl) s₃)).trans ?_
      rfl
  · rw [← Nat.add_assoc]
    exact visits₃

/-- A set that does not pass is left behind, and what is left of it is skipped. -/
theorem entry_failed {set : EntrySet} (fails : set.passes filter v.setup.upcaseTable = false) (f g : Nat) {k : Nat}
    {rest : List RawDirEntry} (visits : Visits home v isEndOfDirectory (placed place k (set.raws ++ rest)) s) :
    ∃ s' j, 2 ≤ j ∧ j ≤ set.raws.length ∧ (∀ raw ∈ set.raws.drop j, Skipped raw) ∧
      (nextFileDirEntry (f + 1) >>= entryFrom filter nameBuf g) s = nextFileEntry filter nameBuf g s' ∧
      Visits home v isEndOfDirectory (placed place (k + j) (set.raws.drop j ++ rest)) s' := by
  rw [EntrySet.raws, List.cons_append, List.cons_append, List.append_assoc] at visits
  obtain ⟨s₁, run₁, visits₁⟩ := nextFileDirEntry_file f set.isFile visits
  obtain ⟨s₂, run₂, visits₂⟩ := visits_cons visits₁ (not_end_of_byte set.stream_byte)
  have skipped : ∀ j, 2 ≤ j → ∀ raw ∈ set.raws.drop j, Skipped raw := by
    intro j two raw member
    obtain ⟨i, rfl⟩ : ∃ i, j = i + 2 := ⟨j - 2, by omega⟩
    rw [EntrySet.raws, List.drop_succ_cons, List.drop_succ_cons] at member
    exact set.skipped_secondary (List.mem_of_mem_drop member)
  have two : 2 ≤ set.raws.length := by simp [EntrySet.raws]
  have early : (nextFileDirEntry (f + 1) >>= entryFrom filter nameBuf g) s = nextFileEntry filter nameBuf g s₂ →
      ∃ s' j, 2 ≤ j ∧ j ≤ set.raws.length ∧ (∀ raw ∈ set.raws.drop j, Skipped raw) ∧
      (nextFileDirEntry (f + 1) >>= entryFrom filter nameBuf g) s = nextFileEntry filter nameBuf g s' ∧
      Visits home v isEndOfDirectory (placed place (k + j) (set.raws.drop j ++ rest)) s' := by
    intro run
    refine ⟨s₂, 2, le_rfl, two, skipped 2 le_rfl, run, ?_⟩
    rw [EntrySet.raws, List.drop_succ_cons, List.drop_succ_cons, List.drop_zero, List.append_assoc]
    exact visits₂
  have start : (nextFileDirEntry (f + 1) >>= entryFrom filter nameBuf g) s = entryFrom filter nameBuf g
      (some (FileDirEntry.ofRaw set.fileDir, place k)) s₁ := Exec.bind_of_ok run₁
  rw [entryFrom, Exec.bind_of_ok run₂] at start
  dsimp only at start
  rw [if_pos set.isStream] at start
  by_cases hash : filter.hash (StreamExtensionDirEntry.ofRaw set.stream).nameHash
      (FileDirEntry.ofRaw set.fileDir).fileAttributes = true
  · rw [if_neg (by simp [hash])] at start
    by_cases length : filter.fileNameLength (StreamExtensionDirEntry.ofRaw set.stream).nameLength = true
    · rw [if_neg (by simp [length])] at start
      have parts : ¬ NamedSet.partsPass filter v.setup.upcaseTable
        (StreamExtensionDirEntry.ofRaw set.stream).nameLength []
          set.names = true := by
        intro parts
        simp [NamedSet.passes, hash, length, parts] at fails
      have read := nameEntries_run filter (StreamExtensionDirEntry.ofRaw set.stream).nameLength set.names []
        ((StreamExtensionDirEntry.ofRaw set.stream).nameLength + 1) set.areNames set.named
        set.nameCount
        (by rw [set.nameCount]; simp only [FileSystem.divCeil]; omega) visits₂
      rw [if_neg parts] at read
      obtain ⟨s₃, j, some_, run₃, visits₃⟩ := read
      rw [Exec.bind_of_ok run₃] at start
      refine ⟨s₃, j + 2, by omega, ?_, skipped _ (by omega), start, ?_⟩
      · simp only [EntrySet.raws, List.length_cons, List.length_append]
        omega
      · rw [EntrySet.raws, List.drop_succ_cons, List.drop_succ_cons, List.drop_append_of_le_length some_,
          List.append_assoc,
          show k + (j + 2) = k + 1 + 1 + j by omega]
        exact visits₃
    · rw [if_pos (by simp [length])] at start
      exact early start
  · rw [if_pos (by simp [hash])] at start
    exact early start

/-- What the scan passes by: what is left of a set, and pieces that do not pass the filter. -/
structure Passed (filter : DirectoryEntryFilter) (table : UpcaseTable) (skip : List RawDirEntry)
    (before : List Piece) : Prop where
  skipped : ∀ raw ∈ skip, Skipped raw
  fail : ∀ p ∈ before, p.passes filter table = false

theorem Passed.single {table : UpcaseTable} {skip : List RawDirEntry} {p : Piece} {before : List Piece}
    {raw : RawDirEntry}
    (passed : Passed filter table skip (p :: before)) (skipped : Skipped raw) :
    Passed filter table (skip ++ [raw]) before where
  skipped := by
    intro r member
    rcases List.mem_append.mp member with old | new
    · exact passed.skipped r old
    · rw [List.mem_singleton.mp new]
      exact skipped
  fail p member := passed.fail p (List.mem_cons_of_mem _ member)

theorem skipped_spare {raw : RawDirEntry} (unused : ¬ InUse raw ∧ raw.byte 0 ≠ 0) : Skipped raw := by
  refine ⟨fun type => unused.1 ?_, unused.2⟩
  rw [InUse, EntryType.ofByte_file.mp type]
  decide

theorem skipped_other {raw : RawDirEntry} (used : InUse raw ∧ EntryType.ofByte (raw.byte 0) ≠ .fileAndDirectory) :
    Skipped raw := by
  refine ⟨used.2, fun zero => used.1 ?_⟩
  rw [zero]
  rfl

/-- A scan comes to the first piece that it cannot pass by. -/
theorem entries_pass (before : List Piece) : ∀ {skip rest : List RawDirEntry} {k f g : Nat} {s : Scan size n},
    Passed filter v.setup.upcaseTable skip before →
    (skip ++ before.flatMap Piece.raws).length < f → (skip ++ before.flatMap Piece.raws).length ≤ g →
    Visits home v isEndOfDirectory (placed place k (skip ++ before.flatMap Piece.raws ++ rest)) s →
    ∃ s' f' g', (nextFileDirEntry f >>= entryFrom filter nameBuf g) s =
      (nextFileDirEntry (f' + 1) >>= entryFrom filter nameBuf g') s' ∧
      Visits home v isEndOfDirectory (placed place (k + (skip ++ before.flatMap Piece.raws).length) rest) s' := by
  induction before with
  | nil =>
    intro skip rest k f g s passed enough _ visits
    rw [List.flatMap_nil, List.append_nil] at *
    obtain ⟨f', rfl⟩ : ∃ f', f = f' + 1 + skip.length := ⟨f - 1 - skip.length, by omega⟩
    obtain ⟨s', run, visits'⟩ := nextFileDirEntry_skips (f' + 1) skip passed.skipped visits
    refine ⟨s', f', g, ?_, visits'⟩
    rw [Exec.bind_apply, Exec.bind_apply, run]
  | cons p before ih =>
    intro skip rest k f g s passed enough enough' visits
    rw [List.flatMap_cons] at *
    cases p with
    | spare raw unused =>
      rw [← List.append_assoc] at *
      exact ih (passed.single (skipped_spare unused)) enough enough' visits
    | other raw used =>
      rw [← List.append_assoc] at *
      exact ih (passed.single (skipped_other used)) enough enough' visits
    | file set =>
      have fails : set.passes filter v.setup.upcaseTable = false := passed.fail _ List.mem_cons_self
      simp only [Piece.raws, List.length_append] at enough enough'
      obtain ⟨f', rfl⟩ : ∃ f', f = f' + 1 + skip.length := ⟨f - 1 - skip.length, by omega⟩
      rw [List.append_assoc, Piece.raws] at visits
      obtain ⟨s₁, run₁, visits₁⟩ := nextFileDirEntry_skips (f' + 1) skip passed.skipped visits
      rw [List.append_assoc] at visits₁
      obtain ⟨s₂, j, two, most, skipped, run₂, visits₂⟩ := entry_failed nameBuf fails f' g visits₁
      have dropped : (set.raws.drop j).length = set.raws.length - j := List.length_drop
      obtain ⟨g', rfl⟩ : ∃ g', g = g' + 1 := ⟨g - 1, by omega⟩
      rw [← List.append_assoc] at visits₂
      obtain ⟨s₃, f₃, g₃, run₃, visits₃⟩ := ih (f := g' + 1) (g := g')
        ⟨skipped, fun p member => passed.fail p (List.mem_cons_of_mem _ member)⟩
        (by rw [List.length_append]; omega) (by rw [List.length_append]; omega) visits₂
      refine ⟨s₃, f₃, g₃, ?_, ?_⟩
      · rw [← run₃, ← nextFileEntry_eq, ← run₂, Exec.bind_apply, Exec.bind_apply, run₁]
      · rw [List.length_append] at visits₃
        rw [List.length_append, List.length_append, Piece.raws,
          show k + (skip.length + (set.raws.length + (before.flatMap Piece.raws).length)) =
          k + skip.length + j + ((set.raws.drop j).length + (before.flatMap Piece.raws).length) by omega]
        exact visits₃

/-- The next set that passes the filter. -/
theorem nextFileEntry_found (roomy : ∀ capacity, nameBuf = some capacity → maxNameLen ≤ capacity)
    {skip rest : List RawDirEntry} {before : List Piece} {set : EntrySet}
    (passed : Passed filter v.setup.upcaseTable skip before) (passes : set.passes filter v.setup.upcaseTable = true)
    {k fuel : Nat} (enough : (skip ++ before.flatMap Piece.raws).length < fuel)
    (visits : Visits home v isEndOfDirectory
      (placed place k (skip ++ before.flatMap Piece.raws ++ (set.raws ++ rest))) s) :
    ∃ s', nextFileEntry filter nameBuf fuel s = (.ok (some (set.details
        (place (k + (skip ++ before.flatMap Piece.raws).length)), reported nameBuf set.name)), s') ∧
      Visits home v isEndOfDirectory
        (placed place (k + (skip ++ before.flatMap Piece.raws).length + (2 + set.names.length))
        (set.extras ++ rest)) s' := by
  obtain ⟨g, rfl⟩ : ∃ g, fuel = g + 1 := ⟨fuel - 1, by omega⟩
  obtain ⟨s₁, f', g', run₁, visits₁⟩ := entries_pass nameBuf before passed enough (Nat.lt_succ_iff.mp enough) visits
  obtain ⟨s₂, run₂, visits₂⟩ := entry_found nameBuf roomy passes f' g' visits₁
  exact ⟨s₂, by rw [nextFileEntry_eq, run₁, run₂], visits₂⟩

/-- No set passes the filter. -/
theorem nextFileEntry_none {skip : List RawDirEntry} {before : List Piece} {zeros : Nat}
    (passed : Passed filter v.setup.upcaseTable skip before) {k fuel : Nat}
    (enough : (skip ++ before.flatMap Piece.raws).length < fuel)
    (visits : Visits home v isEndOfDirectory
      (placed place k (skip ++ before.flatMap Piece.raws ++ List.replicate zeros zeroEntry)) s) :
    ∃ s', nextFileEntry filter nameBuf fuel s = (.ok none, s') ∧ s'.Shows home v := by
  obtain ⟨g, rfl⟩ : ∃ g, fuel = g + 1 := ⟨fuel - 1, by omega⟩
  obtain ⟨s₁, f', g', run₁, visits₁⟩ := entries_pass nameBuf before passed enough (Nat.lt_succ_iff.mp enough) visits
  obtain ⟨s₂, run₂, shows⟩ := nextFileDirEntry_end f' visits₁
  refine ⟨s₂, ?_, shows⟩
  rw [nextFileEntry_eq, run₁, Exec.bind_of_ok run₂]
  rfl

end Sets

/-- The listing of a directory: `next_file_entry` again and again, until it finds no more. -/
def listAll (filter : DirectoryEntryFilter) (nameBuf : Option Nat) (fuel : Nat) :
    Nat → ExFat (Scan size n) (List (FileDetails × List UInt8))
  | 0 => Exec.diverge
  | rounds + 1 => do
    match ← nextFileEntry filter nameBuf fuel with
    | none => pure []
    | some entry =>
      let rest ← listAll filter nameBuf fuel rounds
      pure (entry :: rest)

end DirectoryEntryChain

def Piece.isFile : Piece → Bool
  | .file _ => true
  | _ => false

/-- The entry sets among pieces, as a scan reports them. -/
def items (place : Nat → Location) (nameBuf : Option Nat) : Nat → List Piece → List (FileDetails × List UInt8)
  | _, [] => []
  | k, .file set :: pieces =>
    (set.details (place k), DirectoryEntryChain.reported nameBuf set.name) ::
      items place nameBuf (k + set.raws.length) pieces
  | k, .spare _ _ :: pieces => items place nameBuf (k + 1) pieces
  | k, .other _ _ :: pieces => items place nameBuf (k + 1) pieces

theorem items_append (place : Nat → Location) (nameBuf : Option Nat) (xs ys : List Piece) : ∀ k,
    items place nameBuf k (xs ++ ys) = items place nameBuf k xs ++
      items place nameBuf (k + (xs.flatMap Piece.raws).length) ys := by
  induction xs with
  | nil => intro k; rfl
  | cons p xs ih =>
    intro k
    rw [List.flatMap_cons, List.length_append]
    cases p with
    | spare raw unused =>
      rw [List.cons_append, items, items, ih, Nat.add_assoc]
      rfl
    | other raw used =>
      rw [List.cons_append, items, items, ih, Nat.add_assoc]
      rfl
    | file set =>
      rw [List.cons_append, items, items, ih, List.cons_append, Nat.add_assoc]
      rfl

theorem items_of_no_file (place : Nat → Location) (nameBuf : Option Nat) (pieces : List Piece) : ∀ k,
    (∀ p ∈ pieces, p.isFile = false) → items place nameBuf k pieces = [] := by
  induction pieces with
  | nil => intro k _; rfl
  | cons p pieces ih =>
    intro k none_
    have rest := fun k => ih k fun p member => none_ p (List.mem_cons_of_mem _ member)
    cases p with
    | spare raw unused => exact rest (k + 1)
    | other raw used => exact rest (k + 1)
    | file set => cases none_ _ List.mem_cons_self

/-- There is a first file, or none. -/
theorem split_first_file (pieces : List Piece) : (∀ p ∈ pieces, p.isFile = false) ∨
    ∃ before set after, pieces = before ++ .file set :: after ∧ ∀ p ∈ before, p.isFile = false := by
  induction pieces with
  | nil => exact Or.inl (by simp)
  | cons p pieces ih =>
    cases file : p.isFile with
    | true =>
      cases p with
      | file set => exact Or.inr ⟨[], set, pieces, rfl, by simp⟩
      | _ => cases file
    | false =>
      rcases ih with none_ | ⟨before, set, after, rfl, none_⟩
      · exact Or.inl (List.forall_mem_cons.mpr ⟨file, none_⟩)
      · exact Or.inr ⟨p :: before, set, after, rfl, List.forall_mem_cons.mpr ⟨file, none_⟩⟩

theorem Piece.passes_of_no_file {p : Piece} (none_ : p.isFile = false) (filter : DirectoryEntryFilter)
    (table : UpcaseTable) :
    p.passes filter table = false := by
  cases p with
  | file set => cases none_
  | _ => rfl

theorem NamedSet.passes_allPassFilter (set : NamedSet) (table : UpcaseTable) :
    set.passes allPassFilter table = true := by
  have parts : ∀ (names : List RawDirEntry) (nameLength : Nat) (units : List Nat),
      partsPass allPassFilter table nameLength units names = true := by
    intro names nameLength
    induction names with
    | nil => intro units; rfl
    | cons raw names ih =>
      intro units
      rw [partsPass]
      exact ih _
  rw [passes, parts]
  rfl

namespace DirectoryEntryChain

open Scan

variable {size n : Nat} {home : Nat → CacheKind} {v : Volume size} {place : Nat → Location}

/-- The listing of a directory is the list of its sets. -/
theorem listAll_run (nameBuf : Option Nat)
    (roomy : ∀ capacity, nameBuf = some capacity → maxNameLen ≤ capacity) {fuel : Nat}
    (zeros : Nat) (rounds : Nat) : ∀ {skip : List RawDirEntry} {pieces : List Piece} {k : Nat} {s : Scan size n},
    (∀ raw ∈ skip, Skipped raw) → (skip ++ pieces.flatMap Piece.raws).length < fuel →
    (pieces.filter Piece.isFile).length < rounds →
    Visits home v isEndOfDirectory
      (placed place k (skip ++ pieces.flatMap Piece.raws ++ List.replicate zeros zeroEntry)) s →
    ∃ s', listAll allPassFilter nameBuf fuel rounds s = (.ok (items place nameBuf (k + skip.length) pieces), s') ∧
      s'.Shows home v := by
  induction rounds with
  | zero => intro skip pieces k s _ _ few _; omega
  | succ rounds ih =>
    intro skip pieces k s skipped enough few visits
    rcases split_first_file pieces with none_ | ⟨before, set, after, rfl, none_⟩
    · have passed : Passed allPassFilter v.setup.upcaseTable skip pieces :=
        ⟨skipped, fun p member => Piece.passes_of_no_file (none_ p member) _ _⟩
      obtain ⟨s', run, shows⟩ := nextFileEntry_none nameBuf passed enough visits
      refine ⟨s', ?_, shows⟩
      rw [listAll, Exec.bind_of_ok run, items_of_no_file place nameBuf pieces _ none_]
      rfl
    · have passed : Passed allPassFilter v.setup.upcaseTable skip before :=
        ⟨skipped, fun p member => Piece.passes_of_no_file (none_ p member) _ _⟩
      have whole : skip ++ (before ++ .file set :: after).flatMap Piece.raws ++ List.replicate zeros zeroEntry =
          skip ++ before.flatMap Piece.raws ++
            (set.raws ++ (after.flatMap Piece.raws ++ List.replicate zeros zeroEntry)) := by
        simp only [List.flatMap_append, List.flatMap_cons, Piece.raws, List.append_assoc]
      rw [whole] at visits
      simp only [List.flatMap_append, List.flatMap_cons, Piece.raws, List.length_append] at enough
      obtain ⟨s₁, run₁, visits₁⟩ := nextFileEntry_found nameBuf roomy passed (set.passes_allPassFilter _)
        (show _ < fuel by rw [List.length_append]; omega) visits
      -- what is left of the set comes before the next one
      have extras : ∀ raw ∈ set.extras, Skipped raw :=
        fun raw member => set.skipped_secondary (List.mem_append_right _ member)
      have count : set.raws.length = 2 + set.names.length + set.extras.length := by
        simp only [EntrySet.raws, List.length_cons, List.length_append]
        omega
      rw [← List.append_assoc] at visits₁
      rw [List.filter_append, List.filter_cons_of_pos rfl, List.length_append, List.length_cons] at few
      obtain ⟨s₂, run₂, shows⟩ := ih extras (by rw [List.length_append]; omega) (by omega) visits₁
      refine ⟨s₂, (Exec.bind_of_ok run₁).trans ((Exec.bind_of_ok run₂).trans ?_), shows⟩
      rw [items_append, items_of_no_file place nameBuf before _ none_, List.nil_append, items,
        List.length_append, count]
      simp only [Nat.add_assoc]
      rfl

end DirectoryEntryChain

end ExFatSlim
