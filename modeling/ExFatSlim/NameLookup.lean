import ExFatSlim.NameHash
import ExFatSlim.SetUpdates

namespace ExFatSlim

open NamedSet (partsPass)

/-- What the entries of a directory before its end marker are: unused, in use
for something else than a file, or those of a set. What a set has behind its
name is in use for something else. Other than in a `Piece`, an unused entry may
begin with a zero, as long as it is not the marker. -/
inductive SetPiece (σ : Type) where
  | spare (raw : RawDirEntry) (unused : ¬ InUse raw ∧ isEndOfDirectory raw = false)
  | other (raw : RawDirEntry) (used : InUse raw ∧ EntryType.ofByte (raw.byte 0) ≠ .fileAndDirectory)
  | file (set : σ)

namespace SetPiece

variable {σ τ : Type}

def raws (named : σ → NamedSet) : SetPiece σ → List RawDirEntry
  | .spare raw _ => [raw]
  | .other raw _ => [raw]
  | .file set => (named set).raws

/-- The entry sets of a directory, with their places. -/
def sets (named : σ → NamedSet) (place : Nat → Location) : Nat → List (SetPiece σ) → List (σ × Location)
  | _, [] => []
  | k, .file set :: pieces => (set, place k) :: sets named place (k + (named set).raws.length) pieces
  | k, .spare _ _ :: pieces => sets named place (k + 1) pieces
  | k, .other _ _ :: pieces => sets named place (k + 1) pieces

def map (f : σ → τ) : SetPiece σ → SetPiece τ
  | .spare raw unused => .spare raw unused
  | .other raw used => .other raw used
  | .file set => .file (f set)

end SetPiece

abbrev NamedPiece := SetPiece NamedSet

/-- An entry set whose name is hashed as it should be. -/
structure HashedSet (table : UpcaseTable) extends NamedSet where
  nameHash : (StreamExtensionDirEntry.ofRaw stream).nameHash = exFatHash table toNamedSet.units

namespace HashedSet

variable {table : UpcaseTable}

/-- The set has the name, unit by unit after up-casing, and the attributes. -/
def Matches (set : HashedSet table) (name : List Char) (attributes : Option FileAttributes) : Prop :=
  set.units.map table.upcase = (encodeUtf16 name).map table.upcase ∧
    ∀ required ∈ attributes, (FileDirEntry.ofRaw set.fileDir).fileAttributes.contains required = true

instance (set : HashedSet table) (name : List Char) (attributes : Option FileAttributes) :
    Decidable (set.Matches name attributes) :=
  inferInstanceAs (Decidable (_ ∧ _))

end HashedSet

section Names

variable {table : UpcaseTable} {name : List Char}

theorem flatMap_upcased (table : UpcaseTable) (units : List Nat) :
    nameBytes table units = (units.map table.upcase).flatMap fun c => [c % 256, c / 256 % 256] := by
  induction units with
  | nil => rfl
  | cons c units ih =>
    rw [nameBytes, List.flatMap_cons, List.map_cons, List.flatMap_cons, ← ih]
    rfl

theorem exFatHash_congr {xs ys : List Nat} (same : xs.map table.upcase = ys.map table.upcase) :
    exFatHash table xs = exFatHash table ys := by
  rw [exFatHash, exFatHash, flatMap_upcased, flatMap_upcased, same]

/-- Comparing pairs up to the end of the shorter list. -/
theorem zip_upcased (table : UpcaseTable) (part : List Nat) : ∀ {units : List Nat}, part.length ≤ units.length →
    (((units.zip part).all fun (left, right) => table.upcase left == table.upcase right) = true ↔
      (units.take part.length).map table.upcase = part.map table.upcase) := by
  induction part with
  | nil => simp
  | cons c part ih =>
    intro units enough
    cases units with
    | nil => simp at enough
    | cons d units =>
      have rest := ih (Nat.le_of_succ_le_succ enough)
      rw [List.zip_cons_cons, List.all_cons, Bool.and_eq_true, rest, List.length_cons, List.take_succ_cons,
        List.map_cons, List.map_cons,
        List.cons.injEq, beq_iff_eq]

/-- The parts of a name pass one by one exactly when the name is the one that is looked for. -/
theorem partsPass_iff {hash nameLength : Nat} {attributes : Option FileAttributes}
    (length : (encodeUtf16 name).length = nameLength)
    (names : List RawDirEntry) :
    ∀ (units : List Nat), units.length ≤ nameLength → nameLength ≤ units.length + 15 * names.length →
    (partsPass (exactNameFilter name hash attributes nameLength) table nameLength units names = true ↔
      ((encodeUtf16 name).drop units.length).map table.upcase =
        ((names.flatMap fileNameOfRaw).take (nameLength - units.length)).map table.upcase) := by
  induction names with
  | nil =>
    intro units most enough
    have all : (encodeUtf16 name).drop units.length = [] := List.drop_eq_nil_of_le (by rw [length]; exact enough)
    rw [partsPass, all, List.flatMap_nil, List.take_nil]
    exact ⟨fun _ => rfl, fun _ => rfl⟩
  | cons raw names ih =>
    intro units most enough
    rw [List.length_cons] at enough
    have full := length_fileNameOfRaw raw
    have short : ((fileNameOfRaw raw).take (min (nameLength - units.length) 15)).length =
        min (nameLength - units.length) 15 := by
      rw [List.length_take, full]
      omega
    have split : ((raw :: names).flatMap fileNameOfRaw).take (nameLength - units.length) =
        (fileNameOfRaw raw).take (min (nameLength - units.length) 15) ++
          (names.flatMap fileNameOfRaw).take (nameLength - (units.length + min (nameLength - units.length) 15)) := by
      have cut : (fileNameOfRaw raw).take (nameLength - units.length) =
        (fileNameOfRaw raw).take (min (nameLength - units.length) 15) :=
        List.take_eq_take_iff.mpr (by omega)
      have left : nameLength - units.length - 15 =
        nameLength - (units.length + min (nameLength - units.length) 15) := by omega
      rw [List.flatMap_cons, List.take_append, full, cut, left]
    rw [partsPass, split]
    generalize (fileNameOfRaw raw).take (min (nameLength - units.length) 15) = part at short ⊢
    have rest := ih (units ++ part) (by rw [List.length_append]; omega) (by rw [List.length_append]; omega)
    have here := @zip_upcased table part ((encodeUtf16 name).drop units.length) (by rw [List.length_drop]; omega)
    have apart : (encodeUtf16 name).drop units.length =
        ((encodeUtf16 name).drop units.length).take part.length ++
          (encodeUtf16 name).drop (units ++ part).length := by
      rw [List.length_append, ← List.drop_drop, List.take_append_drop]
    rw [Bool.and_eq_true, rest, apart, List.map_append, List.map_append, ← short, ← List.length_append]
    constructor
    · rintro ⟨first, second⟩
      rw [here.mp first, second]
    · intro both
      have cut := List.append_inj both (by
        rw [List.length_map, List.length_map, List.length_take, List.length_drop]
        omega)
      exact ⟨here.mpr cut.1, cut.2⟩

end Names

namespace Progress

variable {table : UpcaseTable} {filter : DirectoryEntryFilter} {place : Nat → Location}

/-- A search between entry sets goes past an entry that is neither a file entry nor the end marker. -/
theorem step_seeking {raw : RawDirEntry} {at_ : Location} (file : EntryType.ofByte (raw.byte 0) ≠ .fileAndDirectory)
    (going : isEndOfDirectory raw = false) : seeking.step filter table (raw, at_) = .seeking := by
  rw [step, if_neg file, going]
  rfl

theorem seeking_names (names : List RawDirEntry) :
    ∀ {k : Nat}, (∀ raw ∈ names, EntryType.ofByte (raw.byte 0) = .filename) →
    seeking.through filter table (placed place k names) = .seeking := by
  induction names with
  | nil => exact fun _ => rfl
  | cons raw names ih =>
    intro k areNames
    have type := areNames raw List.mem_cons_self
    have going : isEndOfDirectory raw = false := not_end_of_byte fun zero => by
      rw [EntryType.ofByte_zero.mpr zero] at type
      cases type
    rw [placed, through_cons, step_seeking (by rw [type]; simp) going]
    exact ih (List.forall_mem_of_forall_mem_cons areNames)

/-- The names of a set, which are as many as its name takes. -/
theorem naming_names {file stream : RawDirEntry} {here : Location} (names : List RawDirEntry) :
    ∀ {k : Nat} {units : List Nat},
    (∀ raw ∈ names, EntryType.ofByte (raw.byte 0) = .filename) → units.length <
      (StreamExtensionDirEntry.ofRaw stream).nameLength →
    names.length = FileSystem.divCeil ((StreamExtensionDirEntry.ofRaw stream).nameLength - units.length) 15 →
    (naming file here stream units).through filter table (placed place k names) =
      if partsPass filter table (StreamExtensionDirEntry.ofRaw stream).nameLength units names then
        .done (some (detailsOf file here stream)) else .seeking := by
  generalize known : (StreamExtensionDirEntry.ofRaw stream).nameLength = nameLength
  induction names with
  | nil =>
    intro k units _ more count
    rw [List.length_nil, FileSystem.divCeil] at count
    omega
  | cons raw names ih =>
    intro k units areNames more count
    rw [List.length_cons, FileSystem.divCeil] at count
    have later := List.forall_mem_of_forall_mem_cons areNames
    have short := length_namePart raw (nameLength - units.length)
    rw [placed, through_cons, step, if_pos (areNames raw List.mem_cons_self), partsPass, known]
    dsimp only
    generalize (fileNameOfRaw raw).take (min (nameLength - units.length) 15) = part at short ⊢
    cases passes : filter.fileName part units.length table with
    | false => exact seeking_names names later
    | true =>
      rw [if_pos rfl, Bool.true_and]
      by_cases whole : (units ++ part).length = nameLength
      · rw [List.length_append] at whole
        have last : names = [] := List.length_eq_zero_iff.mp (by omega)
        rw [if_pos (by rw [List.length_append]; exact whole), last, placed, through_nil, partsPass, if_pos rfl]
      · rw [if_neg whole]
        rw [List.length_append] at whole
        exact ih later (by rw [List.length_append]; omega) (by rw [List.length_append, FileSystem.divCeil]; omega)

/-- What a search does with an entry set depends on whether the set passes its filter. -/
theorem seeking_set (set : NamedSet) (k : Nat) : seeking.through filter table (placed place k set.raws) =
    if set.passes filter table then .done (some (set.details (place k))) else .seeking := by
  rw [NamedSet.passes, NamedSet.raws, placed, placed, through_cons, through_cons, step, if_pos set.isFile, step,
    if_pos set.isStream]
  cases filter.hash (StreamExtensionDirEntry.ofRaw set.stream).nameHash
    (FileDirEntry.ofRaw set.fileDir).fileAttributes &&
      filter.fileNameLength (StreamExtensionDirEntry.ofRaw set.stream).nameLength with
  | false => exact seeking_names set.names set.areNames
  | true =>
    rw [Bool.true_and, if_pos rfl]
    exact naming_names set.names set.areNames set.named set.nameCount

end Progress

section Lookup

variable {table : UpcaseTable} {name : List Char} {attributes : Option FileAttributes}

theorem NamedSet.length_units (set : NamedSet) :
    set.units.length = (StreamExtensionDirEntry.ofRaw set.stream).nameLength := by
  have whole : ∀ names : List RawDirEntry, (names.flatMap fileNameOfRaw).length = 15 * names.length := by
    intro names
    induction names with
    | nil => rfl
    | cons raw names ih =>
      rw [List.flatMap_cons, List.length_append, length_fileNameOfRaw, ih, List.length_cons]
      omega
  have count := set.nameCount
  rw [FileSystem.divCeil] at count
  rw [units, List.length_take, whole]
  omega

/-- A set passes exactly when it has the hash, the attributes, and the name unit by unit after up-casing. -/
theorem NamedSet.passes_iff (set : NamedSet) (hash : Nat) :
    set.passes (exactNameFilter name hash attributes (encodeUtf16 name).length) table = true ↔
      hash = (StreamExtensionDirEntry.ofRaw set.stream).nameHash ∧ set.units.map table.upcase =
        (encodeUtf16 name).map table.upcase ∧
        ∀ required ∈ attributes, (FileDirEntry.ofRaw set.fileDir).fileAttributes.contains required = true := by
  have length := set.length_units
  have parts : (encodeUtf16 name).length = (StreamExtensionDirEntry.ofRaw set.stream).nameLength →
      (partsPass (exactNameFilter name hash attributes (encodeUtf16 name).length) table
          (StreamExtensionDirEntry.ofRaw set.stream).nameLength [] set.names = true ↔
        (encodeUtf16 name).map table.upcase = set.units.map table.upcase) := by
    intro same
    have count := set.nameCount
    rw [FileSystem.divCeil] at count
    have whole := @partsPass_iff table name hash _ attributes same set.names [] (Nat.zero_le _)
      (by rw [List.length_nil]; omega)
    rw [← same] at whole ⊢
    rw [units, ← same]
    exact whole
  have required : (exactNameFilter name hash attributes (encodeUtf16 name).length).hash
        (StreamExtensionDirEntry.ofRaw set.stream).nameHash (FileDirEntry.ofRaw set.fileDir).fileAttributes = true ↔
      hash = (StreamExtensionDirEntry.ofRaw set.stream).nameHash ∧
        ∀ required ∈ attributes, (FileDirEntry.ofRaw set.fileDir).fileAttributes.contains required = true := by
    cases attributes <;> simp [exactNameFilter]
  rw [passes, Bool.and_eq_true, Bool.and_eq_true, required]
  constructor
  · rintro ⟨⟨⟨sum, allowed⟩, count⟩, passes⟩
    have same := beq_iff_eq.mp count
    exact ⟨sum, ((parts same).mp passes).symm, allowed⟩
  · rintro ⟨sum, same, allowed⟩
    have lengths := congrArg List.length same
    rw [List.length_map, List.length_map] at lengths
    have count := lengths.symm.trans length
    exact ⟨⟨⟨sum, allowed⟩, beq_iff_eq.mpr count⟩, (parts count).mpr same.symm⟩

/-- Of a set with the right hash, the name and the attributes decide. -/
theorem HashedSet.passes_iff (set : HashedSet table) :
    set.passes (exactNameFilter name (exFatHash table (encodeUtf16 name)) attributes (encodeUtf16 name).length)
      table = true ↔
      set.Matches name attributes := by
  rw [NamedSet.passes_iff]
  refine ⟨And.right, fun found => ⟨?_, found⟩⟩
  exact (set.nameHash.trans (exFatHash_congr found.1)).symm

/-- A search through pieces stops at the first set that passes. -/
theorem Progress.seeking_pieces {filter : DirectoryEntryFilter} {place : Nat → Location}
    (pieces : List NamedPiece) : ∀ k : Nat,
    seeking.through filter table (placed place k (pieces.flatMap (SetPiece.raws id))) =
      match (SetPiece.sets id place k pieces).find? fun found => found.1.passes filter table with
      | some found => .done (some (found.1.details found.2))
      | none => .seeking := by
  induction pieces with
  | nil => exact fun _ => rfl
  | cons p pieces ih =>
    intro k
    rw [List.flatMap_cons, placed_append, through_append]
    cases p with
    | spare raw unused =>
      have file : EntryType.ofByte (raw.byte 0) ≠ .fileAndDirectory := fun type => unused.1 (by
        rw [InUse, EntryType.ofByte_file.mp type]
        decide)
      rw [SetPiece.raws, placed, placed, through_cons, through_nil, step_seeking file unused.2]
      exact ih (k + 1)
    | other raw used =>
      have going : isEndOfDirectory raw = false := not_end_of_byte fun zero => used.1 (by
        rw [zero]
        rfl)
      rw [SetPiece.raws, placed, placed, through_cons, through_nil, step_seeking used.2 going]
      exact ih (k + 1)
    | file set =>
      rw [SetPiece.raws, SetPiece.sets, List.find?_cons, id, seeking_set]
      cases set.passes filter table with
      | true => exact through_done _ _
      | false => exact ih (k + set.raws.length)

end Lookup

namespace Volume

variable {size : Nat}

/-- Where an entry of a directory stands. -/
def entryPlace (v : Volume size) (cs : List Nat) (k : Nat) : Location :=
  ((v.dirEntries cs)[k]?.map Prod.snd).getD ⟨0, 0⟩

theorem dirEntries_placed (v : Volume size) (cs : List Nat) :
    v.dirEntries cs = placed (v.entryPlace cs) 0 ((v.dirEntries cs).map Prod.fst) := by
  refine List.ext_getElem? fun k => ?_
  rw [placed_get, List.getElem?_map, Nat.zero_add, entryPlace]
  cases (v.dirEntries cs)[k]? <;> rfl

end Volume

namespace DirectoryEntryChain

open Scan Progress

variable {size n : Nat} {home : Nat → CacheKind} {fs : FileSystem size n} {c fuel : Nat} {cs : List Nat}

/-- An accepted name is looked for with the hash of the specification. -/
theorem newExactNameFilter_ok {table : UpcaseTable} {name : List Char} {attributes : Option FileAttributes}
    {filter : DirectoryEntryFilter}
    {u : Unit} (accepted : newExactNameFilter name table attributes () = (.ok filter, u)) :
    filter = exactNameFilter name (exFatHash table (encodeUtf16 name)) attributes (encodeUtf16 name).length := by
  obtain ⟨pair, ⟨⟩, hashed, made⟩ := Exec.bind_eq_ok.mp accepted
  have sum : hashedName table name = .ok pair := congrArg Prod.fst hashed
  obtain ⟨_, hash, count⟩ := hashedName_ok sum
  rw [← hash, ← count]
  exact (Except.ok.inj (Prod.mk.inj made).1).symm

/-- `next_file_entry`, from the beginning of a directory, finds the first entry set that passes its filter. -/
theorem nextFileEntry_pieces (room : rawEntryLen ≤ size) (layout : Layout size home fs.setup) (sound : fs.Sound home)
    (head : cs.head? = some c) (inHeap : ∀ d ∈ cs, (fs.volume home).InHeap d)
    (data : ∀ d ∈ cs, (fs.volume home).IsData home d)
    (followed : (fs.volume home).Followed cs) {pieces : List NamedPiece} {rest : List RawDirEntry}
    (made : ((fs.volume home).dirEntries cs).map Prod.fst = pieces.flatMap (SetPiece.raws id) ++ rest)
    (ended : ∀ raw ∈ rest.head?, isEndOfDirectory raw = true) (filter : DirectoryEntryFilter)
    (enough : ((fs.volume home).dirEntries cs).length < fuel) :
    ∃ s', nextFileEntry filter none fuel ⟨fs, .new c fs.fs⟩ =
        (.ok (((SetPiece.sets id ((fs.volume home).entryPlace cs) 0 pieces).find? fun found =>
          found.1.passes filter fs.upcaseTable).map
          fun found => (found.1.details found.2, [])), s') ∧
      s'.Shows home (fs.volume home) := by
  obtain ⟨ds, rfl⟩ : ∃ ds, cs = c :: ds := by
    cases cs with
    | nil => cases head
    | cons d ds => exact ⟨ds, by rw [Option.some.inj head]⟩
  have enters := new_enters room layout sound rfl (inHeap c List.mem_cons_self) (data c List.mem_cons_self)
  have visits := (enters.visits_iff room layout ds inHeap data).mpr followed
  obtain ⟨s', run, shows⟩ := @nextFileEntry_search _ _ _ _ filter fuel _ _ visits enough
  have found : searchSlots filter fs.upcaseTable ((fs.volume home).dirEntries (c :: ds)) =
      ((SetPiece.sets id ((fs.volume home).entryPlace (c :: ds)) 0 pieces).find? fun found =>
        found.1.passes filter fs.upcaseTable).map
        fun found => found.1.details found.2 := by
    rw [searchSlots, Volume.dirEntries_placed, made, placed_append, through_append, seeking_pieces]
    cases (SetPiece.sets id ((fs.volume home).entryPlace (c :: ds)) 0 pieces).find? fun found =>
      found.1.passes filter fs.upcaseTable with
    | some found => rw [through_done]; rfl
    | none =>
      cases rest with
      | nil => rfl
      | cons raw rest =>
        have halt := ended raw rfl
        have other : EntryType.ofByte (raw.byte 0) ≠ .fileAndDirectory := by
          rw [EntryType.ofByte_zero.mpr (isEnd_byte halt)]
          simp
        rw [placed, through_cons, step, if_neg other, if_pos halt, through_done]
        rfl
  have table : (fs.volume home).setup.upcaseTable = fs.upcaseTable := rfl
  rw [table, found, Option.map_map] at run
  exact ⟨s', run, shows⟩

/-- `storedVolume` with an up-case table. -/
def letteredVolume : FileSystem 512 1 := { storedVolume with upcaseTable := .default }

end DirectoryEntryChain

end ExFatSlim
