import Mathlib.Data.List.Find
import ExFatSlim.Mounting
import ExFatSlim.NameLookup

namespace ExFatSlim

/-- The mappings, from unit `u` on, that the words of an up-case table stand
for: 0xFFFF is followed by a number of units that map to themselves, and every
other word is the mapping of one unit. -/
def expandTable : Nat → List Nat → List Nat
  | _, [] => []
  | _, [w] => [w]
  | u, w :: count :: rest =>
    if w = 0xFFFF then List.range' u count ++ expandTable (u + count) rest
    else w :: expandTable (u + 1) (count :: rest)

/-- The words of a table that maps every unit, one by one or with runs. -/
def StoresTable (words : List Nat) (mapping : Nat → Nat) : Prop :=
  words = (List.range 65536).map mapping ∨ expandTable 0 words = (List.range 65536).map mapping

/-- The sector where a cluster begins. -/
def BootSector.sectorOf (boot : BootSector) (c : Nat) : Nat :=
  boot.clusterHeapOffset + (c - 2) * boot.sectorsPerCluster

/-- The up-case entries in the first sector of the root directory lead to a
table that begins with these words. -/
def KeepsTable {size : Nat} (blocks : Nat → Block size) (words : List Nat) : Prop :=
  let boot := BootSector.ofBlock (blocks 0)
  ∀ raw ∈ (List.range (size / rawEntryLen)).map fun k =>
    (blocks (boot.sectorOf boot.firstClusterOfRootDir)).chunk rawEntryLen k,
    EntryType.ofByte (raw.byte 0) = .upcaseTable → ∀ i w, i < size / 2 → words[i]? = some w →
      (blocks (boot.sectorOf (raw.le 20 4))).le (2 * i) 2 = w

/-- Before the first run the words are the mappings. -/
theorem expandTable_take (u : Nat) (words : List Nat) : ∀ k : Nat, 0xFFFF ∉ words.take k →
    (expandTable u words).take k = words.take k := by
  fun_induction expandTable u words with
  | case1 => exact fun _ _ => rfl
  | case2 u w => exact fun _ _ => rfl
  | case3 u count rest ih =>
    intro k plain
    cases k with
    | zero => rfl
    | succ k => exact absurd (by simp) plain
  | case4 u w count rest other ih =>
    intro k plain
    cases k with
    | zero => rfl
    | succ k =>
      rw [List.take_succ_cons, List.mem_cons, not_or] at plain
      rw [List.take_succ_cons, List.take_succ_cons, ih k plain.2]

theorem expandTable_append {words rest : List Nat} : ∀ {u : Nat}, 0xFFFF ∉ words →
    expandTable u (words ++ rest) = words ++ expandTable (u + words.length) rest := by
  induction words with
  | nil => exact fun _ => rfl
  | cons w words ih =>
    intro u plain
    rw [List.mem_cons, not_or] at plain
    have next := @ih (u + 1) plain.2
    rw [List.length_cons, show u + (words.length + 1) = u + 1 + words.length by omega, List.cons_append,
      List.cons_append, ← next]
    cases words ++ rest with
    | nil => rfl
    | cons count rest => rw [expandTable, if_neg (Ne.symm plain.1)]

/-- Where no run begins among the first 128 words, they are the mappings of the units below 128. -/
theorem StoresTable.word {words : List Nat} {mapping : Nat → Nat} (stores : StoresTable words mapping)
    (early : 0xFFFF ∉ words.take 128)
    {u : Nat} (low : u < 128) : words[u]? = some (mapping u) := by
  have mapped : ((List.range 65536).map mapping)[u]? = some (mapping u) := by
    rw [List.getElem?_map, List.getElem?_range (by omega)]
    rfl
  rcases stores with plain | expanded
  · rw [plain, mapped]
  · have same := congrArg (·[u]?) (expandTable_take 0 words 128 early)
    simp only [List.getElem?_take, if_pos low] at same
    rw [← same, expanded, mapped]

/-- What the scan of the root directory reports as up-case table is an up-case entry of it. -/
theorem scanRootEntries_upcase {σ : Type} (entries : List RawDirEntry) :
    ∀ {found found' : RootEntries} {s s' : σ} {c : Nat},
    (scanRootEntries entries found : ExFat σ RootEntries) s = (.ok found', s') → found'.upcase = some c →
    found.upcase = some c ∨ ∃ raw ∈ entries, EntryType.ofByte (raw.byte 0) = .upcaseTable ∧ raw.le 20 4 = c := by
  induction entries with
  | nil =>
    intro found found' s s' c run upcase
    cases run
    exact Or.inl upcase
  | cons raw rest ih =>
    intro found found' s s' c run upcase
    -- the rest of the scan, from what the first entry leaves
    have later : ∀ {middle : RootEntries} {t : σ},
      (if middle.bitmap.isSome && middle.upcase.isSome && middle.volumeLabel.isSome then
        pure middle else scanRootEntries rest middle : ExFat σ RootEntries) t = (.ok found', s') →
        middle.upcase = some c ∨ ∃ raw' ∈ rest, EntryType.ofByte (raw'.byte 0) = .upcaseTable ∧ raw'.le 20 4 = c := by
      intro middle t run
      split at run
      · cases run
        exact Or.inl upcase
      · exact ih run upcase
    have widen : (∃ raw' ∈ rest, EntryType.ofByte (raw'.byte 0) = .upcaseTable ∧ raw'.le 20 4 = c) →
        ∃ raw' ∈ raw :: rest, EntryType.ofByte (raw'.byte 0) = .upcaseTable ∧ raw'.le 20 4 = c := by
      rintro ⟨raw', member, is⟩
      exact ⟨raw', List.mem_cons_of_mem raw member, is⟩
    revert run
    rw [scanRootEntries]
    dsimp only
    split
    · intro run
      cases run
      exact Or.inl upcase
    · generalize kind : EntryType.ofByte (raw.byte 0) = type
      split
      · exact fun run => (later run).imp id widen
      · intro run
        obtain ⟨label, t, _, run⟩ := Exec.bind_eq_ok.mp run
        exact (later run).imp id widen
      · intro run
        refine Or.inr ((later run).elim (fun equal => ?_) widen)
        exact ⟨raw, List.mem_cons_self, kind, Option.some.inj equal⟩
      · exact fun run => (later run).imp id widen

/-- The units that the loaded table maps as the stored one does: those below 128 whose mapping
is the word at their place, and those above that map to themselves. -/
def Kept (words : List Nat) (mapping : Nat → Nat) (u : Nat) : Prop :=
  if u < 128 then words[u]? = some (mapping u) else mapping u = u

instance (words : List Nat) (mapping : Nat → Nat) (u : Nat) : Decidable (Kept words mapping u) :=
  inferInstanceAs (Decidable (if u < 128 then words[u]? = some (mapping u) else mapping u = u))

theorem StoresTable.kept {words : List Nat} {mapping : Nat → Nat} (stores : StoresTable words mapping)
    (early : 0xFFFF ∉ words.take 128)
    {u : Nat} (low : u < 128) : Kept words mapping u := by
  rw [Kept, if_pos low]
  exact stores.word early low

namespace FileSystem

variable {size n : Nat} {fs fs' : FileSystem size n} {words : List Nat} {mapping : Nat → Nat}

/-- After a mount, a unit below 128 is up-cased to the word at its place. -/
theorem upcase_word (fresh : fs.isMounted = false) (run : mount fs = (.ok (), fs'))
    (keeps : KeepsTable fs.dev.blocks words) {u w : Nat}
    (low : u < 128) (word : words[u]? = some w) : fs'.upcaseTable.upcase u = w := by
  have mounts := mount_ok fresh run
  obtain ⟨found, s, scanned, c, upcase, loaded⟩ := mounts.root
  have long := mounts.boot.long
  rw [mounts.details] at scanned loaded
  obtain empty | ⟨raw, member, type, rfl⟩ := scanRootEntries_upcase _ scanned upcase
  · cases empty
  · rw [UpcaseTable.upcase, dif_pos low, loaded]
    exact keeps raw member type u w (by omega) word

theorem upcase_of_le (table : UpcaseTable) {u : Nat} (high : 128 ≤ u) : table.upcase u = u := by
  rw [UpcaseTable.upcase, dif_neg (Nat.not_lt.mpr high)]

/-- After a mount, up-casing is what the stored table says for the kept units and no others. -/
theorem upcase_iff_kept (fresh : fs.isMounted = false) (run : mount fs = (.ok (), fs'))
    (keeps : KeepsTable fs.dev.blocks words) {u : Nat}
    (within : u < words.length ∨ 128 ≤ u) : fs'.upcaseTable.upcase u = mapping u ↔ Kept words mapping u := by
  by_cases low : u < 128
  · obtain ⟨w, word⟩ : ∃ w, words[u]? = some w := ⟨_, List.getElem?_eq_getElem (by omega)⟩
    rw [Kept, if_pos low, upcase_word fresh run keeps low word, word, Option.some.injEq]
  · rw [Kept, if_neg low, upcase_of_le _ (Nat.not_lt.mp low), eq_comm]

theorem upcase_of_kept (fresh : fs.isMounted = false) (run : mount fs = (.ok (), fs'))
    (keeps : KeepsTable fs.dev.blocks words) {u : Nat}
    (kept : Kept words mapping u) : fs'.upcaseTable.upcase u = mapping u := by
  refine (upcase_iff_kept fresh run keeps ?_).mpr kept
  by_cases low : u < 128
  · rw [Kept, if_pos low] at kept
    exact Or.inl (List.getElem?_eq_some_iff.mp kept).1
  · exact Or.inr (Nat.not_lt.mp low)

end FileSystem

/-- The name hash of the exFAT specification for any table. -/
def tableHash (mapping : Nat → Nat) (units : List Nat) : Nat :=
  RotatingSum.wrapping 16 (units.flatMap fun c => [mapping c % 256, mapping c / 256 % 256]) 0

theorem tableHash_congr {mapping mapping' : Nat → Nat} {xs ys : List Nat} (same : xs.map mapping = ys.map mapping') :
    tableHash mapping xs = tableHash mapping' ys := by
  have bytes : ∀ (f : Nat → Nat) (l : List Nat), (l.flatMap fun c => [f c % 256, f c / 256 % 256]) =
      (l.map f).flatMap fun c => [c % 256, c / 256 % 256] := by
    intro f l
    rw [List.flatMap_map]
  rw [tableHash, tableHash, bytes mapping, bytes mapping', same]

/-- The set has the name, unit by unit after the table's up-casing, and the attributes. -/
def NamedSet.MatchesBy (set : NamedSet) (mapping : Nat → Nat) (name : List Char)
    (attributes : Option FileAttributes) : Prop :=
  set.units.map mapping = (encodeUtf16 name).map mapping ∧
    ∀ required ∈ attributes, (FileDirEntry.ofRaw set.fileDir).fileAttributes.contains required = true

instance (set : NamedSet) (mapping : Nat → Nat) (name : List Char) (attributes : Option FileAttributes) :
    Decidable (set.MatchesBy mapping name attributes) :=
  inferInstanceAs (Decidable (_ ∧ _))

/-- A set with the table's hash. Its units are kept if the name, by either table, is its own. -/
structure NamedSet.Honest (set : NamedSet) (table : UpcaseTable) (words : List Nat) (mapping : Nat → Nat)
    (name : List Char) : Prop where
  hash : (StreamExtensionDirEntry.ofRaw set.stream).nameHash = tableHash mapping set.units
  kept : set.units.map mapping = (encodeUtf16 name).map mapping ∨ set.units.map table.upcase =
    (encodeUtf16 name).map table.upcase →
    ∀ u ∈ set.units, Kept words mapping u

/-- Of an honest set, the name by the stored table and the attributes decide. -/
theorem NamedSet.Honest.passes_iff {set : NamedSet} {table : UpcaseTable} {words : List Nat} {mapping : Nat → Nat}
    {name : List Char}
    {attributes : Option FileAttributes} (honest : set.Honest table words mapping name)
    (agrees : ∀ u, Kept words mapping u → table.upcase u = mapping u)
    (kept : ∀ u ∈ encodeUtf16 name, Kept words mapping u) :
    set.passes (exactNameFilter name (exFatHash table (encodeUtf16 name)) attributes (encodeUtf16 name).length)
      table = true ↔
      set.MatchesBy mapping name attributes := by
  have nameUnits : (encodeUtf16 name).map table.upcase = (encodeUtf16 name).map mapping :=
    List.map_congr_left fun u member => agrees u (kept u member)
  rw [NamedSet.passes_iff, honest.hash, NamedSet.MatchesBy]
  constructor
  · rintro ⟨_, same, allowed⟩
    have own := List.map_congr_left fun u member => agrees u (honest.kept (Or.inr same) u member)
    exact ⟨own.symm.trans (same.trans nameUnits), allowed⟩
  · rintro ⟨same, allowed⟩
    have own := List.map_congr_left fun u member => agrees u (honest.kept (Or.inl same) u member)
    exact ⟨tableHash_congr (nameUnits.trans same.symm), own.trans (same.trans nameUnits.symm), allowed⟩

theorem SetPiece.mem_of_mem_sets {σ : Type} {named : σ → NamedSet} {place : Nat → Location}
    (pieces : List (SetPiece σ)) :
    ∀ {k : Nat} {found : σ × Location}, found ∈ sets named place k pieces → .file found.1 ∈ pieces := by
  induction pieces with
  | nil => exact fun member => (by cases member)
  | cons p pieces ih =>
    intro k found member
    cases p with
    | spare raw unused => exact List.mem_cons_of_mem _ (ih member)
    | other raw used => exact List.mem_cons_of_mem _ (ih member)
    | file set =>
      obtain rfl | member := List.mem_cons.mp member
      · exact List.mem_cons_self
      · exact List.mem_cons_of_mem _ (ih member)

/-- The plain lookup by the stored table: the first set with the name and the attributes. -/
def lookupBy (mapping : Nat → Nat) (name : List Char) (attributes : Option FileAttributes) (place : Nat → Location)
    (pieces : List NamedPiece) : Option FileDetails :=
  ((SetPiece.sets id place 0 pieces).find? fun found => decide (found.1.MatchesBy mapping name attributes)).map
    fun found => found.1.details found.2

/-- The clusters of a directory that begins at `c` are known, and so are the pieces that stand in them. -/
structure Volume.Lists {size : Nat} (v : Volume size) (home : Nat → CacheKind) (c : Nat) (cs : List Nat)
    (pieces : List NamedPiece) : Prop where
  head : cs.head? = some c
  inHeap : ∀ d ∈ cs, v.InHeap d
  data : ∀ d ∈ cs, v.IsData home d
  followed : v.Followed cs
  made : ∃ rest, (v.dirEntries cs).map Prod.fst = pieces.flatMap (SetPiece.raws id) ++ rest ∧ ∀ raw ∈ rest.head?,
    isEndOfDirectory raw = true

namespace FileSystem

open DirectoryEntryChain

variable {size n : Nat} {fs fs' : FileSystem size n} {words : List Nat} {mapping : Nat → Nat}

/-- A mount loads the mapping of the kept units and of no others. From then on
a name of kept units is found where the stored table says that it is. -/
theorem mount_finds_kept (fresh : fs.isMounted = false) (run : mount fs = (.ok (), fs'))
    (keeps : KeepsTable fs.dev.blocks words)
    (stores : StoresTable words mapping) :
    (∀ u, u < words.length ∨ 128 ≤ u → (fs'.upcaseTable.upcase u = mapping u ↔ Kept words mapping u)) ∧ 
    (0xFFFF ∉ words.take 128 → ∀ u < 128, Kept words mapping u) ∧ 
    ∀ (later : FileSystem size n) (home : Nat → CacheKind) (c : Nat) (cs : List Nat) (pieces : List NamedPiece)
    (name : List Char)
      (attributes : Option FileAttributes) (filter : DirectoryEntryFilter) (fuel : Nat), rawEntryLen ≤ size →
      later.upcaseTable = fs'.upcaseTable → Layout size home later.setup → later.Sound home →
      (later.volume home).Lists home c cs pieces →
      newExactNameFilter name later.upcaseTable attributes () = (.ok filter, ()) →
        (∀ u ∈ encodeUtf16 name, Kept words mapping u) →
      (∀ set, .file set ∈ pieces → set.Honest later.upcaseTable words mapping name) →
      ((later.volume home).dirEntries cs).length < fuel →
      ∃ s', nextFileEntry filter none fuel ⟨later, .new c later.fs⟩ =
          (.ok ((lookupBy mapping name attributes ((later.volume home).entryPlace cs) pieces).map fun details =>
            (details, [])), s') ∧
        s'.Shows home (later.volume home) := by
  refine ⟨fun u within => upcase_iff_kept fresh run keeps within, fun early u low => stores.kept early low, ?_⟩
  intro later home c cs pieces name attributes filter fuel room table layout sound lists accepted kept honest enough
  obtain ⟨rest, made, ended⟩ := lists.made
  obtain ⟨s', found, shows⟩ :=
    nextFileEntry_pieces room layout sound lists.head lists.inHeap lists.data lists.followed
    made ended filter enough
  refine ⟨s', found.trans ?_, shows⟩
  have agrees : ∀ u, Kept words mapping u → later.upcaseTable.upcase u = mapping u := by
    intro u kept
    rw [table]
    exact upcase_of_kept fresh run keeps kept
  have same : ∀ found ∈ SetPiece.sets id ((later.volume home).entryPlace cs) 0 pieces,
      found.1.passes filter later.upcaseTable = decide (found.1.MatchesBy mapping name attributes) := by
    intro found member
    rw [Bool.eq_iff_iff, decide_eq_true_iff, newExactNameFilter_ok accepted]
    exact (honest _ (SetPiece.mem_of_mem_sets _ member)).passes_iff agrees kept
  rw [lookupBy, Option.map_map, List.find?_congr same]
  rfl

/-- Lower-case letters of ASCII, and é, have upper case. -/
def latinMapping (u : Nat) : Nat := if 97 ≤ u ∧ u ≤ 122 ∨ u = 0xE9 then u - 32 else u

/-- The table in compressed form: 256 mappings and one run. -/
def latinWords : List Nat := (List.range 256).map latinMapping ++ [0xFFFF, 65280]

theorem latinWords_stores : StoresTable latinWords latinMapping := by
  have plain : 0xFFFF ∉ (List.range 256).map latinMapping := by decide +kernel
  have high : (List.range' 256 65280).map latinMapping = List.range' 256 65280 := by
    refine (List.map_congr_left fun u member => ?_).trans (List.map_id _)
    have low := (List.mem_range'_1.mp member).1
    rw [latinMapping, if_neg (by omega), id]
  refine Or.inr ?_
  rw [latinWords, expandTable_append plain, List.length_map, List.length_range, expandTable, if_pos rfl, expandTable,
    List.append_nil,
    List.range_eq_range', List.range_eq_range', show (65536 : Nat) = 256 + 65280 from rfl, ← List.range'_append,
      List.map_append, high]

/-- A file `é` with the hash of its name by this table. -/
def accentSet : EntrySet := NewEntry.toSet ⟨['é'], 5, attrArchive, Session.allocatedFlags, 512, 512⟩ 32868 {}
  ⟨by decide, by decide, by decide, by decide⟩ (by decide) (by decide) noClock_fits

/-- A volume with this table, and with the files `f` and `é` in its root directory. -/
def latinVolume : FileSystem 512 1 :=
  unmountedVolume 9 (storedSet.raws ++ accentSet.raws) fun s =>
    if s = 102 then fun i =>
      .ofNat (if i.val % 2 = 0 then latinMapping (i.val / 2) % 256 else latinMapping (i.val / 2) / 256)
      else fun _ => 0

theorem systemEntries_other :
    ∀ raw ∈ systemEntries, InUse raw ∧ EntryType.ofByte (raw.byte 0) ≠ .fileAndDirectory := by
  intro raw member
  have all : systemEntries.all (fun raw => decide (InUse raw ∧ EntryType.ofByte (raw.byte 0) ≠ .fileAndDirectory)) =
    true := by decide +kernel
  exact of_decide_eq_true (List.all_eq_true.mp all raw member)

def latinPieces : List NamedPiece :=
  (systemEntries.attach.map fun raw => .other raw.1 (systemEntries_other raw.1 raw.2)) ++
    [.file storedSet.toNamedSet, .file accentSet.toNamedSet]

def latinHome (s : Nat) : CacheKind := if s = 101 then .bitmap else if s = 20 then .fat else .data

theorem latinVolume_keeps : KeepsTable latinVolume.dev.blocks latinWords := by
  intro raw member type i w inside word
  have cluster : ∀ k < 16, EntryType.ofByte (((latinVolume.dev.blocks 100).chunk rawEntryLen k).byte 0) =
    .upcaseTable →
      ((latinVolume.dev.blocks 100).chunk rawEntryLen k).le 20 4 = 4 := by decide +kernel
  have mapped : ∀ i < 256, (latinVolume.dev.blocks 102).le (2 * i) 2 = latinMapping i := by decide +kernel
  have word' : latinWords[i]? = some (latinMapping i) := by
    rw [latinWords, List.getElem?_append_left (by rw [List.length_map, List.length_range]; exact inside),
      List.getElem?_map,
      List.getElem?_range inside]
    rfl
  have root : (BootSector.ofBlock (latinVolume.dev.blocks 0)).sectorOf
    (BootSector.ofBlock (latinVolume.dev.blocks 0)).firstClusterOfRootDir =
      100 := by decide +kernel
  rw [root] at member
  obtain ⟨k, below, rfl⟩ := List.mem_map.mp member
  rw [cluster k (List.mem_range.mp below) type]
  have table : (BootSector.ofBlock (latinVolume.dev.blocks 0)).sectorOf 4 = 102 := by decide +kernel
  rw [table, mapped i inside]
  exact Option.some.inj (word'.symm.trans word)

theorem latinVolume_mounts : mount latinVolume = (.ok (), (mount latinVolume).2) :=
  Exec.run_of_fst (by decide +kernel)

theorem latinVolume_layout : Layout 512 latinHome (mount latinVolume).2.setup where
  pos := by decide
  words := by decide
  covers := by decide +kernel
  padding := by decide +kernel
  sectors := by decide +kernel
  mounted := by decide +kernel
  ids := by decide +kernel
  fat := by
    refine ⟨20, by decide +kernel, fun c low high => ?_⟩
    have small : c < 10 := high
    have quotient : c / Fat.numEntries 512 = 0 := by
      simp only [Fat.numEntries, Fat.entrySize]
      omega
    rw [quotient]
    decide
  sectorsPerCluster := by decide +kernel
  clusterLength := by decide +kernel
  clusterBound := by decide +kernel
  heap := by decide +kernel

theorem latinVolume_lists : ((mount latinVolume).2.volume latinHome).Lists latinHome 2 [2] latinPieces where
  head := rfl
  inHeap d member := by
    rw [List.mem_singleton.mp member]
    exact ⟨by decide, by decide +kernel⟩
  data d member := by
    rw [List.mem_singleton.mp member]
    intro i inside
    obtain rfl : i = 0 := Nat.lt_one_iff.mp inside
    decide +kernel
  followed := by
    intro i c here _
    obtain ⟨rfl, rfl⟩ : i = 0 ∧ c = 2 := by
      cases i with
      | zero => exact ⟨rfl, (Option.some.inj here).symm⟩
      | succ i => cases here
    decide +kernel
  made := ⟨List.replicate 7 zeroEntry, by decide +kernel, fun raw member =>
    Option.some.inj member ▸ isEndOfDirectory_zeroEntry⟩

/-- The hashes of both sets are those of the stored table, and neither could be taken for the
name `F` but the first. -/
theorem latinPieces_honest :
    ∀ set, .file set ∈ latinPieces → set.Honest (mount latinVolume).2.upcaseTable latinWords latinMapping ['F'] := by
  intro set member
  rcases List.mem_append.mp member with other | file
  · obtain ⟨raw, _, equal⟩ := List.mem_map.mp other
    cases equal
  · rcases List.mem_pair.mp file with equal | equal
    · cases equal
      exact ⟨by decide +kernel, by decide +kernel⟩
    · cases equal
      exact ⟨by decide +kernel, by decide +kernel⟩

theorem mount_finds_kept_latin : ∃ s', nextFileEntry (exactNameFilter ['F'] 35 (some attrArchive) 1) none 20
      ⟨(mount latinVolume).2, .new 2 (mount latinVolume).2.fs⟩ = (.ok (some (storedSet.details ⟨100, 3⟩, [])), s') ∧
    s'.Shows latinHome ((mount latinVolume).2.volume latinHome) := by
  have found : lookupBy latinMapping ['F'] (some attrArchive)
    (((mount latinVolume).2.volume latinHome).entryPlace [2]) latinPieces =
      some (storedSet.details ⟨100, 3⟩) := by decide +kernel
  have sound : (mount latinVolume).2.Sound latinHome := FileSystem.sound_of_new _ rfl fun k => by cases k <;> rfl
  have accepted : (newExactNameFilter ['F'] (mount latinVolume).2.upcaseTable (some attrArchive) : ExFat Unit _) () =
      (.ok (exactNameFilter ['F'] 35 (some attrArchive) 1), ()) :=
    Exec.bind_eq_ok.mpr ⟨(35, 1), (), Exec.run_of_fst (by decide +kernel), rfl⟩
  have run := (mount_finds_kept rfl latinVolume_mounts latinVolume_keeps latinWords_stores).2.2 _ latinHome 2
    [2] latinPieces ['F']
    (some attrArchive) _ 20 (by decide) rfl latinVolume_layout sound latinVolume_lists accepted
      (by decide +kernel) latinPieces_honest
    (by decide +kernel)
  rw [found] at run
  exact run

/-- The file `é` is in the directory and has the hash that the stored table gives, but a mount
does not load the mapping of its unit, and its own name does not find it. -/
theorem mount_loses_accent : ∃ fs' filter set s', latinVolume.isMounted = false ∧ mount latinVolume = (.ok (), fs') ∧
    KeepsTable latinVolume.dev.blocks latinWords ∧ StoresTable latinWords latinMapping ∧
    (∀ set, .file set ∈ latinPieces → (StreamExtensionDirEntry.ofRaw set.stream).nameHash =
      tableHash latinMapping set.units) ∧
    fs'.upcaseTable.upcase 0xE9 ≠ latinMapping 0xE9 ∧
    (fs'.volume latinHome).Lists latinHome 2 [2] latinPieces ∧ .file set ∈ latinPieces ∧
      set.units = encodeUtf16 ['é'] ∧
    newExactNameFilter ['é'] fs'.upcaseTable none () = (.ok filter, ()) ∧
    nextFileEntry filter none 20 ⟨fs', .new 2 fs'.fs⟩ = (.ok none, s') := by
  refine ⟨_, exactNameFilter ['é'] (exFatHash (mount latinVolume).2.upcaseTable [0xE9]) none 1, _, _, rfl,
    latinVolume_mounts,
    latinVolume_keeps, latinWords_stores, ?_, by decide +kernel, latinVolume_lists,
    List.mem_append_right _ (List.mem_cons_of_mem _ List.mem_cons_self), by decide +kernel,
    Exec.bind_eq_ok.mpr ⟨(_, 1), (), Exec.run_of_fst (by decide +kernel), rfl⟩, Exec.run_of_fst (by decide +kernel)⟩
  exact fun set member => (latinPieces_honest set member).hash

end FileSystem

end ExFatSlim
