import ExFatSlim.FolderRemoval
import ExFatSlim.Renaming

namespace ExFatSlim

namespace Volume

variable {size : Nat} {home : Nat → CacheKind} {v : Volume size} {aside : Set Nat} {cat : Catalog} {path : List Char}

/-- A path names what it reaches. -/
theorem Catalogued.named_iff (shows : v.Catalogued home aside cat) {x : Node (List UInt8)} :
    Store.named (v.paths cat) (v.setup.upcaseTable.keys path) = some x ↔
      ∃ c i set, v.Reaches cat path c i set ∧ (cat.entry v c i set).node = x := by
  rw [Store.named_eq_some, shows.reaches_iff]
  constructor
  · rintro ⟨some_, ⟨none_, _⟩ | reached⟩
    · exact absurd none_ some_
    · exact reached
  · rintro ⟨c, i, set, reaches, node⟩
    refine ⟨?_, .inr ⟨c, i, set, reaches, node⟩⟩
    obtain ⟨ks, split, _⟩ := reaches
    rw [split]
    exact List.append_ne_nil_of_right_ne_nil ks (List.cons_ne_nil _ [])

variable {c i : Nat} {set : EntrySet}

theorem entry_file (file : set.isFolder = false) :
    (cat.entry v c i set).node = .file (set.content v (cat.clusters c i)) := by
  rw [Catalog.entry, file]
  rfl

theorem entry_folder (kind : set.isFolder = true) : (cat.entry v c i set).node = .folder := by
  rw [Catalog.entry, if_pos kind]
  rfl

theorem Creatable.dropLast {missing : Nat} (creatable : v.Creatable path missing) :
    (v.setup.upcaseTable.keys path).dropLast = v.setup.upcaseTable.keys (splitPath path).1 := by
  rw [creatable.keys, List.dropLast_concat]

section Named

variable (shows : v.Catalogued home aside cat)

include shows

theorem Catalogued.named_none (none_ : Store.named (v.paths cat) (v.setup.upcaseTable.keys path) = none) (c i : Nat)
    (set : EntrySet) :
    ¬ v.Reaches cat path c i set := fun reaches => by
  cases none_.symm.trans (shows.named_iff.mpr ⟨c, i, set, reaches, rfl⟩)

theorem Catalogued.named_file {content : List UInt8}
    (found : Store.named (v.paths cat) (v.setup.upcaseTable.keys path) = some (.file content)) :
    ∃ c i set, v.Reaches cat path c i set ∧ set.isFolder = false ∧ set.content v (cat.clusters c i) = content := by
  obtain ⟨c, i, set, reaches, node⟩ := shows.named_iff.mp found
  refine ⟨c, i, set, reaches, ?_⟩
  cases kind : set.isFolder with
  | true => cases (entry_folder kind).symm.trans node
  | false => exact ⟨rfl, Node.file.inj ((entry_file kind).symm.trans node)⟩

theorem Catalogued.named_folder (found : Store.named (v.paths cat) (v.setup.upcaseTable.keys path) = some .folder) :
    ∃ c i set, v.Reaches cat path c i set ∧ set.isFolder = true := by
  obtain ⟨c, i, set, reaches, node⟩ := shows.named_iff.mp found
  refine ⟨c, i, set, reaches, ?_⟩
  cases kind : set.isFolder with
  | true => rfl
  | false => cases (entry_file kind).symm.trans node

/-- Where no file is named, a path reaches no file. -/
theorem Catalogued.reaches_folder
    (none_ : ∀ content, Store.named (v.paths cat) (v.setup.upcaseTable.keys path) ≠ some (.file content))
    (reaches : v.Reaches cat path c i set) : set.isFolder = true := by
  cases kind : set.isFolder with
  | true => rfl
  | false => exact absurd (shows.named_iff.mpr ⟨c, i, set, reaches, entry_file kind⟩) (none_ _)

theorem Catalogued.reaches_file (none_ : Store.named (v.paths cat) (v.setup.upcaseTable.keys path) ≠ some .folder)
    (reaches : v.Reaches cat path c i set) : set.isFolder = false := by
  cases kind : set.isFolder with
  | true => exact absurd (shows.named_iff.mpr ⟨c, i, set, reaches, entry_folder kind⟩) none_
  | false => rfl

omit shows in
/-- The way to what a path reaches is one of folders. -/
theorem Reaches.furnished (reaches : v.Reaches cat path c i set) :
    Store.furnished (v.paths cat) (v.setup.upcaseTable.keys path).dropLast = v.paths cat := by
  obtain ⟨ks, split, walked, _⟩ := reaches
  rw [split, List.dropLast_concat]
  exact Store.furnished_walked walked

/-- A folder has no entries just when there is nothing right below its path. -/
theorem Reaches.empty_iff (reaches : v.Reaches cat path c i set) (kind : set.isFolder = true) :
    (cat.list set.firstCluster).sets = [] ↔ ∀ k, v.paths cat (v.setup.upcaseTable.keys path ++ [k]) = none := by
  obtain ⟨ks, split, walked, has⟩ := reaches
  have here : (cat.store v).walk v.setup.details.firstClusterOfRootDir (v.setup.upcaseTable.keys path) =
      some set.firstCluster := by
    rw [split]
    exact Store.walk_snoc.mpr ⟨c, walked, shows.store_folder.mpr ⟨i, set, has, rfl, kind, rfl⟩⟩
  rw [← shows.hollow_iff (shows.inner has kind).folder]
  refine forall_congr' fun k => ?_
  rw [Volume.paths, Store.look_snoc here, Option.map_eq_none_iff]

end Named

end Volume

namespace FileSystem

open Volume Store

variable {size n : Nat} {home : Nat → CacheKind} {aside : Set Nat} {base : Setup} {fuel : Nat}
  {fs fs' : FileSystem size n}
  {P P' : List (List Nat) → Option (Node (List UInt8))} {path : List Char} {α : Type}

/-- The volume has under every path what `P` says, and every cluster that is in
use has its place there or is one of those that are set aside, such as those of
the bitmap and of the up-case table. It is one that `Catalogued` describes, with
folders of one cluster each, `fuel` is more than the entries of any folder, and
nothing of the setup but the clock and the search place has changed since `base`. -/
def Presents (home : Nat → CacheKind) (aside : Set Nat) (base : Setup) (fuel : Nat) (fs : FileSystem size n)
    (P : List (List Nat) → Option (Node (List UInt8))) : Prop :=
  ∃ cat, Shows home aside fuel fs cat ∧ (fs.volume home).Tidy aside cat ∧
    fs.setup = { base with nextSearchCluster := fs.setup.nextSearchCluster, clock := fs.setup.clock } ∧
      (fs.volume home).paths cat = P

/-- The call gives the answer and leaves a volume that presents `P`. -/
def Answers (home : Nat → CacheKind) (aside : Set Nat) (base : Setup) (fuel : Nat) (m : ExFat (FileSystem size n) α)
    (fs : FileSystem size n)
    (r : Except (Fault ExFatError) α) (P : List (List Nat) → Option (Node (List UInt8))) : Prop :=
  ∃ fs', m fs = (r, fs') ∧ fs'.Presents home aside base fuel P

namespace Shows

variable {cat cat' : Catalog} (shows : Shows home aside fuel fs cat) (tidy : (fs.volume home).Tidy aside cat)
  (setup : fs.setup = { base with nextSearchCluster := fs.setup.nextSearchCluster, clock := fs.setup.clock })
  {m : ExFat (FileSystem size n) α} {r : Except (Fault ExFatError) α}

include shows tidy setup

/-- A call that leaves the volume as it is. -/
theorem answers_same (run : FileSystem.Leads home m fs r (fs.volume home)) :
    Answers home aside base fuel m fs r ((fs.volume home).paths cat) := by
  obtain ⟨fs', run, sound, shown⟩ := run
  have same : fs'.setup = fs.setup := congrArg Volume.setup shown
  exact ⟨fs', run, cat, shows.served sound shown, shown ▸ tidy, same ▸ setup, by rw [shown]⟩

theorem answers_changed {v' : Volume size} (run : FileSystem.Leads home m fs r v')
    (becomes : Becomes home aside (fs.volume home) v' cat cat')
    (paths : v'.paths cat' = P') : Answers home aside base fuel m fs r P' := by
  obtain ⟨fs', run, sound, shown⟩ := run
  refine ⟨fs', run, cat', of_becomes becomes sound shown shows.enough, shown ▸ becomes.tidy tidy, ?_, shown ▸ paths⟩
  have same : fs'.setup = v'.setup := congrArg Volume.setup shown
  have changed : v'.setup =
    { fs.setup with nextSearchCluster := v'.setup.nextSearchCluster, clock := v'.setup.clock } := becomes.setup
  rw [same, changed, setup]

end Shows

section Calls

variable (presents : fs.Presents home aside base fuel P)

include presents

section Accepts

variable (accepts : fs.setup.upcaseTable.Accepts path)

include accepts

theorem exists_answers :
    Answers home aside base fuel («exists» fuel path) fs
      (.ok (named P (fs.setup.upcaseTable.keys path)).isSome) P := by
  obtain ⟨cat, shows, tidy, setup, rfl⟩ := presents
  refine shows.answers_same tidy setup ?_
  rcases there : named ((fs.volume home).paths cat) (fs.setup.upcaseTable.keys path) with _ | x
  · exact shows.exists_missing accepts (shows.catalogued.named_none there)
  · obtain ⟨c, i, set, reaches, _⟩ := shows.catalogued.named_iff.mp there
    exact shows.exists_found accepts reaches

theorem read_file {content : List UInt8} (there : named P (fs.setup.upcaseTable.keys path) = some (.file content)) :
    Answers home aside base fuel (read fuel path) fs (.ok content) P := by
  obtain ⟨cat, shows, tidy, setup, rfl⟩ := presents
  obtain ⟨c, i, set, reaches, file, rfl⟩ := shows.catalogued.named_file there
  exact shows.answers_same tidy setup (shows.read_found accepts reaches file)

theorem read_none (there : ∀ content, named P (fs.setup.upcaseTable.keys path) ≠ some (.file content)) :
    Answers home aside base fuel (read fuel path) fs (.error (.error .fileNotFound)) P := by
  obtain ⟨cat, shows, tidy, setup, rfl⟩ := presents
  exact shows.answers_same tidy setup
    (shows.read_missing accepts fun c i set => shows.catalogued.reaches_folder there)

theorem removeFile_file {content : List UInt8}
    (there : named P (fs.setup.upcaseTable.keys path) = some (.file content)) :
    Answers home aside base fuel (removeFile fuel path) fs (.ok ())
      (Function.update P (fs.setup.upcaseTable.keys path) none) := by
  obtain ⟨cat, shows, tidy, setup, rfl⟩ := presents
  obtain ⟨c, i, set, reaches, file, _⟩ := shows.catalogued.named_file there
  obtain ⟨v, d, run, revises⟩ := shows.removeFile_found accepts reaches file
  have none_ : ∀ set' ∈ (none : Option EntrySet), set'.name = set.name := fun _ member => by cases member
  exact shows.answers_changed tidy setup run (reaches.becomes shows.catalogued revises none_ file fun _ member =>
    by cases member)
    (reaches.paths shows.catalogued revises none_ file fun _ member => by cases member)

theorem removeFile_none (there : ∀ content, named P (fs.setup.upcaseTable.keys path) ≠ some (.file content)) :
    Answers home aside base fuel (removeFile fuel path) fs (.error (.error .fileNotFound)) P := by
  obtain ⟨cat, shows, tidy, setup, rfl⟩ := presents
  exact shows.answers_same tidy setup (shows.removeFile_missing accepts fun c i set =>
    shows.catalogued.reaches_folder there)

theorem removeDir_empty (there : named P (fs.setup.upcaseTable.keys path) = some .folder)
    (empty : ∀ k, P (fs.setup.upcaseTable.keys path ++ [k]) = none) :
    Answers home aside base fuel (removeDir fuel path) fs (.ok ())
      (Function.update P (fs.setup.upcaseTable.keys path) none) := by
  obtain ⟨cat, shows, tidy, setup, rfl⟩ := presents
  obtain ⟨c, i, set, reaches, kind⟩ := shows.catalogued.named_folder there
  obtain ⟨v, cat', run, becomes, paths⟩ :=
    shows.removeDir_found accepts reaches kind ((reaches.empty_iff shows.catalogued kind).mpr empty)
  exact shows.answers_changed tidy setup run becomes paths

theorem removeDir_nonempty (there : named P (fs.setup.upcaseTable.keys path) = some .folder) {k : List Nat}
    (full : P (fs.setup.upcaseTable.keys path ++ [k]) ≠ none) :
    Answers home aside base fuel (removeDir fuel path) fs (.error (.error .directoryNotEmpty)) P := by
  obtain ⟨cat, shows, tidy, setup, rfl⟩ := presents
  obtain ⟨c, i, set, reaches, kind⟩ := shows.catalogued.named_folder there
  exact shows.answers_same tidy setup (shows.removeDir_full accepts reaches kind fun empty =>
    full ((reaches.empty_iff shows.catalogued kind).mp empty k))

theorem removeDir_none (there : named P (fs.setup.upcaseTable.keys path) ≠ some .folder) :
    Answers home aside base fuel (removeDir fuel path) fs (.error (.error .fileNotFound)) P := by
  obtain ⟨cat, shows, tidy, setup, rfl⟩ := presents
  exact shows.answers_same tidy setup
    (shows.removeDir_missing accepts fun c i set => shows.catalogued.reaches_file there)

theorem rename_none {toPath : List Char} (there : named P (fs.setup.upcaseTable.keys path) = none) :
    Answers home aside base fuel (rename fuel path toPath) fs (.error (.error .fileNotFound)) P := by
  obtain ⟨cat, shows, tidy, setup, rfl⟩ := presents
  exact shows.answers_same tidy setup (shows.rename_missing accepts (shows.catalogued.named_none there))

theorem rename_taken {toPath : List Char} (accepts' : fs.setup.upcaseTable.Accepts toPath) {x y : Node (List UInt8)}
    (source : named P (fs.setup.upcaseTable.keys path) = some x)
    (target : named P (fs.setup.upcaseTable.keys toPath) = some y) :
    Answers home aside base fuel (rename fuel path toPath) fs (.error (.error .alreadyExists)) P := by
  obtain ⟨cat, shows, tidy, setup, rfl⟩ := presents
  obtain ⟨c, i, set, reaches, _⟩ := shows.catalogued.named_iff.mp source
  obtain ⟨c', i', set', reaches', _⟩ := shows.catalogued.named_iff.mp target
  exact shows.answers_same tidy setup (shows.rename_onto accepts reaches accepts' reaches')

theorem rename_moves {toPath : List Char} {missing : Nat} {x : Node (List UInt8)}
    (source : named P (fs.setup.upcaseTable.keys path) = some x)
    (target : named P (fs.setup.upcaseTable.keys toPath) = none)
    (creatable : (fs.volume home).Creatable toPath missing)
    (room : missing ≤ (fs.volume home).freeClusters.card)
    (apart : ¬ fs.setup.upcaseTable.keys path <+: (fs.setup.upcaseTable.keys toPath).dropLast) :
    Answers home aside base fuel (rename fuel path toPath) fs (.ok ())
      (relocated (furnished P (fs.setup.upcaseTable.keys toPath).dropLast) (fs.setup.upcaseTable.keys path)
        (fs.setup.upcaseTable.keys toPath)) := by
  obtain ⟨cat, shows, tidy, setup, rfl⟩ := presents
  obtain ⟨c, i, set, reaches, _⟩ := shows.catalogued.named_iff.mp source
  have dropLast : (fs.setup.upcaseTable.keys toPath).dropLast = fs.setup.upcaseTable.keys (splitPath toPath).1 :=
    creatable.dropLast
  rw [dropLast] at apart ⊢
  obtain ⟨v, cat', run, becomes, paths⟩ :=
    shows.rename_found accepts reaches (shows.catalogued.named_none target) creatable room apart
  exact shows.answers_changed tidy setup run becomes paths

section Write

variable {contents : List UInt8} (addressable : contents.length < 2 ^ fs.usizeBits)
  (smooth : ¬ File.Trips size fs.fs.clusterLength 0 contents.length)

include addressable smooth

theorem write_over {old : List UInt8} (there : named P (fs.setup.upcaseTable.keys path) = some (.file old))
    (space : divCeil contents.length fs.fs.clusterLength ≤ (fs.volume home).freeClusters.card +
      divCeil old.length fs.fs.clusterLength) :
    Answers home aside base fuel (write fuel path contents) fs (.ok ())
      (Function.update (furnished P (fs.setup.upcaseTable.keys path).dropLast) (fs.setup.upcaseTable.keys path)
        (some (.file contents))) := by
  obtain ⟨cat, shows, tidy, setup, rfl⟩ := presents
  obtain ⟨c, i, set, reaches, file, rfl⟩ := shows.catalogued.named_file there
  have count : (cat.clusters c i).length = divCeil set.dataLength fs.fs.clusterLength :=
    (shows.stores reaches.has file).count
  have length : (set.content (fs.volume home) (cat.clusters c i)).length = set.dataLength := by
    rw [EntrySet.content, List.length_map, List.length_range]
  rw [length, ← count] at space
  obtain ⟨v, cat', run, becomes, paths⟩ := shows.write_found addressable smooth accepts reaches file space
  exact shows.answers_changed tidy setup run becomes
    (paths.trans (congrArg (fun Q => Function.update Q _ _) reaches.furnished.symm))

omit accepts in
theorem write_new (there : P (fs.setup.upcaseTable.keys path) = none) {missing : Nat}
    (creatable : (fs.volume home).Creatable path missing)
    (space : divCeil contents.length fs.fs.clusterLength + missing ≤ (fs.volume home).freeClusters.card) :
    Answers home aside base fuel (write fuel path contents) fs (.ok ())
      (Function.update (furnished P (fs.setup.upcaseTable.keys path).dropLast) (fs.setup.upcaseTable.keys path)
        (some (.file contents))) := by
  obtain ⟨cat, shows, tidy, setup, rfl⟩ := presents
  have none_ : named ((fs.volume home).paths cat) (fs.setup.upcaseTable.keys path) = none :=
    Option.eq_none_iff_forall_ne_some.mpr fun x found => by cases there.symm.trans (named_eq_some.mp found).2
  have dropLast : (fs.setup.upcaseTable.keys path).dropLast = fs.setup.upcaseTable.keys (splitPath path).1 :=
    creatable.dropLast
  rw [dropLast]
  obtain ⟨v, cat', run, becomes, paths⟩ :=
    shows.write_missing addressable smooth (shows.catalogued.named_none none_) creatable space
  exact shows.answers_changed tidy setup run becomes paths

end Write

end Accepts

/-- `create_directory` makes all folders of the path that are missing. -/
theorem createDirectory_answers {missing : Nat} (nameable : ∀ name ∈ pathToIter path, (fs.volume home).Nameable name)
    (makeable : (fs.volume home).Makeable none (pathToIter path) fs.fs.firstClusterOfRootDir missing)
    (room : missing ≤ (fs.volume home).freeClusters.card) (unlinked : missing ≠ 0 → (fs.volume home).Unlinked) :
    Answers home aside base fuel (createDirectory fuel path) fs (.ok ())
      (furnished P (fs.setup.upcaseTable.keys path)) := by
  obtain ⟨cat, shows, tidy, setup, rfl⟩ := presents
  have names : ∀ name ∈ pathToIter path ++ Option.toList none, (fs.volume home).Nameable name := by
    rw [Option.toList_none, List.append_nil]
    exact nameable
  have start : (cat.store (fs.volume home)).walk (fs.volume home).setup.details.firstClusterOfRootDir [] =
      some (fs.volume home).setup.details.firstClusterOfRootDir := rfl
  obtain ⟨v, d, cat', ⟨s, makes, sound, shown⟩, reached⟩ :=
    Shows.getOrCreateIn_leads (s := ⟨fs, .new⟩) _ shows rfl shows.catalogued.root
    start makeable names room unlinked
  obtain ⟨fs₂, flushes, served, _⟩ := Session.flush_spec sound
  have sound₂ : fs₂.Sound home := served.sound
  refine shows.answers_changed tidy setup (.of_run ?_ sound₂ (served.volume.trans shown)) reached.furnishes.toBecomes
    reached.paths
  have whole : (do
      let _ ← Session.getOrCreateDirectory fuel path
      Session.flush : ExFat (Session size n) Unit) ⟨fs, .new⟩ = (.ok (), ⟨fs₂, .new⟩) := by
    have first : (Session.getOrCreateDirectory fuel path : ExFat (Session size n) Nat) ⟨fs, .new⟩ = (.ok d, s) := by
      rw [Session.getOrCreateDirectory, Exec.bind_of_ok (Exec.get_apply _)]
      exact makes
    rw [Exec.bind_of_ok first, flushes]
  rw [createDirectory, Exec.bind_of_ok (mount_of_mounted shows.mounted)]
  exact congrArg (fun p => (p.1, p.2.fs)) whole

end Calls

end FileSystem

end ExFatSlim
