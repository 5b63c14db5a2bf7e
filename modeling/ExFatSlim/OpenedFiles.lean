import ExFatSlim.ByteFile
import ExFatSlim.PathRuns

namespace ExFatSlim

open Store

/-- What opening a file does to the tree: a file that is truncated becomes
empty, and one that is not there is made, as are the folders on the way to it. -/
def PathTree.opened (table : UpcaseTable) (P : PathTree) (path : List Char) (options : OpenOptions) : PathTree :=
  match named P (table.keys path) with
  | some (.file _) => if options.truncate then Function.update P (table.keys path) (some (.file [])) else P
  | _ => P.write table path []

namespace FileSystem

open Volume FileSession

variable {size n fuel missing : Nat} {home : Nat → CacheKind} {aside : Set Nat} {base : Setup}
  {fs fs' fs₁ : FileSystem size n}
  {cat : Catalog} {c i : Nat} {set : EntrySet} {P : PathTree} {path : List Char} {options : OpenOptions}
  {details : FileDetails}
  {file : File} {cs : List Nat} {content : List UInt8}

/-- What `open` goes on with: a volume that presents `P`, on which the file of
these details has the clusters `cs` and the contents. -/
structure Found (home : Nat → CacheKind) (aside : Set Nat) (base : Setup) (fuel : Nat) (P : PathTree)
    (path : List Char)
    (details : FileDetails) (cs : List Nat) (content : List UInt8) (fs : FileSystem size n) : Prop where
  presents : fs.Presents home aside base fuel P
  named : named P (base.upcaseTable.keys path) = some (.file content)
  stores : (fs.volume home).Stores home details cs
  reads : (List.range details.dataLength).map
    (fun i => if i < details.validDataLength then (fs.volume home).fileByte cs i else 0) = content

theorem Presents.fit (presents : fs.Presents home aside base fuel P) : fs.Fit home := by
  obtain ⟨_, shows, _⟩ := presents
  exact shows.fit

/-- Sectors that were only looked at. -/
theorem Presents.served (presents : fs.Presents home aside base fuel P) (sound : fs'.Sound home)
    (shown : fs'.volume home = fs.volume home) : fs'.Presents home aside base fuel P := by
  obtain ⟨cat, shows, tidy, setup, paths⟩ := presents
  have same : fs'.setup = fs.setup := congrArg Volume.setup shown
  exact ⟨cat, shows.served sound shown, shown ▸ tidy, same ▸ setup, shown ▸ paths⟩

/-- A file without data has no contents wherever it is. -/
theorem Found.of_empty (presents : fs.Presents home aside base fuel P) (empty : details.dataLength = 0)
    (valid : details.validDataLength = 0) (there : Store.named P (base.upcaseTable.keys path) = some (.file [])) :
    Found home aside base fuel P path details [] [] fs where
  presents := presents
  named := there
  stores := stores_nil presents.fit.layout empty valid
  reads := by rw [empty]; rfl

theorem Shows.presents_after (shows : Shows home aside fuel fs cat) (tidy : (fs.volume home).Tidy aside cat)
    (setup : fs.setup = { base with nextSearchCluster := fs.setup.nextSearchCluster, clock := fs.setup.clock })
    {v' : Volume size} {cat' : Catalog} (becomes : Becomes home aside (fs.volume home) v' cat cat')
    (sound : fs'.Sound home) (shown : fs'.volume home = v') : fs'.Presents home aside base fuel (v'.paths cat') := by
  have run : FileSystem.Leads home (fun _ => (.ok (), fs')) fs (.ok ()) v' := .of_run rfl sound shown
  obtain ⟨_, same, presents⟩ := shows.answers_changed tidy setup run becomes rfl
  cases same
  exact presents

section Open

variable (presents : fs.Presents home aside base fuel P) (accepts : base.upcaseTable.Accepts path)

include presents accepts

/-- What is found under a path that names a file. -/
theorem find_named (there : named P (base.upcaseTable.keys path) = some (.file content)) : ∃ details cs fs₁,
    findFileInner fuel path (some attrArchive) fs = (.ok details, fs₁) ∧
      Found home aside base fuel P path details cs content fs₁ := by
  have presents' := presents
  obtain ⟨cat, shows, _, setup, rfl⟩ := presents'
  have table : fs.setup.upcaseTable = base.upcaseTable := by rw [setup]
  rw [← table] at accepts there
  obtain ⟨c, i, set, reaches, file, rfl⟩ := shows.catalogued.named_file there
  obtain ⟨fs₁, found, sound, shown⟩ :=
    shows.find_found accepts (some attrArchive) reaches ((shows.archive reaches.has).mpr file)
  refine ⟨_, cat.clusters c i, fs₁, found, presents.served sound shown, table ▸ there, ?_, ?_⟩
  · rw [shown]
    exact shows.stores reaches.has file
  · rw [shown]
    rfl

/-- A path that names no file is looked up in vain. -/
theorem find_unnamed (there : ∀ content, named P (base.upcaseTable.keys path) ≠ some (.file content)) : ∃ fs₁,
    findFileInner fuel path (some attrArchive) fs = (.error (.error .fileNotFound), fs₁) ∧
      fs₁.Presents home aside base fuel P ∧
      fs₁.volume home = fs.volume home := by
  have presents' := presents
  obtain ⟨cat, shows, _, setup, rfl⟩ := presents'
  have table : fs.setup.upcaseTable = base.upcaseTable := by rw [setup]
  rw [← table] at accepts there
  obtain ⟨fs₁, found, sound, shown⟩ :=
    shows.find_file_missing accepts fun c i set => shows.catalogued.reaches_folder there
  exact ⟨fs₁, found, presents.served sound shown, shown⟩

/-- A file that is truncated when it is opened. -/
theorem truncate_named (there : named P (base.upcaseTable.keys path) = some (.file content)) : ∃ old fs₁ fs₂,
    findFileInner fuel path (some attrArchive) fs = (.ok old, fs₁) ∧ truncateFile old 0 fs₁ =
      (.ok old.truncated, fs₂) ∧
      Found home aside base fuel (Function.update P (base.upcaseTable.keys path) (some (.file []))) path old.truncated
        [] [] fs₂ := by
  obtain ⟨cat, shows, tidy, setup, rfl⟩ := presents
  have table : fs.setup.upcaseTable = base.upcaseTable := by rw [setup]
  have some_ := (named_eq_some.mp there).1
  rw [← table] at accepts there
  obtain ⟨c, i, set, reaches, file, _⟩ := shows.catalogued.named_file there
  obtain ⟨fs₁, found, sound₁, shown₁⟩ :=
    shows.find_found accepts (some attrArchive) reaches ((shows.archive reaches.has).mpr file)
  obtain ⟨v, list, set', ⟨fs₂, truncates, sound₂, shown₂⟩, revises, name, vacant⟩ :=
    (shows.served sound₁ shown₁).truncateFile_leads reaches.has file
  rw [shown₁] at truncates revises vacant
  have names : ∀ set'' ∈ some set', set''.name = set.name := by
    rintro _ ⟨⟩
    exact name
  have becomes := reaches.becomes shows.catalogued revises names file fun e member => by cases member
  have paths := reaches.paths shows.catalogued revises names file (by rintro _ ⟨⟩; exact vacant.file)
  have hollow : set'.content v [] = [] := by
    rw [EntrySet.content, vacant.empty]
    rfl
  have presents₂ := shows.presents_after tidy setup becomes sound₂ shown₂
  rw [paths, Option.map_some, hollow] at presents₂
  refine ⟨_, fs₁, fs₂, found, truncates, .of_empty (table ▸ presents₂) rfl rfl ?_⟩
  exact named_eq_some.mpr ⟨some_, Function.update_self ..⟩

/-- A file that is made when it is opened. -/
theorem create_unnamed (there : ∀ content, named P (base.upcaseTable.keys path) ≠ some (.file content))
    (creatable : (fs.volume home).Creatable path missing) (room : missing ≤ (fs.volume home).freeClusters.card) :
    ∃ details fs₁ fs₂, findFileInner fuel path (some attrArchive) fs = (.error (.error .fileNotFound), fs₁) ∧
      createFile fuel path fs₁ = (.ok details, fs₂) ∧
      Found home aside base fuel (P.write base.upcaseTable path []) path details [] [] fs₂ := by
  obtain ⟨fs₁, found, presents₁, shown₁⟩ := find_unnamed presents accepts there
  rw [← shown₁] at creatable room
  obtain ⟨cat, shows, tidy, setup, rfl⟩ := presents₁
  have table : fs₁.setup.upcaseTable = base.upcaseTable := by rw [setup]
  obtain ⟨v, cat', d, i, set, details, ⟨fs₂, creates, sound₂, shown₂⟩, becomes, _, reaches, vacant, paths⟩ :=
    shows.createFile_leads rfl creatable room
  have presents₂ := shows.presents_after tidy setup becomes sound₂ shown₂
  have reached := becomes.catalogued.named_iff.mpr ⟨d, i, set, reaches, entry_file vacant.file⟩
  have hollow : set.content v (cat'.clusters d i) = [] := by
    rw [EntrySet.content, vacant.empty]
    rfl
  have upcase : (fs₁.volume home).setup.upcaseTable = base.upcaseTable := table
  obtain ⟨content, paths⟩ := paths
  rw [← creatable.dropLast, upcase] at paths
  rw [hollow, becomes.upcaseTable, upcase] at reached
  have same : content = [] := by
    have there' := (named_eq_some.mp reached).2
    rw [paths, Function.update_self] at there'
    exact Node.file.inj (Option.some.inj there')
  rw [same] at paths
  have written : v.paths cat' = PathTree.write base.upcaseTable ((fs₁.volume home).paths cat) path [] := paths
  rw [written] at presents₂ reached
  exact ⟨details, fs₁, fs₂, found, creates, .of_empty presents₂ vacant.dataLength vacant.validDataLength reached⟩

-- Where a file may have to be made, there is room for it.
variable (creatable : options.create = true ∨ options.createNew = true →
  (∀ content, named P (base.upcaseTable.keys path) ≠ some (.file content)) →
  ∃ missing, (fs.volume home).Creatable path missing ∧ missing ≤ (fs.volume home).freeClusters.card)

include creatable

/-- What `open` goes on with, in a tree that has the file by then. -/
theorem openDetails_found_in (run : openDetails fuel path options fs = (.ok details, fs')) : ∃ cs content,
    Found home aside base fuel (P.opened base.upcaseTable path options) path details cs content fs' := by
  by_cases there : ∃ content, named P (base.upcaseTable.keys path) = some (.file content)
  · obtain ⟨content, there⟩ := there
    have tree : P.opened base.upcaseTable path options =
        if options.truncate then Function.update P (base.upcaseTable.keys path) (some (.file [])) else P := by
      rw [PathTree.opened, there]
    obtain ⟨old, cs, fs₁, found, kept⟩ := find_named presents accepts there
    rw [openDetails_found found] at run
    cases createNew : options.createNew with
    | true =>
      rw [createNew] at run
      cases run
    | false =>
      rw [createNew] at run
      cases truncate : options.truncate with
      | false =>
        rw [truncate] at run tree
        cases run
        exact ⟨cs, content, tree ▸ kept⟩
      | true =>
        obtain ⟨old', fs₂, fs₃, found', truncates, emptied⟩ := truncate_named presents accepts there
        cases found.symm.trans found'
        rw [truncate] at run tree
        cases truncates.symm.trans run
        exact ⟨[], [], tree ▸ emptied⟩
  · have there : ∀ content, named P (base.upcaseTable.keys path) ≠ some (.file content) :=
      fun content same => there ⟨content, same⟩
    have tree : P.opened base.upcaseTable path options = P.write base.upcaseTable path [] := by
      rw [PathTree.opened]
      split
      · rename_i content same
        exact absurd same (there content)
      · rfl
    by_cases asked : options.create = true ∨ options.createNew = true
    · obtain ⟨missing, creatable, room⟩ := creatable asked there
      obtain ⟨made, fs₁, fs₂, found, creates, kept⟩ := create_unnamed presents accepts there creatable room
      rw [openDetails, Exec.bind_of_ok (Exec.attempt_of_error found)] at run
      dsimp only at run
      rw [if_pos (by simpa using asked)] at run
      cases creates.symm.trans run
      exact ⟨[], [], tree ▸ kept⟩
    · obtain ⟨fs₁, found, _⟩ := find_unnamed presents accepts there
      rw [openDetails, Exec.bind_of_ok (Exec.attempt_of_error found)] at run
      dsimp only at run
      rw [if_neg (by simpa using asked)] at run
      cases run

/-- The handle that `open` returns is of the file that the tree has then. -/
theorem open_found_in (opens : «open» fuel path options fs = (.ok file, fs')) :
    ∃ details cs content, file = opened details cs fs'.fs.clusterLength options ∧
      Found home aside base fuel (P.opened base.upcaseTable path options) path details cs content fs' := by
  rw [«open», Exec.bind_of_ok (mount_of_mounted presents.fit.layout.mounted)] at opens
  obtain ⟨details, fs₁, found, rest⟩ := Exec.bind_eq_ok.mp opens
  have rest : openWith details options fs₁ = (.ok file, fs') := rest
  obtain ⟨cs, content, kept⟩ := openDetails_found_in presents accepts creatable found
  obtain ⟨fs₂, run, sound, shown⟩ :=
    openWith_leads kept.presents.fit.sound kept.presents.fit.layout kept.stores options
  cases rest.symm.trans run
  have length : fs'.fs.clusterLength = fs₁.fs.clusterLength :=
    congrArg (fun v : Volume size => v.setup.details.clusterLength) shown
  refine ⟨details, cs, content, by rw [length], kept.presents.served sound shown, kept.named, ?_, ?_⟩
  · rw [shown]
    exact kept.stores
  · rw [shown]
    exact kept.reads

/-- A volume that is a tree stays well formed when a file is opened, also where
the file is created or truncated. -/
theorem open_fit (opens : «open» fuel path options fs = (.ok file, fs')) : fs'.Fit home := by
  obtain ⟨_, _, _, _, found⟩ := open_found_in presents accepts creatable opens
  exact found.presents.fit

/-- A handle of a file in a tree answers every run of reads, seeks and writes as
a file with the contents that the tree has under its path. -/
theorem opened_refines_tree (opens : «open» fuel path options fs = (.ok file, fs'))
    (whole : options.append = true → file.details.dataLength ≠ 0 →
      file.details.validDataLength / fs'.fs.clusterLength + 1 = divCeil file.details.dataLength fs'.fs.clusterLength)
    {ops : List HandleOp} (regular : HandleOp.call.Allows (HandleOp.Regular home) ops ⟨fs', file⟩) :
    fs'.Presents home aside base fuel (P.opened base.upcaseTable path options) ∧
      ∃ f : ByteFile, named (P.opened base.upcaseTable path options) (base.upcaseTable.keys path) =
        some (.file f.content) ∧
        f.cursor = (if options.append then f.written.length else 0) ∧ f.readable = options.read ∧ f.writable =
          options.write ∧
        (HandleOp.call.run ops ⟨fs', file⟩).1 = (ByteFile.step.run ops f).1 := by
  obtain ⟨details, cs, content, rfl, presents', there, stores, reads⟩ :=
    open_found_in presents accepts creatable opens
  have stands := presents'.fit.stands stores (presents'.fit.placed stores whole)
  refine ⟨presents', _, ?_, ?_, rfl, rfl, (call_simulates.run ops ⟨cs, stands⟩ regular).1⟩
  · rw [stands.content_eq, there, ← reads]
    rfl
  · rw [stands.length_written]
    rfl

end Open

end FileSystem

end ExFatSlim
