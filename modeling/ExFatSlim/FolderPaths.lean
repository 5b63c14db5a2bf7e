import ExFatSlim.CatalogPaths
import ExFatSlim.NewFolders

namespace ExFatSlim

namespace Volume

variable {size : Nat} {home : Nat → CacheKind} {v v' : Volume size} {aside : Set Nat} {cat : Catalog}
  {c missing : Nat} {name : List Char}
  {leaf : Option (List Char)} {parts : List (List Char)}

/-- The folder has no entry with the name, and room for one. -/
def Spare (v : Volume size) (c : Nat) (name : List Char) : Prop := v.lookup [c] name none = .ok none ∧ v.Room c name

/-- The way down from `c` through folders, of which the last `missing` are not
there yet, to one that the entry `leaf`, if any, can go to. -/
inductive Makeable (v : Volume size) (leaf : Option (List Char)) : List (List Char) → Nat → Nat → Prop
  | here {c : Nat} : (∀ name ∈ leaf, v.Spare c name) → Makeable v leaf [] c 0
  | into {c missing : Nat} {part : List Char} {rest : List (List Char)} {details : FileDetails} :
    v.lookup [c] part (some attrDirectory) = .ok (some details) → Makeable v leaf rest details.firstCluster missing →
    Makeable v leaf (part :: rest) c missing
  | fresh {c : Nat} {part : List Char} {rest : List (List Char)} : v.Spare c part →
    (∀ name ∈ rest ++ leaf.toList, setLen name ≤ v.clusterSlots) → Makeable v leaf (part :: rest) c (rest.length + 1)

namespace Catalogued

section Lookup

variable (shows : v.Catalogued home aside cat) (accepted : ∃ hashed, hashedName v.setup.upcaseTable name = .ok hashed)
  (here : c ∈ cat.folders)

include shows accepted here

/-- A name that is looked up in vain is not in the store. -/
theorem store_none : v.lookup [c] name none = .ok none ↔ cat.store v c (v.setup.upcaseTable.key name) = none := by
  obtain ⟨hashed, ok⟩ := accepted
  constructor
  · intro missing
    rw [Option.eq_none_iff_forall_ne_some]
    intro e there
    obtain ⟨i, set, has, named, _⟩ := shows.store_iff.mp there
    have all : set.Named v.setup.upcaseTable name none := ⟨named, fun _ none_ => by cases none_⟩
    have found := shows.lookup_found ok has all
    cases missing.symm.trans found
  · intro missing
    refine shows.lookup_missing ok here fun i set has named => ?_
    cases missing.symm.trans (shows.store_iff.mpr ⟨i, set, has, named.1, rfl⟩)

/-- A folder without entries takes every name that is not too long. -/
theorem spare_of_empty (empty : v.rawEntries c 0 v.clusterSlots = List.replicate v.clusterSlots zeroEntry)
    (fits : setLen name ≤ v.clusterSlots) : v.Spare c name := by
  have zeros := (shows.folder c here).content.symm.trans empty
  have none_ : ∀ i set, ¬ cat.Has c i set := by
    intro i set has
    obtain ⟨before, after, pieces, _⟩ := DirList.split has.2
    have member : set.fileDir ∈ (cat.list c).raws := by
      rw [DirList.raws, pieces]
      simp [Piece.raws, EntrySet.raws]
    rw [zeros] at member
    have file := EntryType.ofByte_file.mp set.isFile
    rw [List.eq_of_mem_replicate member] at file
    exact absurd file (by decide)
  obtain ⟨hashed, ok⟩ := accepted
  refine ⟨shows.lookup_missing ok here fun i set has _ => none_ i set has, 0, ?_, fun i raw _ _ at_ => ?_⟩
  · rw [empty, List.length_replicate, Nat.zero_add]
    exact fits
  · rw [empty] at at_
    rw [List.eq_of_mem_replicate (List.mem_of_getElem? at_)]
    exact not_inUse_zeroEntry

end Lookup

/-- From a new folder on all folders are to be made. -/
theorem makeable_of_empty (shows : v.Catalogued home aside cat) (here : c ∈ cat.folders)
    (accepted : ∀ name ∈ parts ++ leaf.toList, ∃ hashed, hashedName v.setup.upcaseTable name = .ok hashed)
    (empty : v.rawEntries c 0 v.clusterSlots = List.replicate v.clusterSlots zeroEntry)
    (fits : ∀ name ∈ parts ++ leaf.toList, setLen name ≤ v.clusterSlots) : v.Makeable leaf parts c parts.length := by
  cases parts with
  | nil =>
    refine .here fun name wanted => ?_
    have member : name ∈ [] ++ leaf.toList := Option.mem_toList.mpr wanted
    exact shows.spare_of_empty (accepted name member) here empty (fits name member)
  | cons part rest =>
    have first := shows.spare_of_empty (accepted part List.mem_cons_self) here empty (fits part List.mem_cons_self)
    exact .fresh first fun name member => fits name (List.mem_cons_of_mem _ member)

end Catalogued

/-- Folder `d` is where the names in `ks` lead to, after `missing` of the folders on the way have been made. -/
structure Reached (home : Nat → CacheKind) (aside : Set Nat) (leaf : Option (List Char)) (v v' : Volume size)
    (cat cat' : Catalog)
    (ks : List (List Nat)) (d missing : Nat) : Prop where
  furnishes : Furnishes home aside v v' cat cat' missing
  folder : d ∈ cat'.folders
  walked : (cat'.store v').walk v.setup.details.firstClusterOfRootDir ks = some d
  paths : v'.paths cat' = Store.furnished (v.paths cat) ks
  spare : ∀ name ∈ leaf, v'.Spare d name

end Volume

namespace FileSystem.Shows

open Volume

variable {size n fuel : Nat} {home : Nat → CacheKind} {aside : Set Nat} {leaf : Option (List Char)}

/-- `get_or_create_directory` goes down and makes the folders that are missing. -/
theorem getOrCreateIn_leads (parts : List (List Char)) :
    ∀ {c missing : Nat} {ks : List (List Nat)} {cat : Catalog} {v : Volume size}
    {s : Session size n}, Shows home aside fuel s.fs cat → s.fs.volume home = v → c ∈ cat.folders →
    (cat.store v).walk v.setup.details.firstClusterOfRootDir ks = some c → v.Makeable leaf parts c missing →
    (∀ name ∈ parts ++ leaf.toList, v.Nameable name) → missing ≤ v.freeClusters.card → (missing ≠ 0 → v.Unlinked) →
    ∃ v' d cat', Session.Leads home (Session.getOrCreateIn fuel parts c) s (.ok d) v' ∧
      Reached home aside leaf v v' cat cat' (ks ++ parts.map v.setup.upcaseTable.key) d missing := by
  induction parts with
  | nil =>
    intro c missing ks cat v s shows shown here walked makeable nameable room unlinked
    rw [List.map_nil, List.append_nil]
    cases makeable with
    | here spare =>
      refine ⟨v, c, cat, .of_run rfl shows.sound shown, .refl ?_, here, walked,
        (Store.furnished_walked walked).symm, spare⟩
      exact shown ▸ shows.catalogued
  | cons part rest ih =>
    intro c missing ks cat v s shows shown here walked makeable nameable room unlinked
    have catalogued := shows.catalogued
    have enough := shows.enough
    rw [shown] at catalogued enough
    have accepted := (nameable part List.mem_cons_self).accepted
    have nameable' := List.forall_mem_of_forall_mem_cons nameable
    obtain ⟨hashed, ok⟩ := accepted
    rw [List.map_cons, List.append_cons]
    have folder := catalogued.folder c here
    have look := Session.leads_onFs (s := s)
      (FileSystem.lookupIn_leads folder.cell.room shows.sound shows.catalogued.layout
      (shown ▸ folder.directory) shows.enough part (some attrDirectory))
    rw [shown] at look
    cases makeable with
    | @into _ _ _ _ details found onward =>
      rw [found] at look
      obtain ⟨s', run, sound', shown'⟩ := look
      have there : cat.store v c (v.setup.upcaseTable.key part) = some (.folder details.firstCluster) ∧
          details.firstCluster ∈ cat.folders := by
        rcases catalogued.lookup_folder ok here with ⟨missing, _⟩ | ⟨details', found', there, folder⟩
        · cases missing.symm.trans found
        · cases found'.symm.trans found
          exact ⟨there, folder⟩
      obtain ⟨v', d, cat', leads, reached⟩ := ih (shows.served sound' (shown'.trans shown.symm)) shown' there.2
        (Store.walk_snoc.mpr ⟨c, walked, there.1⟩) onward nameable' room unlinked
      refine ⟨v', d, cat', ?_, reached⟩
      obtain ⟨s'', run', sound'', shown''⟩ := leads
      refine .of_run ?_ sound'' shown''
      rw [Session.getOrCreateIn, Exec.bind_of_ok run]
      exact run'
    | fresh spare fits =>
      have absent := (catalogued.store_none ⟨hashed, ok⟩ here).mp spare.1
      have missing : v.lookup [c] part (some attrDirectory) = .ok none := by
        rcases catalogued.lookup_folder ok here with ⟨missing, _⟩ | ⟨_, _, there, _⟩
        · exact missing
        · cases absent.symm.trans there
      rw [missing] at look
      obtain ⟨s₁, run₁, sound₁, shown₁⟩ := look
      have shown₁ : s₁.fs.volume home = v := shown₁
      have unlinked := unlinked (Nat.succ_ne_zero _)
      obtain ⟨e, member⟩ := Finset.card_pos.mp (Nat.succ_pos _ |>.trans_le room)
      have shows₁ := shows.served sound₁ (shown₁.trans shown.symm)
      obtain ⟨v₂, e, cat₂, ⟨s₂, run₂, sound₂, shown₂⟩, furnishes, here₂, empty, store, fresh⟩ :=
        shows₁.createDirectoryIn_leads shown₁ here (nameable part List.mem_cons_self) spare.2 absent
          ⟨e, mem_freeClusters.mp member⟩ unlinked
      have table := furnishes.upcaseTable
      have details := furnishes.details
      have shows₂ := of_furnishes furnishes sound₂ shown₂ enough
      have walked₂ : (cat₂.store v₂).walk v₂.setup.details.firstClusterOfRootDir
          (ks ++ [v.setup.upcaseTable.key part]) = some e := by
        rw [store, details]
        exact Store.walk_snoc.mpr ⟨c, Store.walk_put catalogued.rooted walked, Store.put_self ..⟩
      have paths₂ : v₂.paths cat₂ = Function.update (v.paths cat) (ks ++ [v.setup.upcaseTable.key part])
          (some .folder) := by
        rw [paths, store, details]
        exact Store.look_put catalogued.rooted walked fresh fun d there => by cases absent.symm.trans there
      have makeable : v₂.Makeable leaf rest e rest.length := by
        refine furnishes.catalogued.makeable_of_empty here₂ (fun name member => ?_)
          (furnishes.clusterSlots.symm ▸ empty) fun name member => ?_
        · rw [table]
          exact (nameable' name member).accepted
        · rw [furnishes.clusterSlots]
          exact fits name member
      have nameable₂ : ∀ name ∈ rest ++ leaf.toList, v₂.Nameable name := fun name member =>
        ⟨table.symm ▸ (nameable' name member).accepted, (nameable' name member).short⟩
      have count := furnishes.count
      obtain ⟨v', d, cat', ⟨s', run', sound', shown'⟩, reached⟩ :=
        ih shows₂ shown₂ here₂ walked₂ makeable nameable₂ (by omega) fun _ =>
        furnishes.unlinked unlinked
      rw [table] at reached
      refine ⟨v', d, cat', .of_run ?_ sound' shown', ?_, reached.folder, details ▸ reached.walked, ?_, reached.spare⟩
      · rw [Session.getOrCreateIn, Exec.bind_of_ok run₁]
        exact (Exec.bind_of_ok run₂).trans run'
      · rw [Nat.add_comm]
        exact furnishes.trans reached.furnishes
      · rw [reached.paths, paths₂, Store.furnished_update]

end FileSystem.Shows

end ExFatSlim
