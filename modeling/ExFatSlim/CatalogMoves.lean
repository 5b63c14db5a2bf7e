import ExFatSlim.CatalogWrites

namespace ExFatSlim

/-- The sets describe the same file or folder. -/
structure EntrySet.Twin (new set : EntrySet) : Prop where
  attributes : (FileDirEntry.ofRaw new.fileDir).fileAttributes = (FileDirEntry.ofRaw set.fileDir).fileAttributes
  firstCluster : new.firstCluster = set.firstCluster
  dataLength : new.dataLength = set.dataLength
  validDataLength : new.validDataLength = set.validDataLength
  flags : (StreamExtensionDirEntry.ofRaw new.stream).generalSecondaryFlags =
    (StreamExtensionDirEntry.ofRaw set.stream).generalSecondaryFlags

theorem EntrySet.Twin.isFolder {new set : EntrySet} (twin : new.Twin set) : new.isFolder = set.isFolder := by
  rw [EntrySet.isFolder, EntrySet.isFolder, twin.attributes]

section Twin

variable {size : Nat} {home : Nat → CacheKind} {v : Volume size} {set new : EntrySet} {cs : List Nat}
  (twin : new.Twin set)

include twin

theorem EntrySet.Twin.stores {place place' : Location} (stores : v.Stores home (set.details place) cs) :
    v.Stores home (new.details place') cs where
  count := stores.count.trans (congrArg (FileSystem.divCeil · _) twin.dataLength.symm)
  valid := by
    have valid : set.validDataLength ≤ set.dataLength := stores.valid
    rw [← twin.validDataLength, ← twin.dataLength] at valid
    exact valid
  first d head := (stores.first d head).trans twin.firstCluster.symm
  contiguous flag := by
    have contiguous := stores.contiguous (flag ▸ congrArg GeneralSecondaryFlags.noFatChain twin.flags.symm)
    rw [contiguous, List.length_range']
    exact congrArg (List.range' · _) twin.firstCluster.symm
  linked flag := stores.linked (flag ▸ congrArg GeneralSecondaryFlags.noFatChain twin.flags.symm)
  distinct := stores.distinct
  inHeap := stores.inHeap
  used := stores.used
  data := stores.data

theorem EntrySet.Twin.content : new.content v cs = set.content v cs := by
  rw [EntrySet.content, EntrySet.content, twin.dataLength, twin.validDataLength]

end Twin

/-- The entries of a set are none of the empty ones. -/
theorem EmptyRun.apart {d : DirList} {i j len : Nat} {set : EntrySet} (run : EmptyRun d.raws j len)
    (member : (i, set) ∈ d.sets) :
    ∀ a < set.raws.length, ∀ b < len, i + a ≠ j + b := by
  intro a below b within same
  have here : d.raws[i + a]? = some set.raws[a] := by
    have raws := congrArg (fun raws : List RawDirEntry => raws[a]?) (DirList.here member)
    rwa [List.getElem?_take_of_lt below, List.getElem?_drop, List.getElem?_eq_getElem below] at raws
  exact run.2 (i + a) _ (by omega) (by omega) here (set.bits (List.getElem_mem below)).1

namespace Volume

variable {size : Nat} {home : Nat → CacheKind} {v v' : Volume size} {aside : Set Nat} {cat : Catalog} {c d i j : Nat}
  {set new : EntrySet}

/-- Entries elsewhere may be put before or after. -/
theorem putEntries_putEntry (raws : List RawDirEntry) {place : Location} {raw : RawDirEntry} :
    ∀ {k : Nat} {v : Volume size},
    (∀ a < raws.length, place ≠ v.slotLocation c (k + a)) →
    (putEntries c k raws v).putEntry place raw = putEntries c k raws (v.putEntry place raw) := by
  induction raws with
  | nil => exact fun _ => rfl
  | cons first raws ih =>
    intro k v apart
    have here : place ≠ v.slotLocation c k := apart 0 (Nat.succ_pos _)
    rw [putEntries, putEntries, ih fun a below => ?_, putEntry_slotLocation, putEntry_comm v here]
    rw [putEntry_slotLocation, Nat.add_right_comm]
    exact apart (a + 1) (Nat.succ_lt_succ below)

theorem putEntries_comm {raws' : List RawDirEntry} (raws : List RawDirEntry) : ∀ {i : Nat} {v : Volume size},
    (∀ a < raws.length, ∀ b < raws'.length, v.slotLocation c (i + a) ≠ v.slotLocation d (j + b)) →
    putEntries c i raws (putEntries d j raws' v) = putEntries d j raws' (putEntries c i raws v) := by
  induction raws with
  | nil => exact fun _ => rfl
  | cons raw raws ih =>
    intro i v apart
    have place : ∀ k, (putEntries d j raws' v).slotLocation c k = v.slotLocation c k :=
      slotLocation_of_setup (putEntries_setup ..) c
    have here : ∀ b < raws'.length, v.slotLocation c i ≠ v.slotLocation d (j + b) := apart 0 (Nat.succ_pos _)
    rw [putEntries, putEntries, place, putEntries_putEntry _ here, ih fun a below b within => ?_]
    rw [putEntry_slotLocation, putEntry_slotLocation, Nat.add_right_comm]
    exact apart (a + 1) (Nat.succ_lt_succ below) b within

theorem putEntry_tick (v : Volume size) (place : Location) (raw : RawDirEntry) :
    (v.putEntry place raw).tick = v.tick.putEntry place raw := by
  rw [tick, tick, putEntry_setup]
  split <;> rfl

theorem putEntries_tick (raws : List RawDirEntry) :
    ∀ {k : Nat} {v : Volume size}, (putEntries c k raws v).tick = putEntries c k raws v.tick := by
  induction raws with
  | nil => exact rfl
  | cons raw raws ih =>
    intro k v
    rw [putEntries, putEntries, ih, tick_slotLocation, putEntry_tick]

/-- More clusters may be set aside. -/
theorem Catalogued.lose (shows : v.Catalogued home aside cat) (T : Set Nat) : v.Catalogued home (aside ∪ T) cat :=
  { shows with owned := fun d inHeap used => (shows.owned d inHeap used).imp_left .inl }

/-- What was set aside for a while is owned again. -/
theorem Catalogued.regain {T : Set Nat} (shows : v.Catalogued home (aside ∪ T) cat)
    (found : ∀ d ∈ T, ∃ c i, d ∈ cat.clusters c i) :
    v.Catalogued home aside cat := by
  refine { shows with owned := fun d inHeap used => ?_ }
  rcases shows.owned d inHeap used with (gone | other) | owned
  · exact .inl gone
  · exact .inr (.inr (found d other))
  · exact .inr owned

/-- The volume with a new entry set in folder `d`, and the old one in folder `c` marked unused. -/
def moved (v : Volume size) (c i : Nat) (set : EntrySet) (d j : Nat) (new : EntrySet) : Volume size :=
  putEntries c i (set.raws.map cleared) (putEntries d j new.raws v.tick)

/-- The volume `v₁` is `v` without the entry set number `i` of folder `c`, whose clusters are set aside. -/
structure Cut (home : Nat → CacheKind) (aside : Set Nat) (v v₁ : Volume size) (cat cat₁ : Catalog) (c i : Nat)
    (set : EntrySet) : Prop where
  catalogued : v₁.Catalogued home (aside ∪ {e | e ∈ cat.clusters c i}) cat₁
  reserved : v.Reserved aside cat → v₁.Reserved aside cat₁
  changes : Changes home {c} v v₁
  folders : cat₁.folders = cat.folders
  has : ∀ c' i' set', cat₁.Has c' i' set' ↔ cat.Has c' i' set' ∧ ¬ (c' = c ∧ i' = i)
  clusters : ∀ c' i', ¬ (c' = c ∧ i' = i) → cat₁.clusters c' i' = cat.clusters c' i'
  gone : cat₁.clusters c i = []
  store : cat₁.store v₁ = (cat.store v).put c (v.setup.upcaseTable.key set.name) none

theorem Cut.unowned {v₁ : Volume size} {cat₁ : Catalog} (cut : Cut home aside v v₁ cat cat₁ c i set)
    (shows : v.Catalogued home aside cat) {e : Nat}
    (member : e ∈ cat.clusters c i) : cat₁.Unowned e := by
  refine ⟨cut.folders ▸ (shows.filed member).1, fun c' i' other => ?_⟩
  by_cases self : c' = c ∧ i' = i
  · obtain ⟨rfl, rfl⟩ := self
    rw [cut.gone] at other
    cases other
  · rw [cut.clusters c' i' self] at other
    exact self (shows.apart other member)

theorem Cut.listed {v₁ : Volume size} {cat₁ : Catalog} (cut : Cut home aside v v₁ cat cat₁ c i set)
    (here : d ∈ cat.folders) (x : Nat × EntrySet) :
    x ∈ (cat₁.list d).sets ↔ x ∈ (cat.list d).sets ∧ ¬ (d = c ∧ x.1 = i) := by
  have iff := cut.has d x.1 x.2
  rw [Catalog.Has, Catalog.Has, cut.folders] at iff
  simpa [here] using iff

/-- Once it is cut off, what a set stood for can be filed anew. -/
theorem Cut.revises {v₁ v₂ : Volume size} {cat₁ : Catalog} {list : DirList}
    (cut : Cut home aside v v₁ cat cat₁ c i set)
    (shows : v.Catalogued home aside cat) (has : cat.Has c i set) (here : d ∈ cat.folders) (twin : new.Twin set)
    (changes : Changes home {d} v₁ v₂)
    (folder : v₂.Folder home d list) (apart : ∀ x ∈ (cat.list d).sets, x.1 ≠ j)
    (sets : ∀ x, x ∈ list.sets ↔ (x ∈ (cat.list d).sets ∧ ¬ (d = c ∧ x.1 = i)) ∧ x.1 ≠ j ∨ x.1 = j ∧
      some new = some x.2)
    (plain : d ≠ v.setup.details.firstClusterOfRootDir → list.Plain) :
    Revises home (aside ∪ {e | e ∈ cat.clusters c i}) v₁ v₂ cat₁ d j list (some new) (cat.clusters c i) := by
  have all := cut.changes.trans changes
  have outside : ∀ e ∈ cat.clusters c i, e ∉ ({c} ∪ {d} : Set Nat) := by
    rintro e member (rfl | rfl)
    · exact (shows.filed member).1 has.1
    · exact (shows.filed member).1 here
  have vacant : ∀ set', ¬ cat₁.Has d j set' := fun set' has' => apart _ ((cut.listed here _).mp has'.2).1 rfl
  refine {
    changes := changes.mono fun e same => .inl same
    folder := folder
    sets := fun x => by rw [sets, cut.listed here]
    plain := by rw [cut.changes.details]; exact plain
    fresh := fun e member => .inr (cut.unowned shows member)
    freed := fun e member => by
      rw [cut.catalogued.clusters_nil vacant] at member
      cases member
    gone := fun none_ => by cases none_
    file := ?file
    inner := ?inner }
  case file =>
    rintro _ ⟨⟩ kind
    obtain ⟨archive, stores, short⟩ := shows.file has (twin.isFolder.symm.trans kind)
    refine ⟨twin.attributes.symm ▸ archive, twin.stores (all.stores stores outside), ?_⟩
    rw [twin.dataLength, all.setup]
    exact short
  case inner =>
    rintro _ ⟨⟩ kind
    have kind' := twin.isFolder.symm.trans kind
    obtain ⟨archive, member, inner, count, valid⟩ := shows.inner has kind'
    refine ⟨⟨twin.attributes.symm ▸ archive, ?_, ?_, ?_, ?_⟩, shows.clusters_folder has kind', ?_⟩
    · rw [twin.firstCluster, cut.folders]
      exact member
    · rw [twin.firstCluster, all.details]
      exact inner
    · rw [twin.dataLength, all.details]
      exact count
    · rw [twin.validDataLength, twin.dataLength]
      exact valid
    · intro c' i' set' has' folder' first
      obtain ⟨old, other⟩ := (cut.has c' i' set').mp has'
      exact absurd (shows.once old has folder' kind' (first.trans twin.firstCluster)) other

section Move

variable (shows : v.Catalogued home aside cat) (has : cat.Has c i set) (here : d ∈ cat.folders)
  (run : EmptyRun (cat.list d).raws j new.raws.length)

include shows has here run

/-- It makes no difference whether the new set is written before or after. -/
theorem moved_eq :
    v.moved c i set d j new = putEntries d j new.raws (putEntries c i (set.raws.map cleared) v).tick := by
  have source := shows.folder c has.1
  have target := shows.folder d here
  rw [moved, putEntries_tick]
  refine putEntries_comm _ fun a below b within => ?_
  rw [List.length_map] at below
  rw [tick_slotLocation, tick_slotLocation]
  have inside := DirList.within has.2
  have inside' := run.1
  rw [source.length] at inside
  rw [target.length] at inside'
  intro same
  obtain ⟨sector, offset⟩ := Location.mk.inj same
  obtain ⟨rfl, sector⟩ := dataSector_inj source.cell.inHeap.1 target.cell.inHeap.1 (source.cell.sector_lt (by omega))
    (target.cell.sector_lt (by omega)) sector
  exact run.apart has.2 a below b within (slotLocation_inj same)

omit here run in
/-- Marking the entries of a set unused cuts it off. -/
theorem cuts : ∃ cat₁, Cut home aside v (putEntries c i (set.raws.map cleared) v) cat cat₁ c i set := by
  obtain ⟨list, edits, folder, changes⟩ := (shows.folder c has.1).clears has.2
  have revises : Revises home (aside ∪ {e | e ∈ cat.clusters c i}) v (putEntries c i (set.raws.map cleared) v)
      cat c i list none [] := {
    changes := changes.mono fun e same => .inl same
    folder := folder
    sets := edits.sets
    plain := fun inner => edits.plain (shows.plain c has.1 inner)
    fresh := fun e member => by cases member
    freed := fun e member _ => .inr (.inr member)
    gone := fun _ => rfl
    file := fun set none_ => by cases none_
    inner := fun set none_ => by cases none_ }
  have keyed : v.Keyed cat c i (v.setup.upcaseTable.key set.name) none := shows.keyed has fun _ made => by cases made
  have more := shows.lose {e | e ∈ cat.clusters c i}
  refine ⟨_, more.edit has.1 revises keyed, fun reserved => reserved.edit has.1 revises (by simp), changes, rfl,
    fun c' i' set' => ?_, fun c' i' => Catalog.edit_clusters_ne _ _ _ _ _,
    Catalog.edit_clusters_self .., more.store_edit has.1 revises keyed⟩
  rw [revises.has_iff has.1]
  simp

/-- The old set is still there when the new one has been written. -/
theorem inserted_setAt (bounded : Bounded (cat.list d).raws j) (hashed : new.Hashed v.setup.upcaseTable) :
    (putEntries d j new.raws v.tick).SetAt home c i set := by
  obtain ⟨list, edits, apart, folder, changes⟩ := (shows.folder d here).inserts run bounded hashed
  by_cases same : c = d
  · subst same
    exact folder.setAt ((edits.sets _).mpr (.inl ⟨has.2, apart _ has.2⟩))
  · exact ((shows.folder c has.1).kept changes same).setAt has.2

/-- What the folder of the new set lists. -/
theorem moved_folder (bounded : Bounded (cat.list d).raws j) (hashed : new.Hashed v.setup.upcaseTable) :
    (∃ list, (v.moved c i set d j new).Folder home d list ∧
      (∀ x, x ∈ list.sets ↔ (x ∈ (cat.list d).sets ∧ ¬ (d = c ∧ x.1 = i)) ∧ x.1 ≠ j ∨ x.1 = j ∧ some new = some x.2) ∧
      (d ≠ v.setup.details.firstClusterOfRootDir → list.Plain)) ∧ ∀ x ∈ (cat.list d).sets, x.1 ≠ j := by
  have target := shows.folder d here
  obtain ⟨list, edits, apart, folder, changes⟩ := target.inserts run bounded hashed
  refine ⟨?_, apart⟩
  by_cases same : d = c
  · subst same
    have other : i ≠ j := apart _ has.2
    have member : (i, set) ∈ list.sets := (edits.sets _).mpr (.inl ⟨has.2, other⟩)
    obtain ⟨list', edits', folder', _⟩ := folder.clears member
    refine ⟨list', folder', fun x => ?_, fun inner => edits'.plain (edits.plain (shows.plain d here inner))⟩
    rw [edits'.sets, edits.sets]
    constructor
    · rintro (⟨⟨old, before⟩ | ⟨at_, made⟩, left⟩ | ⟨_, none_⟩)
      · exact .inl ⟨⟨old, fun both => left both.2⟩, before⟩
      · exact .inr ⟨at_, made⟩
      · cases none_
    · rintro (⟨⟨old, left⟩, before⟩ | ⟨at_, made⟩)
      · exact .inl ⟨.inl ⟨old, before⟩, fun gone => left ⟨rfl, gone⟩⟩
      · exact .inl ⟨.inr ⟨at_, made⟩, fun gone => other (gone.symm.trans at_)⟩
  · have source := (shows.folder c has.1).kept changes fun inside => same inside.symm
    obtain ⟨_, _, _, cleared⟩ := source.clears has.2
    refine ⟨list, folder.kept cleared same, fun x => ?_, fun inner => edits.plain (shows.plain d here inner)⟩
    rw [edits.sets]
    simp only [same, false_and, not_false_iff, and_true]

/-- An entry set that is written anew under another name moves what it stands for. -/
theorem Catalogued.moves (bounded : Bounded (cat.list d).raws j) (hashed : new.Hashed v.setup.upcaseTable)
    (twin : new.Twin set)
    {ks ks' : List (List Nat)} (from_ : (cat.store v).walk v.setup.details.firstClusterOfRootDir ks = some c)
    (to_ : (cat.store v).walk v.setup.details.firstClusterOfRootDir ks' = some d)
    (outside : ¬ ks ++ [v.setup.upcaseTable.key set.name] <+: ks')
    (absent : cat.store v d (v.setup.upcaseTable.key new.name) = none) :
    ∃ cat', Becomes home aside v (v.moved c i set d j new) cat cat' ∧
      cat'.store (v.moved c i set d j new) = ((cat.store v).put c (v.setup.upcaseTable.key set.name) none).put d
        (v.setup.upcaseTable.key new.name) (some (cat.entry v c i set)) := by
  obtain ⟨⟨list, folder, sets, plain⟩, apart⟩ := moved_folder shows has here run bounded hashed
  have same := moved_eq shows has here run
  obtain ⟨cat₁, cut⟩ := cuts shows has
  obtain ⟨v₁, first⟩ : ∃ v₁, putEntries c i (set.raws.map cleared) v = v₁ := ⟨_, rfl⟩
  obtain ⟨v₂, second⟩ : ∃ v₂, v.moved c i set d j new = v₂ := ⟨_, rfl⟩
  rw [second] at folder same
  rw [first] at same cut
  rw [second]
  have here₁ : d ∈ cat₁.folders := cut.folders ▸ here
  have changes : Changes home {d} v₁ v₂ := by
    have target := (cut.catalogued.folder d here₁).kept (changes_tick v₁) (Set.notMem_empty d)
    have inside := run.1
    rw [(shows.folder d here).length, ← cut.changes.clusterSlots, ← tick_clusterSlots] at inside
    rw [same]
    exact ((changes_tick v₁).trans (target.cell.putEntries_changes _ inside)).mono (Set.empty_union _).le
  have revises := cut.revises shows has here twin changes folder apart sets plain
  have table := cut.changes.upcaseTable
  have keyed : v₁.Keyed cat₁ d j (v₁.setup.upcaseTable.key new.name) (some new) := by
    refine Catalogued.keyed_new (fun set' has' => apart _ ((cut.listed here _).mp has'.2).1 rfl)
      fun j' set' has' same => ?_
    rw [table] at same
    cases absent.symm.trans (shows.store_iff.mpr ⟨j', set', ((cut.has _ _ _).mp has').1, same, rfl⟩)
  have catalogued :=
    (cut.catalogued.edit here₁ revises keyed).regain fun e member =>
    ⟨d, j, by rw [Catalog.edit_clusters_self]; exact member⟩
  have entry : (cat₁.edit d j list (cat.clusters c i)).entry v₂ d j new = cat.entry v c i set := by
    rw [Catalog.entry, Catalog.entry, Catalog.edit_clusters_self, twin.isFolder, twin.firstCluster, twin.content]
    cases kind : set.isFolder with
    | true => rw [if_pos rfl, if_pos rfl]
    | false =>
      rw [Catalogued.content_eq shows.layout (cut.changes.trans changes) (shows.file has kind).stores]
      rintro e member (rfl | rfl)
      · exact (shows.filed member).1 has.1
      · exact (shows.filed member).1 here
  have store : (cat₁.edit d j list (cat.clusters c i)).store v₂ =
    ((cat.store v).put c (v.setup.upcaseTable.key set.name) none).put d
      (v.setup.upcaseTable.key new.name) (some (cat.entry v c i set)) := by
    rw [cut.catalogued.store_edit here₁ revises keyed, cut.store, table, Option.map_some, entry]
  refine ⟨_, ⟨catalogued, fun tidy => ⟨fun e member => ?_, ?_⟩, (cut.changes.trans changes).setup⟩, store⟩
  · obtain ⟨path, walked⟩ := tidy.reachable e (cut.folders ▸ member)
    rw [store, (cut.changes.trans changes).details]
    exact Store.walk_move shows.rooted from_ to_ (shows.store_iff.mpr ⟨i, set, has, rfl, rfl⟩) outside absent walked
  · exact (cut.reserved tidy.reserved).edit here₁ revises fun e member gone => (tidy.reserved e gone).2.2.2 c i member

end Move

end Volume

end ExFatSlim
