import ExFatSlim.Handle
import ExFatSlim.ReadOnly

namespace ExFatSlim

namespace Volume

variable {size : Nat} {home : Nat → CacheKind} {v : Volume size} {details : FileDetails} {cs : List Nat}

/-- A file as its directory entry describes it, `cs` being its clusters. -/
structure Stores (home : Nat → CacheKind) (v : Volume size) (details : FileDetails) (cs : List Nat) : Prop where
  count : cs.length = FileSystem.divCeil details.dataLength v.setup.details.clusterLength
  valid : details.validDataLength ≤ details.dataLength
  first : ∀ c ∈ cs.head?, c = details.firstCluster
  contiguous : details.flags.noFatChain = true → cs = List.range' details.firstCluster cs.length
  linked : details.flags.noFatChain = false → v.Threads cs
  distinct : cs.Nodup
  inHeap : ∀ c ∈ cs, v.InHeap c
  used : ∀ c ∈ cs, ¬ v.IsFree c
  data : ∀ c ∈ cs, v.IsData home c

/-- The chain that `get_stored_chain` returns for it. -/
def storedChain (details : FileDetails) (cs : List Nat) : StoredChain :=
  match cs.getLast? with
  | none => .empty
  | some last =>
    if details.flags.noFatChain then .contiguous details.firstCluster cs.length
    else .fat details.firstCluster last cs.length

theorem Stores.owns (stores : v.Stores home details cs) :
    v.Owns home details.flags.noFatChain (storedChain details cs) cs := by
  refine ⟨?_, stores.linked, fun first last count same => ?_, stores.distinct, stores.inHeap,
    stores.used, stores.data⟩
  · unfold storedChain
    cases final : cs.getLast? with
    | none => exact List.getLast?_eq_none_iff.mp final
    | some last =>
      have some_ : cs ≠ [] := by
        rintro rfl
        cases final
      cases flag : details.flags.noFatChain with
      | true => exact ⟨List.length_pos_iff.mpr some_, stores.contiguous flag⟩
      | false =>
        obtain ⟨c, rest, rfl⟩ := List.exists_cons_of_ne_nil some_
        exact ⟨congrArg some (stores.first c rfl), final, rfl⟩
  · unfold storedChain at same
    split at same
    · cases same
    · split at same
      · cases same
      · rename_i flag
        exact Bool.eq_false_iff.mpr flag

end Volume

namespace FileSystem

variable {size n : Nat} {home : Nat → CacheKind} {fs : FileSystem size n} {details : FileDetails} {cs : List Nat}

theorem getStoredChain_leads (sound : fs.Sound home) (layout : Layout size home fs.setup)
    (stores : (fs.volume home).Stores home details cs) :
    FileSystem.Leads home (getStoredChain details) fs (.ok (Volume.storedChain details cs)) (fs.volume home) := by
  have few := File.length_le_heap stores.distinct stores.inHeap
  have ids := layout.ids
  simp only [Fat.clusterLen, FileSystem.volume_setup] at ids few
  have count : cs.length = divCeil details.dataLength fs.fs.clusterLength := stores.count
  refine .get ?_
  dsimp only
  rw [← count, Nat.mod_eq_of_lt (by omega)]
  cases final : cs.getLast? with
  | none =>
    have none_ := List.getLast?_eq_none_iff.mp final
    rw [if_pos (Or.inr (by rw [none_]; rfl)), Volume.storedChain, final]
    exact .of_run rfl sound rfl
  | some last =>
    have member := List.mem_of_getLast? final
    obtain ⟨c, rest, rfl⟩ := List.exists_cons_of_ne_nil (List.ne_nil_of_mem member)
    have first := stores.first c rfl
    have low := (stores.inHeap c List.mem_cons_self).1
    rw [if_neg (by simp [noClusterId]; omega), Volume.storedChain, final]
    dsimp only
    cases flag : details.flags.noFatChain with
    | true =>
      rw [if_pos rfl, if_pos rfl]
      exact .of_run rfl sound rfl
    | false =>
      rw [if_neg (by simp), if_neg (by simp)]
      have pos : 0 < fs.fs.clusterLength := by
        have length : fs.fs.clusterLength = size * fs.fs.sectorsPerCluster := layout.clusterLength
        rw [length]
        exact Nat.mul_pos layout.pos layout.sectorsPerCluster
      have walked := walkFat_leads rest.length sound layout (stores.linked flag) stores.inHeap (j := 0) rfl
      rw [Nat.zero_add, show (c :: rest)[rest.length]? = some last by
        rw [← final, List.getLast?_eq_getElem?, List.length_cons, Nat.add_sub_cancel], first] at walked
      have located : FileSystem.Leads home (getClusterIdAt details.dataLength details) fs (.ok last)
          (fs.volume home) := by
        rw [List.length_cons, divCeil] at count
        have some_ : details.dataLength ≠ 0 := by
          intro none_
          rw [none_, Nat.zero_add, Nat.div_eq_of_lt (by omega)] at count
          omega
        have steps : (details.dataLength - 1) / fs.fs.clusterLength = rest.length := by
          rw [show details.dataLength + fs.fs.clusterLength - 1 =
            details.dataLength - 1 + fs.fs.clusterLength by omega,
            Nat.add_div_right _ pos] at count
          omega
        rw [List.length_cons] at few
        rw [getClusterIdAt, if_neg some_]
        refine .get ?_
        dsimp only
        rw [steps, Nat.mod_eq_of_lt (by omega), flag, if_neg (by simp)]
        exact walked
      refine located.bind fun fs' sound' shown' => ?_
      exact .of_run rfl sound' shown'

/-- What `open` does once it has the details of the file. -/
def openWith (details : FileDetails) (options : OpenOptions) : ExFat (FileSystem size n) File := do
  let chain ← getStoredChain details
  let clusterId ← openCluster details chain options
  File.new details clusterId (← get).fs.clusterLength options chain

/-- The handle of a file as `open` makes it. -/
def opened (details : FileDetails) (cs : List Nat) (clusterLength : Nat) (options : OpenOptions) : File where
  details := details
  currentCluster := if options.append then cs.getLastD details.firstCluster else details.firstCluster
  remainingBytesInCluster := if cs = [] then 0
    else clusterLength - (if options.append then details.validDataLength else 0) % clusterLength
  cursor := if options.append then details.validDataLength else 0
  openOptions := options
  chain := Volume.storedChain details cs
  touched := .new

theorem openCluster_run {σ : Type} {v : Volume size} (layout : Layout size home v.setup)
    (stores : v.Stores home details cs)
    (options : OpenOptions) (s : σ) : (openCluster details (Volume.storedChain details cs) options : ExFat σ Nat) s =
      (.ok (if options.append then cs.getLastD details.firstCluster else details.firstCluster), s) := by
  unfold openCluster
  split
  · cases final : cs.getLast? with
    | none =>
      have none_ := List.getLast?_eq_none_iff.mp final
      rw [Volume.storedChain, final, none_]
      rfl
    | some last =>
      have member := List.mem_of_getLast? final
      rw [Volume.storedChain, final, List.getLastD_eq_getLast?, final]
      dsimp only
      cases flag : details.flags.noFatChain with
      | true =>
        have ids := layout.ids
        have high : last < 2 + v.setup.bitmap.clusterCount := (stores.inHeap last member).2
        have range := stores.contiguous flag
        have length := List.length_pos_iff.mpr (List.ne_nil_of_mem member)
        have same : details.firstCluster + cs.length - 1 = last := by
          rw [range, List.getLast?_range', if_neg (by omega)] at final
          exact Option.some.inj final
        simp only [Fat.clusterLen] at ids
        rw [if_pos rfl]
        dsimp only
        rw [Exec.bind_of_ok (u32_of_lt (by omega) s), Option.getD_some, ← same]
        exact minus_of_le (by omega) s
      | false => rfl
  · rfl

theorem new_run {σ : Type} {chain : StoredChain} {clusterLength : Nat} (empty : chain = .empty ↔ cs = [])
    (pos : 0 < clusterLength) (details : FileDetails) (clusterId : Nat) (options : OpenOptions) (s : σ) :
    (File.new details clusterId clusterLength options chain : ExFat σ File) s = (.ok {
      details
      currentCluster := clusterId
      remainingBytesInCluster := if cs = [] then 0
        else clusterLength - (if options.append then details.validDataLength else 0) % clusterLength
      cursor := if options.append then details.validDataLength else 0
      openOptions := options
      chain
      touched := .new }, s) := by
  have small := Nat.mod_lt (if options.append = true then details.validDataLength else 0) pos
  cases chain with
  | empty =>
    rw [if_pos (empty.mp rfl)]
    rfl
  | contiguous first count =>
    rw [if_neg fun none_ => StoredChain.noConfusion (empty.mpr none_)]
    exact (Exec.bind_of_ok (minus_of_le small.le s)).trans rfl
  | fat first last count =>
    rw [if_neg fun none_ => StoredChain.noConfusion (empty.mpr none_)]
    exact (Exec.bind_of_ok (minus_of_le small.le s)).trans rfl

theorem openWith_leads (sound : fs.Sound home) (layout : Layout size home fs.setup)
    (stores : (fs.volume home).Stores home details cs) (options : OpenOptions) :
    FileSystem.Leads home (openWith details options) fs (.ok (opened details cs fs.fs.clusterLength options))
      (fs.volume home) := by
  have pos : 0 < fs.fs.clusterLength := by
    have length : fs.fs.clusterLength = size * fs.fs.sectorsPerCluster := layout.clusterLength
    rw [length]
    exact Nat.mul_pos layout.pos layout.sectorsPerCluster
  refine (getStoredChain_leads sound layout stores).bind fun fs₁ sound₁ shown₁ => ?_
  refine .step (openCluster_run (v := fs.volume home) layout stores options fs₁) (.get ?_)
  have length : fs₁.fs.clusterLength = fs.fs.clusterLength :=
    congrArg (fun v : Volume size => v.setup.details.clusterLength) shown₁
  refine .of_run ?_ sound₁ shown₁
  rw [length]
  exact new_run (File.lists_empty stores.owns.lists) pos details _ options fs₁

/-- Without `append` a handle is at the start of its chain. With it the cursor is at the end of the
valid data and the handle in the last cluster, wherever that end is. -/
theorem opened_positioned_iff {v : Volume size} (layout : Layout size home v.setup)
    (stores : v.Stores home details cs)
    (options : OpenOptions) :
    File.Positioned v.setup.details.clusterLength cs (opened details cs v.setup.details.clusterLength options) ↔
      options.append = false ∨ cs = [] ∨ details.validDataLength / v.setup.details.clusterLength + 1 = cs.length := by
  have pos : 0 < v.setup.details.clusterLength := by
    rw [layout.clusterLength]
    exact Nat.mul_pos layout.pos layout.sectorsPerCluster
  have small := Nat.mod_lt details.validDataLength pos
  have valid := stores.valid
  cases append : options.append with
  | false =>
    refine iff_of_true ?_ (Or.inl rfl)
    cases cs with
    | nil => exact Or.inl ⟨rfl, by simp [opened, append], rfl⟩
    | cons c rest =>
      refine Or.inr (Or.inl ⟨?_, ?_⟩)
      · simp [opened, append, stores.first c rfl]
      · simp [opened, append]
  | true =>
    by_cases none_ : cs = []
    · refine iff_of_true (Or.inl ⟨none_, ?_, ?_⟩) (Or.inr (Or.inl none_))
      · have count := stores.count
        rw [none_, List.length_nil] at count
        have nothing := (divCeil_le (c := 0) pos).mp count.symm.le
        simp only [opened, append, if_true]
        omega
      · simp [opened, none_]
    · have last : cs[cs.length - 1]? = some (cs.getLastD details.firstCluster) := by
        rw [← List.getLast?_eq_getElem?, List.getLastD_eq_getLast?, List.getLast?_eq_some_getLast none_]
        rfl
      have some_ := List.length_pos_iff.mpr none_
      constructor
      · rintro (⟨nothing, _⟩ | inside | past)
        · exact absurd nothing none_
        · have here := inside.1
          simp only [opened, append, if_true] at here
          obtain ⟨index, same⟩ := List.getElem?_eq_some_iff.mp here
          obtain ⟨index', same'⟩ := List.getElem?_eq_some_iff.mp last
          have equal := (stores.distinct.getElem_inj_iff).mp (same.trans same'.symm)
          exact Or.inr (Or.inr (by omega))
        · have remaining := past.2.2.1
          simp only [opened, append, if_true, if_neg none_] at remaining
          omega
      · rintro (wrong | nothing | whole)
        · cases wrong
        · exact absurd nothing none_
        · refine Or.inr (Or.inl ⟨?_, ?_⟩)
          · simp only [opened, append, if_true]
            rw [← last]
            congr 1
            omega
          · simp only [opened, append, if_true, if_neg none_]

/-- A mounted file system whose caches agree with a well-formed volume. -/
structure Fit (home : Nat → CacheKind) (fs : FileSystem size n) : Prop where
  sound : fs.Sound home
  layout : Layout size home fs.setup
  search : 2 ≤ fs.setup.nextSearchCluster
  room : ∀ c, (fs.volume home).InHeap c → (fs.volume home).IsFree c → (fs.volume home).IsData home c

theorem Fit.of_volume {fs' : FileSystem size n} (fit : fs.Fit home) (sound : fs'.Sound home)
    (volume : fs'.volume home = fs.volume home) : fs'.Fit home := by
  have setup : fs'.setup = fs.setup := congrArg Volume.setup volume
  refine ⟨sound, setup ▸ fit.layout, setup ▸ fit.search, ?_⟩
  rw [volume]
  exact fit.room

theorem withTouched_ok {α : Type} {m : ExFat (Session size n) α} {a : α} {fs' : FileSystem size n}
    (run : withTouched m fs = (.ok a, fs')) : ∃ s', m ⟨fs, .new⟩ = (.ok a, s') :=
  ⟨(m ⟨fs, .new⟩).2, Prod.ext (Prod.mk.inj run).1 rfl⟩

theorem truncateFile_ok {old : FileDetails} {fs' : FileSystem size n}
    (run : truncateFile old 0 fs = (.ok details, fs')) :
    details.firstCluster = noClusterId ∧ details.dataLength = 0 ∧ details.validDataLength = 0 := by
  obtain ⟨s', run⟩ := withTouched_ok run
  obtain ⟨_, s₁, _, run⟩ := Exec.bind_eq_ok.mp run
  obtain ⟨chain, s₂, _, run⟩ := Exec.bind_eq_ok.mp run
  obtain ⟨_, s₃, _, run⟩ := Exec.bind_eq_ok.mp run
  obtain ⟨_, s₄, _, run⟩ := Exec.bind_eq_ok.mp run
  obtain ⟨_, s₅, _, run⟩ := Exec.bind_eq_ok.mp run
  cases run
  exact ⟨rfl, rfl, Nat.min_zero _⟩

theorem createFileDirEntryAt_ok {fuel directory first valid length : Nat} {name : List Char}
    {attributes : FileAttributes}
    {flags : GeneralSecondaryFlags} {s s' : Session size n}
    (run : Session.createFileDirEntryAt fuel name directory first attributes flags valid length s =
      (.ok details, s')) :
    details.firstCluster = first ∧ details.dataLength = length ∧ details.validDataLength = valid := by
  obtain ⟨_, s₁, _, run⟩ := Exec.bind_eq_ok.mp run
  obtain ⟨⟨hash, count⟩, s₂, _, run⟩ := Exec.bind_eq_ok.mp run
  obtain ⟨place, s₃, _, run⟩ := Exec.bind_eq_ok.mp run
  obtain ⟨secondary, s₄, _, run⟩ := Exec.bind_eq_ok.mp run
  obtain ⟨now, s₅, _, run⟩ := Exec.bind_eq_ok.mp run
  obtain ⟨_, s₆, _, run⟩ := Exec.bind_eq_ok.mp run
  obtain ⟨_, s₇, _, run⟩ := Exec.bind_eq_ok.mp run
  obtain ⟨_, s₈, _, run⟩ := Exec.bind_eq_ok.mp run
  obtain ⟨_, s₉, _, run⟩ := Exec.bind_eq_ok.mp run
  cases run
  exact ⟨rfl, rfl, rfl⟩

theorem createFile_ok {fuel : Nat} {path : List Char} {fs' : FileSystem size n}
    (run : createFile fuel path fs = (.ok details, fs')) :
    details.firstCluster = noClusterId ∧ details.dataLength = 0 ∧ details.validDataLength = 0 := by
  obtain ⟨s', run⟩ := withTouched_ok run
  obtain ⟨directory, s₁, _, run⟩ := Exec.bind_eq_ok.mp run
  obtain ⟨details', s₂, created, run⟩ := Exec.bind_eq_ok.mp run
  obtain ⟨_, s₃, _, run⟩ := Exec.bind_eq_ok.mp run
  cases run
  exact createFileDirEntryAt_ok created

/-- What is opened is a file of the volume as it was, or an empty file. -/
theorem openDetails_ok {fuel : Nat} {path : List Char} {options : OpenOptions} {fs' : FileSystem size n}
    (run : openDetails fuel path options fs = (.ok details, fs')) :
    findFileInner fuel path (some attrArchive) fs = (.ok details, fs') ∨
      (details.firstCluster = noClusterId ∧ details.dataLength = 0 ∧ details.validDataLength = 0) := by
  obtain ⟨found, fs₁, first, run⟩ := Exec.bind_eq_ok.mp run
  unfold Exec.attempt at first
  rcases outcome : findFileInner fuel path (some attrArchive) fs with ⟨(e | _ | _) | old, fs₂⟩
  · rw [outcome] at first
    cases first
    by_cases missing : e = .fileNotFound
    · subst missing
      dsimp only at run
      split at run
      · exact Or.inr (createFile_ok run)
      · cases run
    · cases e <;> first | exact absurd rfl missing | cases run
  · rw [outcome] at first
    cases first
  · rw [outcome] at first
    cases first
  · rw [outcome] at first
    cases first
    dsimp only at run
    split at run
    · cases run
    · split at run
      · exact Or.inr (truncateFile_ok run)
      · cases run
        exact Or.inl rfl

theorem openWith_empty {fs' : FileSystem size n} {options : OpenOptions} {file : File}
    (none_ : details.firstCluster = noClusterId)
    (run : openWith details options fs = (.ok file, fs')) :
    file = opened details [] fs'.fs.clusterLength options ∧ fs' = fs := by
  have chain : getStoredChain details fs = (.ok .empty, fs) := by
    rw [getStoredChain, Exec.bind_of_ok (Exec.get_apply fs), if_pos (Or.inl none_)]
    rfl
  rw [openWith, Exec.bind_of_ok chain, openCluster] at run
  split at run
  · rename_i append
    cases run
    simp [opened, append, Volume.storedChain]
  · rename_i append
    cases run
    simp [opened, append, Volume.storedChain]

/-- The handle that `open` returns: of a file that the volume has, which is then as it was, or of an empty file. -/
theorem open_ok (fit : fs.Fit home) {fuel : Nat} {path : List Char} {options : OpenOptions} {file : File}
    {fs' : FileSystem size n}
    (stored : ∀ details fs₁, findFileInner fuel path (some attrArchive) fs = (.ok details, fs₁) →
      ∃ cs, (fs.volume home).Stores home details cs)
    (run : «open» fuel path options fs = (.ok file, fs')) :
    ∃ details cs, file = opened details cs fs'.fs.clusterLength options ∧
      ((fs'.Fit home ∧ fs'.volume home = fs.volume home ∧ (fs'.volume home).Stores home details cs) ∨
        (cs = [] ∧ details.dataLength = 0 ∧ details.validDataLength = 0)) := by
  rw [«open», Exec.bind_of_ok (mount_of_mounted fit.layout.mounted)] at run
  obtain ⟨details, fs₁, found, rest⟩ := Exec.bind_eq_ok.mp run
  have rest : openWith details options fs₁ = (.ok file, fs') := rest
  rcases openDetails_ok found with found | ⟨none_, empty, valid⟩
  · have looks : Looks home fs _ := findFileInner_looks fuel path (some attrArchive) fs
    rw [found] at looks
    obtain ⟨sound₁, volume₁, _⟩ := looks.served fit.sound
    obtain ⟨cs, stores⟩ := stored details fs₁ found
    have fit₁ := fit.of_volume sound₁ volume₁
    obtain ⟨fs₂, run₂, sound₂, volume₂⟩ := openWith_leads sound₁ fit₁.layout (by rw [volume₁]; exact stores) options
    cases rest.symm.trans run₂
    have length : fs'.fs.clusterLength = fs₁.fs.clusterLength :=
      congrArg (fun v : Volume size => v.setup.details.clusterLength) volume₂
    have volume : fs'.volume home = fs.volume home := volume₂.trans volume₁
    exact ⟨details, cs, by rw [length], Or.inl ⟨fit.of_volume sound₂ volume, volume, by rw [volume]; exact stores⟩⟩
  · exact ⟨details, [], (openWith_empty none_ rest).1, Or.inr ⟨rfl, empty, valid⟩⟩

/-- What is left of the match of `open` when the file is there. -/
theorem openDetails_found {fuel : Nat} {path : List Char} {options : OpenOptions} {fs₁ : FileSystem size n}
    (found : findFileInner fuel path (some attrArchive) fs = (.ok details, fs₁)) :
    openDetails fuel path options fs = (do
      if options.createNew then Exec.raise .alreadyExists
      if options.truncate then truncateFile details 0 else pure details :
        ExFat (FileSystem size n) FileDetails) fs₁ := by
  rw [openDetails, Exec.bind_of_ok (Exec.attempt_of_ok found)]

/-- A file that is there is opened as it is. -/
theorem open_found (fit : fs.Fit home) {fuel : Nat} {path : List Char} {options : OpenOptions}
    {fs₁ : FileSystem size n}
    (found : findFileInner fuel path (some attrArchive) fs = (.ok details, fs₁))
    (stores : (fs.volume home).Stores home details cs) (createNew : options.createNew = false)
    (truncate : options.truncate = false) :
    ∃ fs', «open» fuel path options fs = (.ok (opened details cs fs'.fs.clusterLength options), fs') ∧ fs'.Fit home ∧
      fs'.volume home = fs.volume home := by
  have looks : Looks home fs _ := findFileInner_looks fuel path (some attrArchive) fs
  rw [found] at looks
  obtain ⟨sound₁, volume₁, _⟩ := looks.served fit.sound
  have fit₁ := fit.of_volume sound₁ volume₁
  have first : openDetails fuel path options fs = (.ok details, fs₁) := by
    rw [openDetails_found found, createNew, truncate]
    rfl
  obtain ⟨fs₂, run₂, sound₂, volume₂⟩ := openWith_leads sound₁ fit₁.layout (by rw [volume₁]; exact stores) options
  have length : fs₂.fs.clusterLength = fs₁.fs.clusterLength :=
    congrArg (fun v : Volume size => v.setup.details.clusterLength) volume₂
  refine ⟨fs₂, ?_, fit₁.of_volume sound₂ volume₂, volume₂.trans volume₁⟩
  rw [«open», Exec.bind_of_ok (mount_of_mounted fit.layout.mounted), Exec.bind_of_ok first, length]
  exact run₂

/-- The same, with the state that `open` leaves. -/
theorem open_found_state (fit : fs.Fit home) {fuel : Nat} {path : List Char} {options : OpenOptions}
    (found : (findFileInner fuel path (some attrArchive) fs).1 = .ok details)
    (stores : (fs.volume home).Stores home details cs)
    (createNew : options.createNew = false) (truncate : options.truncate = false) : «open» fuel path options fs =
      (.ok (opened details cs fs.fs.clusterLength options), («open» fuel path options fs).2) ∧
        («open» fuel path options fs).2.Fit home := by
  obtain ⟨fs', opens, left, volume⟩ := open_found fit (Exec.run_of_fst found) stores createNew truncate
  have length : fs'.fs.clusterLength = fs.fs.clusterLength :=
    congrArg (fun v : Volume size => v.setup.details.clusterLength) volume
  rw [length] at opens
  rw [opens]
  exact ⟨rfl, left⟩

/-- An empty file is on every volume. -/
theorem stores_nil {v : Volume size} (layout : Layout size home v.setup) (empty : details.dataLength = 0)
    (valid : details.validDataLength = 0) : v.Stores home details [] where
  count := by
    have pos : 0 < v.setup.details.clusterLength := by
      rw [layout.clusterLength]
      exact Nat.mul_pos layout.pos layout.sectorsPerCluster
    rw [empty, divCeil, Nat.zero_add, Nat.div_eq_of_lt (by omega), List.length_nil]
  valid := by rw [empty, valid]
  first c none_ := by cases none_
  contiguous _ := rfl
  linked _ := ⟨.nil, fun c none_ => by cases none_⟩
  distinct := .nil
  inHeap c none_ := by cases none_
  used c none_ := by cases none_
  data c none_ := by cases none_

theorem Fit.kept (fit : fs.Fit home) (stores : (fs.volume home).Stores home details cs) (options : OpenOptions) :
    FileSession.Kept home cs ⟨fs, opened details cs fs.fs.clusterLength options⟩ where
  sound := fit.sound
  layout := fit.layout
  search := fit.search
  room := fit.room
  owns := stores.owns
  clusters := stores.count.ge
  valid := stores.valid
  cursor := by
    simp only [opened]
    split
    · exact stores.valid
    · exact Nat.zero_le _
  place := by
    by_cases none_ : cs = []
    · exact Or.inl none_
    · obtain ⟨c, rest, rfl⟩ := List.exists_cons_of_ne_nil none_
      refine Or.inr ?_
      simp only [opened]
      split
      · rw [List.getLastD_eq_getLast?, List.getLast?_eq_some_getLast none_, Option.getD_some]
        exact List.getLast_mem none_
      · rw [← stores.first c rfl]
        exact List.mem_cons_self

end FileSystem

end ExFatSlim
