import ExFatSlim.Opening

namespace ExFatSlim

namespace Volume

variable {size : Nat} {home : Nat → CacheKind} {v v' v'' : Volume size} {cs ds : List Nat}

/-- The sector of the bitmap that has the bit of a cluster. -/
def bitSector (v : Volume size) (c : Nat) : Nat := v.setup.bitmap.firstSector + (BitmapPos.of size c).sector

theorem bitSector_home (layout : BitmapLayout size home v.setup) {c : Nat} (inHeap : v.InHeap c) :
    home (v.bitSector c) = .bitmap :=
  (layout.sectors _ (layout.sector_lt inHeap)).2

/-- The bits of the clusters `cs` are clear now, and their FAT entries too if they are linked.
No other bit and no other FAT entry has changed. -/
structure Clears (home : Nat → CacheKind) (linked : Bool) (cs : List Nat) (v v' : Volume size) : Prop where
  bitmap : v'.setup.bitmap = v.setup.bitmap
  table : v'.setup.startOfFatSector = v.setup.startOfFatSector
  bits : ∀ c, 2 ≤ c → home (v.bitSector c) = .bitmap → v'.isFreeCluster c = (v.isFreeCluster c || decide (c ∈ cs))
  links : ∀ c, home (v.fatSector c) = .fat → v'.fatEntry c = if linked = true ∧ c ∈ cs then
    noClusterId else v.fatEntry c

/-- What changes neither the bitmap nor the FAT clears nothing. -/
theorem clears_nil (linked : Bool) (bitmap : v'.setup.bitmap = v.setup.bitmap)
    (table : v'.setup.startOfFatSector = v.setup.startOfFatSector)
    (same : ∀ s, home s ≠ .data → v'.sectors s = v.sectors s) :
    Clears home linked [] v v' where
  bitmap := bitmap
  table := table
  bits c _ here := by
    have content := same (v.bitSector c) (by simp [here])
    rw [isFreeCluster, isFreeCluster, bitmap, ← bitSector, content]
    simp
  links c here := by
    have content := same (v.fatSector c) (by simp [here])
    have sector : v'.fatSector c = v.fatSector c := by rw [fatSector, fatSector, table]
    rw [fatEntry, fatEntry, sector, content]
    simp

theorem Clears.trans {linked : Bool} (first : Clears home linked cs v v') (second : Clears home linked ds v' v'') :
    Clears home linked (cs ++ ds) v v'' where
  bitmap := second.bitmap.trans first.bitmap
  table := second.table.trans first.table
  bits c low here := by
    have sector : v'.bitSector c = v.bitSector c := by rw [bitSector, bitSector, first.bitmap]
    rw [second.bits c low (by rw [sector]; exact here), first.bits c low here, Bool.or_assoc]
    simp
  links c here := by
    have sector : v'.fatSector c = v.fatSector c := by rw [fatSector, fatSector, first.table]
    rw [second.links c (by rw [sector]; exact here), first.links c here]
    by_cases later : linked = true ∧ c ∈ ds
    · rw [if_pos later, if_pos ⟨later.1, List.mem_append_right cs later.2⟩]
    · rw [if_neg later]
      refine if_congr ?_ rfl rfl
      rw [List.mem_append]
      tauto

theorem clears_mark (layout : BitmapLayout size home v.setup) {run : AllocatedRun} (low : 2 ≤ run.firstCluster)
    (high : run.firstCluster + run.clusterCount ≤ v.endCluster) :
    Clears home false run.clusters v (v.mark run false) where
  bitmap := by rw [mark_setup]
  table := by rw [mark_setup]
  bits c atLeast _ := by
    have member : c ∈ run.clusters ↔ run.Has c := AllocatedRun.mem_clusters
    rw [isFreeCluster_mark layout.pos v low false atLeast]
    change (if run.Has c then !false else v.isFreeCluster c) = _
    by_cases has : run.Has c
    · simp [has, member]
    · simp [has, member]
  links c here := by
    have sector : (v.mark run false).fatSector c = v.fatSector c := by rw [fatSector, fatSector, mark_setup]
    rw [fatEntry, fatEntry, sector, mark_others layout low high false (by simp [here])]
    simp

/-- What `free` does with one cluster of a chain in the FAT. -/
theorem clears_unlink (layout : Layout size home v.setup) {c : Nat} (inHeap : v.InHeap c) :
    Clears home true [c] v ((v.mark ⟨c, 1⟩ false).link c noClusterId) := by
  have marked : Clears home false (AllocatedRun.clusters ⟨c, 1⟩) v (v.mark ⟨c, 1⟩ false) :=
    clears_mark layout.toBitmapLayout inHeap.1 inHeap.2
  have setup : (v.mark ⟨c, 1⟩ false).setup = v.setup := mark_setup v ⟨c, 1⟩ false
  have layout' : Layout size home (v.mark ⟨c, 1⟩ false).setup := setup ▸ layout
  have inHeap' : (v.mark ⟨c, 1⟩ false).InHeap c := by
    rw [InHeap, endCluster, setup]
    exact inHeap
  have relinked := layout'.link_relinked inHeap' noClusterId
  refine ⟨marked.bitmap, marked.table, fun d low here => ?_, fun d here => ?_⟩
  · have content := relinked.others (v.bitSector d) (by simp [here])
    have bit : ((v.mark ⟨c, 1⟩ false).link c noClusterId).isFreeCluster d =
        (v.mark ⟨c, 1⟩ false).isFreeCluster d := by
      rw [isFreeCluster, isFreeCluster, relinked.setup, setup, ← bitSector, content]
    rw [bit, marked.bits d low here]
    rfl
  · by_cases same : d = c
    · subst same
      rw [fatEntry_link_self layout.words layout.pos _ _ (by decide)]
      simp
    · rw [relinked.entries d (by simpa using same), marked.links d here]
      simp [same]

/-- A later volume in which the clusters `cs` are free. -/
structure Freed (home : Nat → CacheKind) (cs : List Nat) (v v' : Volume size) : Prop where
  setup : v'.setup = v.setup
  data : ∀ s, home s = .data → v'.sectors s = v.sectors s
  free : ∀ c, v.InHeap c → (v'.IsFree c ↔ v.IsFree c ∨ c ∈ cs)
  entries : ∀ c, v.InHeap c → c ∉ cs → v'.fatEntry c = v.fatEntry c

theorem Clears.freed {linked : Bool} (clears : Clears home linked cs v v') (layout : Layout size home v.setup)
    (setup : v'.setup = v.setup) (data : ∀ s, home s = .data → v'.sectors s = v.sectors s) : Freed home cs v v' where
  setup := setup
  data := data
  free c inHeap := by
    rw [IsFree, IsFree, clears.bits c inHeap.1 (bitSector_home layout.toBitmapLayout inHeap)]
    simp
  entries c inHeap outside := by
    rw [clears.links c (layout.fatSector_home inHeap)]
    simp [outside]

theorem Freed.refl (v : Volume size) : Freed home [] v v := ⟨rfl, fun _ _ => rfl, by simp, fun _ _ _ => rfl⟩

theorem Freed.inHeap (freed : Freed home cs v v') {c : Nat} : v'.InHeap c ↔ v.InHeap c := by
  rw [InHeap, InHeap, endCluster, endCluster, freed.setup]

theorem Freed.trans (first : Freed home cs v v') (second : Freed home ds v' v'') : Freed home (cs ++ ds) v v'' where
  setup := second.setup.trans first.setup
  data s here := (second.data s here).trans (first.data s here)
  free c inHeap := by
    rw [second.free c (first.inHeap.mpr inHeap), first.free c inHeap, List.mem_append, or_assoc]
  entries c inHeap outside := by
    rw [List.mem_append, not_or] at outside
    exact (second.entries c (first.inHeap.mpr inHeap) outside.2).trans (first.entries c inHeap outside.1)

theorem freed_mark (layout : Layout size home v.setup) {run : AllocatedRun} (low : 2 ≤ run.firstCluster)
    (high : run.firstCluster + run.clusterCount ≤ v.endCluster) : Freed home run.clusters v (v.mark run false) :=
  (clears_mark layout.toBitmapLayout low high).freed layout (mark_setup v run false) fun s here =>
    mark_others layout.toBitmapLayout low high false (by simp [here])

theorem freed_unlink (layout : Layout size home v.setup) {c : Nat} (inHeap : v.InHeap c) :
    Freed home [c] v ((v.mark ⟨c, 1⟩ false).link c noClusterId) := by
  have marked : Freed home (AllocatedRun.clusters ⟨c, 1⟩) v (v.mark ⟨c, 1⟩ false) :=
    freed_mark layout inHeap.1 inHeap.2
  have layout' : Layout size home (v.mark ⟨c, 1⟩ false).setup := marked.setup ▸ layout
  refine (clears_unlink layout inHeap).freed layout marked.setup fun s here => ?_
  have relinked := layout'.link_relinked (marked.inHeap.mpr inHeap) noClusterId
  exact (relinked.others s (by simp [here])).trans (marked.data s here)

/-- The volume after `free` has gone along the clusters of a chain in the FAT. -/
def freeAll : List Nat → Volume size → Volume size
  | [], v => v
  | c :: cs, v => freeAll cs ((v.mark ⟨c, 1⟩ false).link c noClusterId)

theorem freed_freeAll (cs : List Nat) : ∀ {v : Volume size}, Layout size home v.setup → (∀ c ∈ cs, v.InHeap c) →
    Freed home cs v (v.freeAll cs) ∧ Clears home true cs v (v.freeAll cs) := by
  induction cs with
  | nil => exact fun _ _ => ⟨.refl _, clears_nil true rfl rfl fun _ _ => rfl⟩
  | cons c cs ih =>
    intro v layout inHeap
    have here := inHeap c List.mem_cons_self
    have one : Freed home [c] v ((v.mark ⟨c, 1⟩ false).link c noClusterId) := freed_unlink layout here
    obtain ⟨freed, clears⟩ :=
      ih (one.setup ▸ layout) fun d member => one.inHeap.mpr (inHeap d (List.mem_cons_of_mem c member))
    exact ⟨one.trans freed, (clears_unlink layout here).trans clears⟩

end Volume

namespace Allocator

open Volume

variable {size n : Nat} {home : Nat → CacheKind} {cs : List Nat}

/-- One round of `free` over a chain in the FAT, at a cluster of the heap. -/
theorem freeChain_round {s : Session size n} (sound : s.fs.Sound home)
    (layout : Layout size home s.fs.setup) {c : Nat}
    (inHeap : (s.fs.volume home).InHeap c) (rounds : Nat) : ∃ s' : Session size n, s'.fs.Sound home ∧
      s'.fs.volume home = ((s.fs.volume home).mark ⟨c, 1⟩ false).link c noClusterId ∧
      freeChain (rounds + 1) c s = (match (s.fs.volume home).next c with
        | some next => freeChain rounds next
        | none => pure ()) s' := by
  obtain ⟨s₁, run₁, sound₁, shown₁⟩ := Session.leads_onFs (Fat.nextClusterInFatChain_leads sound layout inHeap)
  have shown₁ : s₁.fs.volume home = s.fs.volume home := shown₁
  have setup₁ : s₁.fs.setup = s.fs.setup := congrArg Volume.setup shown₁
  have layout₁ : Layout size home s₁.fs.setup := setup₁ ▸ layout
  have marks : Session.Leads home (markAllocated ⟨c, 1⟩ false) s₁ (.ok ()) ((s₁.fs.volume home).mark ⟨c, 1⟩ false) :=
    markAllocated_leads sound₁ layout₁.toBitmapLayout false Nat.one_pos inHeap.1 (by rw [shown₁]; exact inHeap.2)
  obtain ⟨s₂, run₂, sound₂, shown₂⟩ := marks
  have shown₂ : s₂.fs.volume home = (s.fs.volume home).mark ⟨c, 1⟩ false := by rw [← shown₁]; exact shown₂
  have setup₂ : s₂.fs.setup = s.fs.setup := by
    have same := congrArg Volume.setup shown₂
    rw [mark_setup] at same
    exact same
  have inHeap₂ : (s₂.fs.volume home).InHeap c := by
    rw [InHeap, endCluster, FileSystem.volume_setup, setup₂]
    exact inHeap
  obtain ⟨s₃, run₃, sound₃, shown₃⟩ := Fat.set_leads sound₂ (setup₂ ▸ layout) inHeap₂ noClusterId
  have shown₃ : s₃.fs.volume home = (s₂.fs.volume home).link c noClusterId := shown₃
  rw [shown₂] at shown₃
  refine ⟨s₃, sound₃, shown₃, ?_⟩
  rw [freeChain, Exec.bind_of_ok run₁, Exec.bind_of_ok run₂]
  exact Exec.bind_of_ok run₃

/-- `free` of a chain in the FAT goes along it. -/
theorem freeChain_leads (cs : List Nat) :
    ∀ {c : Nat} {s : Session size n}, s.fs.Sound home → Layout size home s.fs.setup →
    (s.fs.volume home).Threads (c :: cs) → (c :: cs).Nodup → (∀ d ∈ c :: cs, (s.fs.volume home).InHeap d) →
    Session.Leads home (freeChain (cs.length + 1) c) s (.ok ()) ((s.fs.volume home).freeAll (c :: cs)) := by
  induction cs with
  | nil =>
    intro c s sound layout threads _ inHeap
    obtain ⟨s₁, sound₁, shown₁, round⟩ := freeChain_round sound layout (inHeap c List.mem_cons_self) 0
    rw [threads.ended c rfl] at round
    exact .of_run round sound₁ shown₁
  | cons d rest ih =>
    intro c s sound layout threads distinct inHeap
    have here := inHeap c List.mem_cons_self
    obtain ⟨outside, distinct'⟩ := List.nodup_cons.mp distinct
    obtain ⟨s₁, sound₁, shown₁, round⟩ := freeChain_round sound layout here (d :: rest).length
    have one : Freed home [c] (s.fs.volume home) (s₁.fs.volume home) := shown₁ ▸ freed_unlink layout here
    have same : ∀ e ∈ d :: rest, (s₁.fs.volume home).next e = (s.fs.volume home).next e := by
      intro e member
      refine next_of_fatEntry (one.entries e (inHeap e (List.mem_cons_of_mem c member)) ?_)
      rw [List.mem_singleton]
      rintro rfl
      exact outside member
    have linked : (s.fs.volume home).Linked (d :: rest) := (List.isChain_cons_cons.mp threads.linked).2
    have threads' : (s₁.fs.volume home).Threads (d :: rest) := by
      refine ⟨linked.of_same fun e member => same e (List.dropLast_subset _ member), fun e final => ?_⟩
      rw [same e (List.mem_of_getLast? final)]
      exact threads.ended e (by rw [List.getLast?_cons_cons]; exact final)
    have setup : s₁.fs.setup = s.fs.setup := one.setup
    have follow : (s.fs.volume home).next c = some d := threads.next_eq (j := 0) rfl
    obtain ⟨s₂, run, sound₂, shown₂⟩ := ih sound₁ (setup ▸ layout) threads' distinct' fun e member =>
      one.inHeap.mpr (inHeap e (List.mem_cons_of_mem c member))
    rw [follow] at round
    rw [shown₁] at shown₂
    exact .of_run (round.trans run) sound₂ shown₂

/-- `free` of the chain of a file frees its clusters, and their FAT entries if it is not contiguous. -/
theorem free_leads {s : Session size n} (sound : s.fs.Sound home) (layout : Layout size home s.fs.setup)
    {details : FileDetails}
    (stores : (s.fs.volume home).Stores home details cs) :
    ∃ v, Session.Leads home (free (storedChain details cs)) s (.ok ()) v ∧ Freed home cs (s.fs.volume home) v ∧
      Clears home (!details.flags.noFatChain) cs (s.fs.volume home) v := by
  unfold storedChain
  cases final : cs.getLast? with
  | none =>
    rw [List.getLast?_eq_none_iff.mp final]
    exact ⟨_, .of_run rfl sound rfl, .refl _, clears_nil _ rfl rfl fun _ _ => rfl⟩
  | some last =>
    obtain ⟨c, rest, rfl⟩ := List.exists_cons_of_ne_nil (List.ne_nil_of_mem (List.mem_of_getLast? final))
    have first := stores.first c rfl
    have low := (stores.inHeap c List.mem_cons_self).1
    cases flag : details.flags.noFatChain with
    | true =>
      have range := stores.contiguous flag
      have high := (stores.inHeap last (List.mem_of_getLast? final)).2
      have length : 0 < (c :: rest).length := Nat.succ_pos _
      have same : details.firstCluster + (c :: rest).length - 1 = last := by
        rw [range, List.getLast?_range', if_neg (by omega)] at final
        exact Option.some.inj final
      rw [first] at low
      have high : (⟨details.firstCluster, (c :: rest).length⟩ : AllocatedRun).firstCluster +
          (⟨details.firstCluster, (c :: rest).length⟩ : AllocatedRun).clusterCount ≤
            (s.fs.volume home).endCluster := by
        dsimp only
        omega
      have run := freeRun_leads sound layout.toBitmapLayout length low high
      have freed := freed_mark layout low high
      have clears := clears_mark layout.toBitmapLayout low high
      rw [AllocatedRun.clusters, ← range] at freed clears
      exact ⟨_, run, freed, clears⟩
    | false =>
      have run := freeChain_leads rest sound layout (stores.linked flag) stores.distinct stores.inHeap
      have cleared := freed_freeAll (c :: rest) layout stores.inHeap
      rw [first] at run cleared ⊢
      exact ⟨_, run, cleared⟩

end Allocator

end ExFatSlim
