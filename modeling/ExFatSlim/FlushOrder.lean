import ExFatSlim.Touched

namespace ExFatSlim

namespace BlockDevice

variable {size : Nat} {d d' d'' : BlockDevice size} {ws ws' : List (Nat × Block size)}

/-- How many of so many accesses succeed before the first one that fails. -/
def successes : List (Option (Block size)) → Nat → Nat
  | _, 0 => 0
  | [], k + 1 => k + 1
  | some _ :: _, _ + 1 => 0
  | none :: script, k + 1 => successes script k + 1

theorem successes_le (script : List (Option (Block size))) : ∀ k, successes script k ≤ k := by
  induction script with
  | nil =>
    intro k
    cases k <;> exact le_rfl
  | cons outcome script ih =>
    intro k
    cases k with
    | zero => exact le_rfl
    | succ k =>
      cases outcome with
      | none => exact Nat.succ_le_succ (ih k)
      | some garbage => exact Nat.zero_le _

/-- What was tried second counts only when all of the first succeeded. -/
theorem successes_add (j k : Nat) : ∀ script : List (Option (Block size)), successes script (j + k) =
    if successes script j = j then j + successes (script.drop j) k else successes script j := by
  induction j with
  | zero =>
    intro script
    have zero : successes script 0 = 0 := by cases script <;> rfl
    rw [zero, if_pos rfl, Nat.zero_add, Nat.zero_add, List.drop_zero]
  | succ j ih =>
    intro script
    rw [Nat.add_right_comm]
    rcases script with _ | ⟨_ | garbage, script⟩
    · rw [successes, successes, if_pos rfl, List.drop_nil]
      cases k with
      | zero => rfl
      | succ k => rw [successes]; omega
    · rw [successes, successes, ih, List.drop_succ_cons]
      by_cases all : successes script j = j
      · rw [if_pos all, if_pos (by omega)]
        omega
      · rw [if_neg all, if_neg (by omega)]
    · rw [successes, successes, if_neg (Nat.succ_ne_zero j).symm]

/-- The writes were tried in order, up to the first that failed. -/
structure Tried (d : BlockDevice size) (ws : List (Nat × Block size)) (r : Except (Fault ExFatError) Unit)
    (d' : BlockDevice size) : Prop where
  writes : d'.writes = d.writes ++ ws.take (successes d.script ws.length)
  ended : (successes d.script ws.length = ws.length ∧ r = .ok () ∧ d'.script = d.script.drop ws.length) ∨
    successes d.script ws.length ≠ ws.length ∧ ∃ e, r = .error e

theorem Tried.none (d : BlockDevice size) : Tried d [] (.ok ()) d := by
  have zero : successes d.script 0 = 0 := by cases d.script <;> rfl
  refine ⟨?_, Or.inl ⟨zero, rfl, rfl⟩⟩
  rw [List.take_nil, List.append_nil]

theorem Tried.then {r : Except (Fault ExFatError) Unit} (first : Tried d ws (.ok ()) d')
    (second : Tried d' ws' r d'') :
    Tried d (ws ++ ws') r d'' := by
  rcases first.ended with ⟨all, _, script⟩ | ⟨_, e, failed⟩
  · have count : successes d.script (ws ++ ws').length = ws.length + successes d'.script ws'.length := by
      rw [List.length_append, successes_add, if_pos all, script]
    have written := first.writes
    rw [all, List.take_length] at written
    refine ⟨?_, ?_⟩
    · rw [count, List.take_length_add_append, second.writes, written, List.append_assoc]
    · rw [count, List.length_append]
      rcases second.ended with ⟨all', ok, script'⟩ | ⟨some_, failed⟩
      · exact Or.inl ⟨by omega, ok, by rw [script', script, List.drop_drop]⟩
      · exact Or.inr ⟨by omega, failed⟩
  · cases failed

theorem Tried.failed {e : Fault ExFatError} (first : Tried d ws (.error e) d') :
    Tried d (ws ++ ws') (.error e) d' := by
  rcases first.ended with ⟨_, ok, _⟩ | ⟨some_, _⟩
  · cases ok
  · have few := successes_le d.script ws.length
    have count : successes d.script (ws ++ ws').length = successes d.script ws.length := by
      rw [List.length_append, successes_add, if_neg some_]
    refine ⟨?_, Or.inr ⟨?_, e, rfl⟩⟩
    · rw [count, List.take_append_of_le_length few]
      exact first.writes
    · rw [count, List.length_append]
      omega

theorem tried_write (d : BlockDevice size) (s : Nat) (b : Block size) :
    Tried d [(s, b)] (if d.succeeds then .ok () else .error (.error .io)) (d.afterWrite s b) := by
  obtain ⟨blocks, script, writes⟩ := d
  rcases script with _ | ⟨_ | garbage, script⟩
  · exact ⟨rfl, Or.inl ⟨rfl, rfl, rfl⟩⟩
  · have one : successes (none :: script) 1 = 1 := by cases script <;> rfl
    refine ⟨?_, Or.inl ⟨one, rfl, rfl⟩⟩
    rw [List.length_singleton, one]
    rfl
  · exact ⟨(List.append_nil writes).symm, Or.inr ⟨Nat.zero_ne_one, _, rfl⟩⟩

end BlockDevice

namespace SlotCache

open BlockDevice

variable {size n : Nat}

/-- What a flush of a slot writes. -/
def slotWrites (c : SlotCache size n) (i : Fin n) : List (Nat × Block size) :=
  if (c.cache i).isDirty then [((c.cache i).sectorId, (c.cache i).block)] else []

/-- What a flush of the cache writes: the dirty slots in order. -/
def dirtySlots (c : SlotCache size n) : List (Nat × Block size) := (List.finRange n).flatMap c.slotWrites

theorem slotFlush_tried (i : Fin n) (c : SlotCache size n) (d : BlockDevice size) :
    ∃ r c' d', slotFlush i (c, d) = (r, c', d') ∧
    Tried d (c.slotWrites i) r d' ∧ ∀ j, j ≠ i → c'.cache j = c.cache j := by
  rw [slotFlush_apply, slotWrites]
  cases dirty : (c.cache i).isDirty with
  | false => exact ⟨_, c, d, rfl, .none d, fun _ _ => rfl⟩
  | true =>
    have tried := tried_write d (c.cache i).sectorId (c.cache i).block
    rw [if_pos rfl, if_pos rfl, writeBack_apply]
    cases works : d.succeeds with
    | false =>
      rw [works] at tried
      rw [afterWrite_of_fails works] at tried
      exact ⟨_, c, _, rfl, tried, fun _ _ => rfl⟩
    | true =>
      rw [works] at tried
      exact ⟨_, _, _, rfl, tried, fun j other => Function.update_of_ne other _ _⟩

theorem flushSlots_tried (is : List (Fin n)) : ∀ (c : SlotCache size n) (d : BlockDevice size), is.Nodup →
    ∃ r c' d', flushSlots is (c, d) = (r, c', d') ∧ Tried d (is.flatMap c.slotWrites) r d' := by
  induction is with
  | nil => exact fun c d _ => ⟨_, c, d, rfl, .none d⟩
  | cons i is ih =>
    intro c d distinct
    obtain ⟨apart, distinct⟩ := List.nodup_cons.mp distinct
    obtain ⟨r, c₁, d₁, run, tried, others⟩ := slotFlush_tried i c d
    rw [List.flatMap_cons]
    cases r with
    | error e => exact ⟨_, c₁, d₁, Exec.bind_of_error run, tried.failed⟩
    | ok _ =>
      obtain ⟨r, c₂, d₂, run', tried'⟩ := ih c₁ d₁ distinct
      have same : is.flatMap c₁.slotWrites = is.flatMap c.slotWrites := by
        refine List.flatMap_congr fun j member => ?_
        rw [slotWrites, slotWrites, others j fun here => apart (here ▸ member)]
      rw [same] at tried'
      exact ⟨r, c₂, d₂, (Exec.bind_of_ok run).trans run', tried.then tried'⟩

theorem flush_tried (c : SlotCache size n) (d : BlockDevice size) :
    ∃ r c' d', flush (c, d) = (r, c', d') ∧ Tried d c.dirtySlots r d' :=
  flushSlots_tried _ c d (List.nodup_finRange n)

/-- A flush of a sector writes nothing else. -/
theorem flushSectorIn_tried (s : Nat) (is : List (Fin n)) (c : SlotCache size n) (d : BlockDevice size) :
    ∃ ws r c' d', flushSectorIn s is (c, d) = (r, c', d') ∧ Tried d ws r d' ∧ (ws.map Prod.fst).Sublist [s] := by
  induction is with
  | nil => exact ⟨[], _, c, d, rfl, .none d, List.nil_sublist _⟩
  | cons i is ih =>
    rw [flushSectorIn, Exec.bind_of_ok (Exec.get_apply (c, d))]
    dsimp only
    by_cases here : (c.cache i).sectorId = s
    · rw [if_pos here]
      obtain ⟨r, c', d', run, tried, _⟩ := slotFlush_tried i c d
      refine ⟨_, r, c', d', run, tried, ?_⟩
      rw [slotWrites, here]
      cases (c.cache i).isDirty with
      | false => exact List.nil_sublist _
      | true => exact List.Sublist.refl _
    · rw [if_neg here]
      exact ih

end SlotCache

namespace FileDirty

/-- The touched set after some insertions. -/
def ofInserts (items : List TouchedSector) : FileDirty := items.foldl insert .new

/-- The kind that a sector is recorded with: the one that it was first inserted with. -/
def kindIn (items : List TouchedSector) (s : Nat) : Option TouchedKind :=
  (items.find? fun item => item.sector = s).map TouchedSector.kind

theorem find?_append_single (items : List TouchedSector) (item : TouchedSector) (s : Nat) :
    (items ++ [item]).find? (fun item => item.sector = s) =
      (items.find? fun item => item.sector = s).or (if item.sector = s then some item else none) := by
  rw [List.find?_append, List.find?_singleton]
  simp only [decide_eq_true_eq]

/-- What is not in a set that has room was never inserted. -/
theorem ofInserts_room (items : List TouchedSector) :
    (ofInserts items).sectors.length < defaultTouchedSectors → ∀ item ∈ items, ∃ old ∈ (ofInserts items).sectors,
      old.sector = item.sector := by
  induction items using List.reverseRecOn with
  | nil => exact fun _ item member => absurd member List.not_mem_nil
  | append_singleton items item ih =>
    rw [ofInserts, List.foldl_append, List.foldl_cons, List.foldl_nil]
    change ((ofInserts items).insert item).sectors.length < _ → ∀ i ∈ _,
      ∃ old ∈ ((ofInserts items).insert item).sectors, _
    unfold insert
    split
    · rename_i known
      intro room other member
      rcases List.mem_append.mp member with older | here
      · exact ih room other older
      · obtain ⟨old, there, same⟩ := List.any_eq_true.mp known
        rw [List.mem_singleton.mp here]
        exact ⟨old, there, of_decide_eq_true same⟩
    · split
      · rename_i room
        intro _ other member
        rcases List.mem_append.mp member with older | here
        · obtain ⟨old, there, same⟩ := ih room other older
          exact ⟨old, List.mem_append_left _ there, same⟩
        · rw [List.mem_singleton.mp here]
          exact ⟨item, List.mem_append_right _ (List.mem_singleton_self item), rfl⟩
      · rename_i full
        exact fun room => absurd room full

/-- Each sector of the set has the kind there that it is recorded with. -/
theorem kindIn_sectors (items : List TouchedSector) :
    ∀ item ∈ (ofInserts items).sectors, kindIn items item.sector = some item.kind := by
  induction items using List.reverseRecOn with
  | nil => exact fun item member => absurd member List.not_mem_nil
  | append_singleton items item kinds =>
    have older : ∀ old ∈ (ofInserts items).sectors, kindIn (items ++ [item]) old.sector = some old.kind := by
      intro old member
      obtain ⟨found, here, same⟩ := Option.map_eq_some_iff.mp (kinds old member)
      rw [kindIn, find?_append_single, here, Option.some_or, Option.map_some, same]
    rw [ofInserts, List.foldl_append, List.foldl_cons, List.foldl_nil]
    change ∀ other ∈ ((ofInserts items).insert item).sectors, _
    unfold insert
    split
    · exact older
    · rename_i unknown
      split
      · rename_i room
        intro other member
        rcases List.mem_append.mp member with there | here
        · exact older other there
        · have fresh : items.find? (fun old => old.sector = item.sector) = none := by
            refine List.find?_eq_none.mpr fun old before same => ?_
            obtain ⟨recorded, there, eq⟩ := ofInserts_room items room old before
            exact unknown (List.any_eq_true.mpr ⟨recorded, there, decide_eq_true (eq.trans (of_decide_eq_true same))⟩)
          rw [List.mem_singleton.mp here, kindIn, find?_append_single, fresh, Option.none_or, if_pos rfl]
          rfl
      · exact older

end FileDirty

instance : Std.Total TouchedSector.before where
  total a b := by
    unfold TouchedSector.before
    omega

instance : IsTrans TouchedSector TouchedSector.before where
  trans a b c first second := by
    unfold TouchedSector.before at *
    omega

/-- A directory sector and a sector that has to be on the device before it. -/
def OutOfOrder (kind : Nat → Option TouchedKind) (a b : Nat) : Prop :=
  kind a = some .dir ∧ (kind b = some .data ∨ kind b = some .bitmap ∨ kind b = some .fat)

instance (kind : Nat → Option TouchedKind) (a b : Nat) : Decidable (OutOfOrder kind a b) :=
  inferInstanceAs (Decidable (_ ∧ _))

theorem TouchedSector.before.inOrder {kind : Nat → Option TouchedKind} {a b : TouchedSector} (first : a.before b)
    (kindA : kind a.sector = some a.kind) (kindB : kind b.sector = some b.kind) :
    ¬ OutOfOrder kind a.sector b.sector := by
  rintro ⟨dir, others⟩
  rw [kindA] at dir
  rw [kindB] at others
  have top : a.kind.rank = 3 := by
    rw [Option.some.inj dir]
    rfl
  have low : b.kind.rank < 3 := by
    rcases others with other | other | other <;> rw [Option.some.inj other] <;> decide
  unfold TouchedSector.before at first
  omega

/-- The dirty slots in the order in which a flush of all the caches comes to them. -/
def FileSystem.dirtySlots {size n : Nat} (fs : FileSystem size n) : List (Nat × Block size) :=
  fs.fat.cache.dirtySlots ++ (fs.allocator.cache.dirtySlots ++ fs.dataBlocks.dirtySlots)

namespace Session

open Exec BlockDevice

variable {size n : Nat} {s : Session size n}

theorem onCache_tried {k : CacheKind} {m : ExFat (CacheIo size n) Unit} {ws : List (Nat × Block size)}
    {r : Except (Fault ExFatError) Unit} {c : SlotCache size n} {d : BlockDevice size}
    (run : m (s.fs.cacheOf k, s.fs.dev) = (r, c, d)) (tried : Tried s.fs.dev ws r d) :
    ∃ fs', onCache k m s = (r, { s with fs := fs' }) ∧
      Tried s.fs.dev ws r fs'.dev ∧ ∀ j, j ≠ k → fs'.cacheOf j = s.fs.cacheOf j := by
  have ran : FileSystem.onCache k m s.fs = (r, s.fs.putCache k c d) := by rw [FileSystem.onCache, zoom_apply, run]
  refine ⟨s.fs.putCache k c d, onCache_of_run ran, ?_, fun j other => FileSystem.cacheOf_putCache_ne other c d⟩
  rw [FileSystem.putCache_dev]
  exact tried

theorem flushTouched_tried (item : TouchedSector) (s : Session size n) :
    ∃ ws r fs', flushTouched item s = (r, { s with fs := fs' }) ∧
    Tried s.fs.dev ws r fs'.dev ∧ (ws.map Prod.fst).Sublist [item.sector] := by
  have flushed : ∀ k, ∃ ws r fs', onCache k (SlotCache.flushSector item.sector) s = (r, { s with fs := fs' }) ∧
      Tried s.fs.dev ws r fs'.dev ∧ (ws.map Prod.fst).Sublist [item.sector] := by
    intro k
    obtain ⟨ws, r, c, d, run, tried, only⟩ :=
      SlotCache.flushSectorIn_tried item.sector (List.finRange n) (s.fs.cacheOf k) s.fs.dev
    obtain ⟨fs', run', tried', _⟩ := onCache_tried run tried
    exact ⟨ws, r, fs', run', tried', only⟩
  unfold flushTouched
  cases item.kind with
  | bitmap => exact flushed .bitmap
  | fat => exact flushed .fat
  | data => exact flushed .data
  | dir => exact flushed .data
  | none => exact ⟨[], _, s.fs, rfl, .none _, List.nil_sublist _⟩

/-- The touched sectors are written in their order, those that are written. -/
theorem flushAllTouched_tried (items : List TouchedSector) : ∀ s : Session size n, ∃ ws r fs',
    flushAllTouched items s = (r, { s with fs := fs' }) ∧ Tried s.fs.dev ws r fs'.dev ∧
      (ws.map Prod.fst).Sublist (items.map TouchedSector.sector) := by
  induction items with
  | nil => exact fun s => ⟨[], _, s.fs, rfl, .none _, List.nil_sublist _⟩
  | cons item rest ih =>
    intro s
    obtain ⟨ws, r, fs₁, run, tried, only⟩ := flushTouched_tried item s
    have head : (ws.map Prod.fst).Sublist ((item :: rest).map TouchedSector.sector) :=
      only.trans (List.singleton_sublist.mpr List.mem_cons_self)
    cases r with
    | error e => exact ⟨ws, _, fs₁, bind_of_error run, tried, head⟩
    | ok _ =>
      obtain ⟨ws', r, fs₂, run', tried', only'⟩ := ih { s with fs := fs₁ }
      refine ⟨ws ++ ws', r, fs₂, (bind_of_ok run).trans run', tried.then tried', ?_⟩
      rw [List.map_append]
      exact only.append only'

theorem onCache_flush_tried (k : CacheKind) (s : Session size n) :
    ∃ r fs', onCache k SlotCache.flush s = (r, { s with fs := fs' }) ∧
    Tried s.fs.dev (s.fs.cacheOf k).dirtySlots r fs'.dev ∧ ∀ j, j ≠ k → fs'.cacheOf j = s.fs.cacheOf j := by
  obtain ⟨r, c, d, run, tried⟩ := SlotCache.flush_tried (s.fs.cacheOf k) s.fs.dev
  obtain ⟨fs', run', tried', others⟩ := onCache_tried run tried
  exact ⟨r, fs', run', tried', others⟩

/-- After an overflow the caches are flushed slot by slot. -/
theorem flush_overflowed (overflowed : s.touched.overflowed = true) :
    (flush s).2.fs.dev.writes =
      s.fs.dev.writes ++ s.fs.dirtySlots.take (successes s.fs.dev.script s.fs.dirtySlots.length) := by
  rw [flush, bind_of_ok (get_apply s), if_pos overflowed]
  obtain ⟨r₁, fs₁, run₁, tried₁, kept₁⟩ := onCache_flush_tried .fat s
  cases r₁ with
  | error e =>
    rw [bind_of_error run₁]
    exact tried₁.failed.writes
  | ok _ =>
    obtain ⟨r₂, fs₂, run₂, tried₂, kept₂⟩ := onCache_flush_tried .bitmap { s with fs := fs₁ }
    rw [kept₁ .bitmap (by decide)] at tried₂
    rw [bind_of_ok run₁]
    cases r₂ with
    | error e =>
      rw [bind_of_error run₂]
      exact (tried₁.then tried₂.failed).writes
    | ok _ =>
      obtain ⟨r₃, fs₃, run₃, tried₃, _⟩ := onCache_flush_tried .data { s with fs := fs₂ }
      rw [kept₂ .data (by decide), kept₁ .data (by decide)] at tried₃
      have tried := tried₁.then (tried₂.then tried₃)
      rw [bind_of_ok run₂]
      cases r₃ with
      | error e =>
        rw [bind_of_error run₃]
        exact tried.writes
      | ok _ =>
        rw [bind_of_ok run₃]
        exact tried.writes

/-- Without an overflow nothing is written out of order. -/
theorem flush_sorted {items : List TouchedSector} (fs : FileSystem size n)
    (held : (FileDirty.ofInserts items).overflowed = false) :
    ∃ ws, (flush ⟨fs, .ofInserts items⟩).2.fs.dev.writes = fs.dev.writes ++ ws ∧
      (ws.map Prod.fst).Pairwise fun a b => ¬ OutOfOrder (FileDirty.kindIn items) a b := by
  obtain ⟨ws, r, fs', run, tried, only⟩ :=
    flushAllTouched_tried (FileDirty.ofInserts items).sort.sectors ⟨fs, (FileDirty.ofInserts items).sort⟩
  have sorted : ((FileDirty.ofInserts items).sort.sectors.map TouchedSector.sector).Pairwise
      fun a b => ¬ OutOfOrder (FileDirty.kindIn items) a b := by
    refine List.pairwise_map.mpr (List.Pairwise.imp_of_mem ?_ (List.pairwise_insertionSort _ _))
    intro a b left right first
    have kinds := FileDirty.kindIn_sectors items
    exact first.inOrder (kinds a ((List.mem_insertionSort _).mp left)) (kinds b ((List.mem_insertionSort _).mp right))
  refine ⟨ws.take (successes fs.dev.script ws.length), ?_, ?_⟩
  · rw [flush, bind_of_ok (get_apply _), if_neg (by rw [held]; exact Bool.false_ne_true),
      bind_of_ok (modify_apply _ _),
      bind_of_ok (get_apply _)]
    cases r with
    | error e =>
      rw [bind_of_error run]
      exact tried.writes
    | ok _ =>
      rw [bind_of_ok run]
      exact tried.writes
  · exact sorted.sublist (((List.take_sublist _ ws).map _).trans only)

end Session

/-- What a flush writes is in order exactly when the set has not overflowed, or
the device lets no dirty slot be written that has to be on the device before an earlier one. -/
theorem flush_ordered_iff {size n : Nat} (fs : FileSystem size n) (items : List TouchedSector) :
    ∃ ws, (Session.flush ⟨fs, .ofInserts items⟩).2.fs.dev.writes = fs.dev.writes ++ ws ∧
      ((ws.map Prod.fst).Pairwise (fun a b => ¬ OutOfOrder (FileDirty.kindIn items) a b) ↔
        ((FileDirty.ofInserts items).overflowed = false ∨ ∀ i j a b, i < j → fs.dirtySlots[i]? = some a →
          fs.dirtySlots[j]? = some b → OutOfOrder (FileDirty.kindIn items) a.1 b.1 →
            BlockDevice.successes fs.dev.script fs.dirtySlots.length ≤ j)) := by
  cases held : (FileDirty.ofInserts items).overflowed with
  | false =>
    obtain ⟨ws, wrote, ordered⟩ := Session.flush_sorted fs held
    exact ⟨ws, wrote, fun _ => Or.inl rfl, fun _ => ordered⟩
  | true =>
    refine ⟨fs.dirtySlots.take (BlockDevice.successes fs.dev.script fs.dirtySlots.length),
      Session.flush_overflowed (s := ⟨fs, .ofInserts items⟩) held, ?_⟩
    rw [List.pairwise_map, List.pairwise_iff_getElem]
    constructor
    · intro ordered
      refine Or.inr fun i j a b first here there out => ?_
      by_contra written
      obtain ⟨low, rfl⟩ := List.getElem?_eq_some_iff.mp here
      obtain ⟨high, rfl⟩ := List.getElem?_eq_some_iff.mp there
      have reach : ∀ k, k ≤ j → k < (fs.dirtySlots.take
          (BlockDevice.successes fs.dev.script fs.dirtySlots.length)).length := by
        intro k below
        rw [List.length_take]
        omega
      have apart := ordered i j (reach i first.le) (reach j le_rfl) first
      rw [List.getElem_take, List.getElem_take] at apart
      exact apart out
    · intro condition i j low high first out
      have apart := condition.resolve_left Bool.noConfusion
      rw [List.getElem_take, List.getElem_take] at out
      rw [List.length_take] at low high
      have late := apart i j _ _ first (List.getElem?_eq_getElem (by omega)) (List.getElem?_eq_getElem (by omega)) out
      omega

/-- A directory sector, a data sector and more sectors than the set can hold. -/
def manyTouched : List TouchedSector :=
  [⟨.dir, 10⟩, ⟨.data, 11⟩, ⟨.data, 12⟩, ⟨.data, 13⟩, ⟨.data, 14⟩, ⟨.data, 15⟩, ⟨.data, 16⟩]

/-- The directory sector is in the first slot of the data cache, the data sector in the second. -/
def touchedVolume : FileSystem 1 2 :=
  { FileSystem.new { blocks := fun _ _ => 0, script := [], writes := [] } 64 with
    dataBlocks :=
      { cache := fun i =>
          { sectorId := 10 + i, isDirty := true, isUsed := true, isValid := true, block := fun _ => 0 }
        hand := 0
        trace := [] } }

/-- The directory sector is written before the data sector. -/
theorem flush_overtakes :
    ∃ ws, (Session.flush ⟨touchedVolume, .ofInserts manyTouched⟩).2.fs.dev.writes = touchedVolume.dev.writes ++ ws ∧
    ¬ (ws.map Prod.fst).Pairwise fun a b => ¬ OutOfOrder (FileDirty.kindIn manyTouched) a b :=
  ⟨_, Session.flush_overflowed (s := ⟨touchedVolume, .ofInserts manyTouched⟩) (by decide), by decide⟩

end ExFatSlim
