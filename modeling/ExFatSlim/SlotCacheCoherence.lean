import ExFatSlim.SlotCache
import Mathlib.Data.Finset.Card
import Mathlib.Data.Fintype.Card
import Mathlib.Data.Fin.Basic
import Mathlib.Data.Set.Basic

namespace ExFatSlim

theorem nextHand_val {n : Nat} (i : Fin n) : (nextHand i).val = (i.val + 1) % n := by
  have bound := i.isLt
  unfold nextHand
  split
  · rename_i inside
    simp [Nat.mod_eq_of_lt inside]
  · have atEnd : i.val + 1 = n := by omega
    simp [atEnd]

theorem nextHand_iterate_val {n : Nat} (i : Fin n) (k : Nat) :
    (nextHand^[k] i).val = (i.val + k) % n := by
  induction k with
  | zero => simp [Nat.mod_eq_of_lt i.isLt]
  | succ k ih => rw [Function.iterate_succ_apply', nextHand_val, ih, Nat.mod_add_mod, Nat.add_assoc]

theorem nextHand_iterate_full {n : Nat} (i : Fin n) : nextHand^[n] i = i := by
  ext
  rw [nextHand_iterate_val, Nat.add_mod_right, Nat.mod_eq_of_lt i.isLt]

/-- A full turn of the hand passes every slot. -/
theorem nextHand_reaches {n : Nat} (start i : Fin n) : ∃ k < n, nextHand^[k] start = i := by
  have bound := i.isLt
  have startBound := start.isLt
  by_cases after : start.val ≤ i.val
  · refine ⟨i.val - start.val, by omega, Fin.ext ?_⟩
    rw [nextHand_iterate_val, show start.val + (i.val - start.val) = i.val by omega,
      Nat.mod_eq_of_lt bound]
  · refine ⟨n - start.val + i.val, by omega, Fin.ext ?_⟩
    rw [nextHand_iterate_val, show start.val + (n - start.val + i.val) = i.val + n by omega,
      Nat.add_mod_right, Nat.mod_eq_of_lt bound]

namespace BlockDevice

variable {size : Nat} {d : BlockDevice size}

@[simp] theorem afterRead_blocks : d.afterRead.blocks = d.blocks := rfl

@[simp] theorem afterRead_writes : d.afterRead.writes = d.writes := rfl

theorem afterWrite_of_succeeds (works : d.succeeds = true) (s : Nat) (b : Block size) :
    d.afterWrite s b = { blocks := Function.update d.blocks s b
                         script := d.script.tail
                         writes := d.writes ++ [(s, b)] } := by
  simp [afterWrite, works]

theorem afterWrite_of_fails (fails : d.succeeds = false) (s : Nat) (b : Block size) :
    d.afterWrite s b = d.afterRead := by
  simp [afterWrite, afterRead, fails]

theorem fetched_of_succeeds (works : d.succeeds = true) (s : Nat) : d.fetched s = d.blocks s := by
  unfold succeeds at works
  unfold fetched
  split at works <;> simp_all

theorem Reliable.succeeds (reliable : d.Reliable) : d.succeeds = true := by
  unfold Reliable at reliable
  simp [BlockDevice.succeeds, reliable]

theorem Reliable.afterRead (reliable : d.Reliable) : d.afterRead = d := by
  unfold Reliable at reliable
  cases d
  simp_all [BlockDevice.afterRead]

theorem Reliable.afterWrite (reliable : d.Reliable) (s : Nat) (b : Block size) :
    (d.afterWrite s b).Reliable := by
  have none := reliable
  unfold Reliable at none ⊢
  simp [afterWrite_of_succeeds reliable.succeeds, none]

end BlockDevice

namespace SlotCache

variable {size n : Nat} {c c' : SlotCache size n} {d d' : BlockDevice size} {own : Set Nat}

@[simp] theorem put_hand (i : Fin n) (slot : Slot size) : (c.put i slot).hand = c.hand := rfl

@[simp] theorem put_trace (i : Fin n) (slot : Slot size) : (c.put i slot).trace = c.trace := rfl

@[simp] theorem put_cache_self (i : Fin n) (slot : Slot size) : (c.put i slot).cache i = slot := by
  simp [put]

theorem put_cache_ne {i j : Fin n} (other : j ≠ i) (slot : Slot size) :
    (c.put i slot).cache j = c.cache j := by
  simp [put, other]

@[simp] theorem log_cache (a : Access) : (c.log a).cache = c.cache := rfl

@[simp] theorem log_hand (a : Access) : (c.log a).hand = c.hand := rfl

/-- Slot `i` is valid and caches sector `s`. -/
def Holds (c : SlotCache size n) (i : Fin n) (s : Nat) : Prop :=
  (c.cache i).isValid = true ∧ (c.cache i).sectorId = s

instance (c : SlotCache size n) (i : Fin n) (s : Nat) : Decidable (c.Holds i s) :=
  inferInstanceAs (Decidable (_ ∧ _))

/-- The slot a sector is cached in. -/
def lookup (c : SlotCache size n) (s : Nat) : Option (Fin n) :=
  (List.finRange n).find? fun i => decide (c.Holds i s)

/-- The content of a sector as seen through the cache. -/
def view (c : SlotCache size n) (d : BlockDevice size) (s : Nat) : Block size :=
  match c.lookup s with
  | some i => (c.cache i).block
  | none => d.blocks s

/-- No sector is cached twice. -/
def Distinct (c : SlotCache size n) : Prop :=
  ∀ i j s, c.Holds i s → c.Holds j s → i = j

/-- Every valid slot that is not dirty agrees with the device. -/
def Synced (c : SlotCache size n) (d : BlockDevice size) : Prop :=
  ∀ i, (c.cache i).isValid = true → (c.cache i).isDirty = false →
    (c.cache i).block = d.blocks (c.cache i).sectorId

/-- What ties a cache to its device on the sectors `own` that it is in charge
of. Other sectors may be in the cache too, as copies that are never changed
and may be out of date. -/
structure Coherent (c : SlotCache size n) (own : Set Nat) (d : BlockDevice size) : Prop where
  distinct : c.Distinct
  synced : ∀ i, (c.cache i).isValid = true → (c.cache i).isDirty = false →
    (c.cache i).sectorId ∈ own → (c.cache i).block = d.blocks (c.cache i).sectorId
  owned : ∀ i, (c.cache i).isDirty = true → (c.cache i).isValid = true ∧ (c.cache i).sectorId ∈ own

theorem Coherent.idle (coherent : c.Coherent own d) {i : Fin n}
    (free : (c.cache i).isValid = false) : (c.cache i).isDirty = false := by
  cases dirty : (c.cache i).isDirty with
  | false => rfl
  | true => exact absurd (coherent.owned i dirty).1 (by simp [free])

theorem lookup_of_holds (distinct : c.Distinct) {i : Fin n} {s : Nat} (holds : c.Holds i s) :
    c.lookup s = some i := by
  unfold lookup
  cases found : (List.finRange n).find? fun j => decide (c.Holds j s) with
  | none =>
    rw [List.find?_eq_none] at found
    exact absurd (by simpa using holds) (found i (List.mem_finRange i))
  | some j =>
    have atJ := List.find?_some found
    rw [distinct j i s (by simpa using atJ) holds]

theorem lookup_of_missing {s : Nat} (missing : ∀ i, ¬ c.Holds i s) : c.lookup s = none := by
  unfold lookup
  rw [List.find?_eq_none]
  intro i _
  simpa using missing i

theorem view_of_holds (distinct : c.Distinct) {i : Fin n} {s : Nat} (holds : c.Holds i s) :
    c.view d s = (c.cache i).block := by
  rw [view, lookup_of_holds distinct holds]

theorem view_of_missing {s : Nat} (missing : ∀ i, ¬ c.Holds i s) : c.view d s = d.blocks s := by
  rw [view, lookup_of_missing missing]

/-- Two caches whose slots hold the same sectors with the same bytes and the
same duty to write them back; the used flags and the hand may differ. -/
def SameSlots (c c' : SlotCache size n) : Prop :=
  ∀ i, (c'.cache i).sectorId = (c.cache i).sectorId ∧ (c'.cache i).isDirty = (c.cache i).isDirty ∧
    (c'.cache i).isValid = (c.cache i).isValid ∧ (c'.cache i).block = (c.cache i).block

theorem SameSlots.refl (c : SlotCache size n) : SameSlots c c := fun _ => ⟨rfl, rfl, rfl, rfl⟩

theorem SameSlots.trans {a b e : SlotCache size n} (first : SameSlots a b) (second : SameSlots b e) :
    SameSlots a e := by
  intro i
  obtain ⟨id, dirty, valid, block⟩ := first i
  obtain ⟨id', dirty', valid', block'⟩ := second i
  exact ⟨id'.trans id, dirty'.trans dirty, valid'.trans valid, block'.trans block⟩

theorem SameSlots.holds (same : SameSlots c c') {i : Fin n} {s : Nat} :
    c'.Holds i s ↔ c.Holds i s := by
  rw [Holds, Holds, (same i).1, (same i).2.2.1]

theorem SameSlots.view (same : SameSlots c c') (s : Nat) : c'.view d s = c.view d s := by
  have search : c'.lookup s = c.lookup s := by
    unfold lookup
    congr 1
    funext i
    exact decide_eq_decide.mpr same.holds
  rw [SlotCache.view, SlotCache.view, search]
  cases c.lookup s with
  | none => rfl
  | some i => exact (same i).2.2.2

theorem SameSlots.coherent (same : SameSlots c c') (coherent : c.Coherent own d) : c'.Coherent own d where
  distinct i j s atI atJ := coherent.distinct i j s (same.holds.mp atI) (same.holds.mp atJ)
  synced i valid clean mine := by
    obtain ⟨id, dirty, valid', block⟩ := same i
    rw [id] at mine
    rw [id, block]
    exact coherent.synced i (valid'.symm.trans valid) (dirty.symm.trans clean) mine
  owned i dirtyNow := by
    obtain ⟨id, dirty, valid, _⟩ := same i
    rw [id, valid]
    exact coherent.owned i (dirty.symm.trans dirtyNow)

theorem sameSlots_put {i : Fin n} {slot : Slot size} (id : slot.sectorId = (c.cache i).sectorId)
    (dirty : slot.isDirty = (c.cache i).isDirty) (valid : slot.isValid = (c.cache i).isValid)
    (block : slot.block = (c.cache i).block) : SameSlots c (c.put i slot) := by
  intro j
  by_cases same : j = i
  · subst same
    simp [id, dirty, valid, block]
  · simp [put_cache_ne same]

/-- The cache after a hit in slot `i`: the hand stays there. -/
def hitAt (c : SlotCache size n) (i : Fin n) : SlotCache size n :=
  { c with hand := i }.put i { c.cache i with isUsed := true }

theorem hitAt_sameSlots (c : SlotCache size n) (i : Fin n) : SameSlots c (c.hitAt i) :=
  (SameSlots.refl c).trans (sameSlots_put rfl rfl rfl rfl)

theorem cacheHitFrom_spec (s : Nat) (rounds : Nat) : ∀ c : SlotCache size n,
    (∃ i, cacheHitFrom s rounds c = (some i, c.hitAt i) ∧ c.Holds i s) ∨
    (cacheHitFrom s rounds c = (none, { c with hand := nextHand^[rounds] c.hand }) ∧
      ∀ k < rounds, ¬ c.Holds (nextHand^[k] c.hand) s) := by
  induction rounds with
  | zero => intro c; exact Or.inr ⟨rfl, by omega⟩
  | succ rounds ih =>
    intro c
    by_cases hit : (c.cache c.hand).sectorId = s ∧ (c.cache c.hand).isValid
    · exact Or.inl ⟨c.hand, by simp [cacheHitFrom, hit, hitAt], hit.2, hit.1⟩
    · have step : cacheHitFrom s (rounds + 1) c =
          cacheHitFrom s rounds { c with hand := nextHand c.hand } := by
        simp only [cacheHitFrom, if_neg hit]
      rw [step]
      rcases ih { c with hand := nextHand c.hand } with ⟨i, found, holds⟩ | ⟨missed, rest⟩
      · exact Or.inl ⟨i, found, holds⟩
      · refine Or.inr ⟨missed, ?_⟩
        intro k bound
        cases k with
        | zero => exact fun holds => hit ⟨holds.2, holds.1⟩
        | succ k => exact rest k (by omega)

/-- `cache_hit` finds the sector if some slot holds it, and otherwise
leaves the cache as it was, the hand having made a full turn. -/
theorem cacheHit_spec (c : SlotCache size n) (s : Nat) :
    (∃ i, c.cacheHit s = (some i, c.hitAt i) ∧ c.Holds i s) ∨
    (c.cacheHit s = (none, c) ∧ ∀ i, ¬ c.Holds i s) := by
  rcases cacheHitFrom_spec s n c with hit | ⟨missed, none⟩
  · exact Or.inl hit
  · refine Or.inr ⟨?_, ?_⟩
    · rw [cacheHit, missed, nextHand_iterate_full]
    · intro i
      obtain ⟨k, bound, same⟩ := nextHand_reaches c.hand i
      exact same ▸ none k bound

/-- How many slots have had recent use. -/
def usedCount (c : SlotCache size n) : Nat :=
  (Finset.univ.filter fun i => (c.cache i).isUsed = true).card

theorem usedCount_le (c : SlotCache size n) : c.usedCount ≤ n := by
  calc c.usedCount ≤ (Finset.univ : Finset (Fin n)).card := Finset.card_filter_le _ _
    _ = n := by simp

theorem usedCount_clear {i : Fin n} (used : (c.cache i).isUsed = true) (slot : Slot size)
    (cleared : slot.isUsed = false) : (c.put i slot).usedCount < c.usedCount := by
  apply Finset.card_lt_card
  rw [Finset.ssubset_iff_of_subset]
  · exact ⟨i, by simp [used], by simp [cleared]⟩
  · intro j member
    by_cases same : j = i
    · subst same; simp [cleared] at member
    · simpa [put_cache_ne same] using member

/-- The valid slots are the first `k` ones and the hand is not beyond them. -/
def FilledTo (c : SlotCache size n) (k : Nat) : Prop :=
  (∀ i, (c.cache i).isValid = true ↔ i.val < k) ∧ c.hand.val ≤ k

/-- Everything `choose_victim` can do: it picks a free slot, a clean one, or a
dirty one after writing it to the device; or that write fails. -/
inductive VictimOutcome (c : SlotCache size n) (d : BlockDevice size) :
    Except (Fault ExFatError) (Fin n) × CacheIo size n → Prop
  | clean {c' : SlotCache size n} {i : Fin n} (same : SameSlots c c') (trace : c'.trace = c.trace)
      (hand : c'.hand = nextHand i) (near : ∀ k, c.FilledTo k → i.val ≤ k)
      (clean : (c.cache i).isValid = true → (c.cache i).isDirty = false) :
      VictimOutcome c d (.ok i, c', d)
  | written {c' : SlotCache size n} {i : Fin n} (same : SameSlots c c') (trace : c'.trace = c.trace)
      (hand : c'.hand = nextHand i) (near : ∀ k, c.FilledTo k → i.val ≤ k)
      (valid : (c.cache i).isValid = true) (dirty : (c.cache i).isDirty = true)
      (works : d.succeeds = true) :
      VictimOutcome c d (.ok i, c'.put i { c'.cache i with isDirty := false },
        d.afterWrite (c.cache i).sectorId (c.cache i).block)
  | failed {c' : SlotCache size n} (same : SameSlots c c') (trace : c'.trace = c.trace)
      (near : ∀ k, c.FilledTo k → c'.hand.val ≤ k) (fails : d.succeeds = false) :
      VictimOutcome c d (.error (.error .io), c', d.afterRead)

theorem ioWrite_apply (s : Nat) (b : Block size) (c : SlotCache size n) (d : BlockDevice size) :
    ioWrite s b (c, d) =
      (if d.succeeds then .ok () else .error (.error .io), c, d.afterWrite s b) := by
  cases works : d.succeeds <;> simp [ioWrite, Exec.bind_apply, works]

theorem writeBack_apply (i : Fin n) (c : SlotCache size n) (d : BlockDevice size) :
    writeBack i (c, d) =
      if d.succeeds then (.ok (), c.put i { c.cache i with isDirty := false },
        d.afterWrite (c.cache i).sectorId (c.cache i).block)
      else (.error (.error .io), c, d.afterRead) := by
  cases works : d.succeeds <;>
    simp [writeBack, Exec.bind_apply, ioWrite_apply, works, BlockDevice.afterWrite_of_fails]

theorem FilledTo.next {k : Nat} (filled : c.FilledTo k) (valid : (c.cache c.hand).isValid = true) :
    (nextHand c.hand).val ≤ k := by
  have inside := (filled.1 c.hand).mp valid
  have bound := c.hand.isLt
  rw [nextHand_val]
  exact (Nat.mod_le _ _).trans (by omega)

/-- A turn that goes on sees the same slots, so how it ends is also how the
turn ends that came before it. -/
theorem VictimOutcome.of_same {r : Except (Fault ExFatError) (Fin n) × CacheIo size n}
    (outcome : VictimOutcome c' d r) (same : SameSlots c c') (trace : c'.trace = c.trace)
    (filled : ∀ k, c.FilledTo k → c'.FilledTo k) : VictimOutcome c d r := by
  cases outcome with
  | @clean _ i same' trace' hand near clean =>
    refine .clean (same.trans same') (trace'.trans trace) hand (fun k old => near k (filled k old)) ?_
    rw [← (same i).2.1, ← (same i).2.2.1]
    exact clean
  | @written _ i same' trace' hand near valid dirty works =>
    obtain ⟨id, dirtySame, validSame, blockSame⟩ := same i
    rw [id, blockSame]
    exact .written (same.trans same') (trace'.trans trace) hand (fun k old => near k (filled k old))
      (validSame.symm.trans valid) (dirtySame.symm.trans dirty) works
  | failed same' trace' near fails =>
    exact .failed (same.trans same') (trace'.trans trace) (fun k old => near k (filled k old)) fails

/-- The cache after the loop of `choose_victim` has given the slot at the hand another chance. -/
def passOver (c : SlotCache size n) : SlotCache size n :=
  { c with hand := nextHand c.hand }.put c.hand { c.cache c.hand with isUsed := false }

theorem passOver_sameSlots (c : SlotCache size n) : SameSlots c c.passOver :=
  (SameSlots.refl c).trans (sameSlots_put rfl rfl rfl rfl)

theorem passOver_usedCount (used : (c.cache c.hand).isUsed = true) : c.passOver.usedCount < c.usedCount :=
  usedCount_clear (c := { c with hand := nextHand c.hand }) used _ rfl

theorem FilledTo.passOver {k : Nat} (filled : c.FilledTo k) (valid : (c.cache c.hand).isValid = true) :
    c.passOver.FilledTo k := by
  refine ⟨fun i => ?_, filled.next valid⟩
  rw [(c.passOver_sameSlots i).2.2.1]
  exact filled.1 i

/-- A round on a slot in use goes on with the next one. -/
theorem chooseVictimIn_passes (rounds : Nat) (valid : (c.cache c.hand).isValid = true)
    (used : (c.cache c.hand).isUsed = true) :
    chooseVictimIn (rounds + 1) (c, d) = chooseVictimIn rounds (c.passOver, d) := by
  simp [chooseVictimIn, Exec.bind_apply, valid, used, passOver]

/-- A round on any other slot is the last one. -/
theorem chooseVictimIn_stops (rounds : Nat)
    (idle : ¬ ((c.cache c.hand).isValid = true ∧ (c.cache c.hand).isUsed = true)) :
    (chooseVictimIn (rounds + 1) : ExFat (CacheIo size n) (Fin n)) (c, d) = chooseVictimIn 1 (c, d) := by
  by_cases valid : (c.cache c.hand).isValid = true
  · have unused : (c.cache c.hand).isUsed = false := by simpa [valid] using idle
    simp [chooseVictimIn, Exec.bind_apply, valid, unused]
  · simp [chooseVictimIn, Exec.bind_apply, valid]

/-- With more rounds than used slots the loop of `choose_victim` comes to an end. -/
theorem chooseVictimIn_spec (d : BlockDevice size) (rounds : Nat) : ∀ c : SlotCache size n,
    c.usedCount < rounds → VictimOutcome c d (chooseVictimIn rounds (c, d)) := by
  induction rounds with
  | zero => intro c bound; omega
  | succ rounds ih =>
    intro c bound
    have turned : SameSlots c { c with hand := nextHand c.hand } := SameSlots.refl c
    by_cases valid : (c.cache c.hand).isValid = true
    · by_cases used : (c.cache c.hand).isUsed = true
      · have fewer := passOver_usedCount used
        rw [chooseVictimIn_passes rounds valid used]
        exact (ih c.passOver (by omega)).of_same c.passOver_sameSlots rfl fun k old => old.passOver valid
      · by_cases dirty : (c.cache c.hand).isDirty = true
        · have step : chooseVictimIn (rounds + 1) (c, d) =
              (do writeBack c.hand; pure c.hand : ExFat (CacheIo size n) (Fin n))
                ({ c with hand := nextHand c.hand }, d) := by
            simp [chooseVictimIn, Exec.bind_apply, valid, used, dirty]
          rw [step, Exec.bind_apply, writeBack_apply]
          by_cases works : d.succeeds = true
          · simp only [works, if_true, Exec.pure_apply]
            exact .written turned rfl rfl (fun k old => old.2) valid dirty works
          · simp only [works]
            exact .failed turned rfl (fun k old => old.next valid) (by simpa using works)
        · have step : chooseVictimIn (rounds + 1) (c, d) =
              (.ok c.hand, { c with hand := nextHand c.hand }, d) := by
            simp [chooseVictimIn, Exec.bind_apply, valid, used, dirty]
          rw [step]
          exact .clean turned rfl rfl (fun k old => old.2) (fun _ => by simpa using dirty)
    · have step : chooseVictimIn (rounds + 1) (c, d) =
          (.ok c.hand, { c with hand := nextHand c.hand }, d) := by
        simp [chooseVictimIn, Exec.bind_apply, valid]
      rw [step]
      exact .clean turned rfl rfl (fun k old => old.2) (fun now => absurd now valid)

theorem chooseVictim_spec (c : SlotCache size n) (d : BlockDevice size) :
    VictimOutcome c d (chooseVictim (c, d)) :=
  chooseVictimIn_spec d (n + 1) c (Nat.lt_succ_of_le c.usedCount_le)

/-- One round more does not change how the loop of `choose_victim` ends. -/
theorem chooseVictimIn_settled (d : BlockDevice size) (rounds : Nat) : ∀ c : SlotCache size n,
    c.usedCount < rounds → chooseVictimIn (rounds + 1) (c, d) = chooseVictimIn rounds (c, d) := by
  induction rounds with
  | zero => intro c bound; omega
  | succ rounds ih =>
    intro c bound
    by_cases busy : (c.cache c.hand).isValid = true ∧ (c.cache c.hand).isUsed = true
    · have fewer := passOver_usedCount busy.2
      rw [chooseVictimIn_passes _ busy.1 busy.2, chooseVictimIn_passes _ busy.1 busy.2]
      exact ih c.passOver (by omega)
    · exact (chooseVictimIn_stops _ busy).trans (chooseVictimIn_stops _ busy).symm

theorem chooseVictimIn_more (d : BlockDevice size) {rounds : Nat} (c : SlotCache size n)
    (enough : c.usedCount < rounds) (more : Nat) :
    chooseVictimIn (rounds + more) (c, d) = chooseVictimIn rounds (c, d) := by
  induction more with
  | zero => rfl
  | succ more ih => rw [← Nat.add_assoc, chooseVictimIn_settled d _ c (by omega), ih]

/-- The bound on the rounds of `choose_victim` is never what ends it. -/
theorem chooseVictimIn_eq (d : BlockDevice size) {rounds : Nat} (c : SlotCache size n)
    (enough : c.usedCount < rounds) : chooseVictimIn rounds (c, d) = chooseVictim (c, d) := by
  have full : c.usedCount < n + 1 := Nat.lt_succ_of_le c.usedCount_le
  calc chooseVictimIn rounds (c, d)
      = chooseVictimIn (rounds + (n + 1)) (c, d) := (chooseVictimIn_more d c enough (n + 1)).symm
    _ = chooseVictimIn (n + 1 + rounds) (c, d) := by rw [Nat.add_comm]
    _ = chooseVictim (c, d) := chooseVictimIn_more d c full rounds

/-- The slot `i` that `choose_victim` leaves for reuse: nothing in it is
still to be written. -/
def Reusable (c c' : SlotCache size n) (d' : BlockDevice size) (i : Fin n) : Prop :=
  (c'.cache i).isValid = false ∨
    (c'.cache i).isValid = true ∧ (c'.cache i).isDirty = false ∧
      ((c.cache i).isDirty = true → d'.blocks (c.cache i).sectorId = (c.cache i).block)

theorem VictimOutcome.reusable {r : Except (Fault ExFatError) (Fin n)} (outcome : VictimOutcome c d (r, c', d'))
    (works : d.succeeds = true) :
    ∃ i, r = .ok i ∧ Reusable c c' d' i ∧ c'.hand = nextHand i ∧
      (∀ j, (c'.cache j).sectorId = (c.cache j).sectorId ∧ (c'.cache j).block = (c.cache j).block ∧
        (c'.cache j).isValid = (c.cache j).isValid ∧ (j ≠ i → (c'.cache j).isDirty = (c.cache j).isDirty)) ∧
      ∀ s, s ≠ (c.cache i).sectorId → d'.blocks s = d.blocks s := by
  cases outcome with
  | @clean _ i same trace hand near clean =>
    obtain ⟨_, dirtySame, validSame, _⟩ := same i
    refine ⟨i, rfl, ?_, hand, fun j => ?_, fun s _ => rfl⟩
    swap
    · obtain ⟨id, dirty, valid, block⟩ := same j
      exact ⟨id, block, valid, fun _ => dirty⟩
    cases valid : (c.cache i).isValid with
    | false => exact Or.inl (validSame.trans valid)
    | true =>
      have undirty := clean valid
      exact Or.inr ⟨validSame.trans valid, dirtySame.trans undirty, fun now => by simp [undirty] at now⟩
  | @written kept i same trace hand near valid dirty works =>
    refine ⟨i, rfl, Or.inr ⟨?_, ?_, ?_⟩, hand, ?_, ?_⟩
    · simpa using (same i).2.2.1.trans valid
    · simp
    · intro _
      simp [BlockDevice.afterWrite_of_succeeds works]
    · intro j
      by_cases here : j = i
      · subst here
        simpa using ⟨(same j).1, (same j).2.2.2, (same j).2.2.1⟩
      · rw [put_cache_ne here]
        obtain ⟨id, dirty, valid, block⟩ := same j
        exact ⟨id, block, valid, fun _ => dirty⟩
    · intro s other
      simp [BlockDevice.afterWrite_of_succeeds works, other]
  | failed same trace near fails => simp [works] at fails

/-- On a device that never fails `choose_victim` ends, whatever the flags of
the slots are and wherever the hand is: as soon as its loop may take more
rounds than there are slots in use, their number no longer matters. The slot
it picks is ready for reuse, no slot has lost its sector, its bytes or its
validity, no other slot has become clean, and no other sector of the device has
changed. -/
theorem chooseVictim_reuses (c : SlotCache size n) (d : BlockDevice size) (reliable : d.Reliable) :
    ∃ i c' d', (∀ rounds, c.usedCount < rounds → chooseVictimIn rounds (c, d) = (.ok i, c', d')) ∧
      chooseVictim (c, d) = (.ok i, c', d') ∧ Reusable c c' d' i ∧ c'.hand = nextHand i ∧
      (∀ j, (c'.cache j).sectorId = (c.cache j).sectorId ∧ (c'.cache j).block = (c.cache j).block ∧
        (c'.cache j).isValid = (c.cache j).isValid ∧ (j ≠ i → (c'.cache j).isDirty = (c.cache j).isDirty)) ∧
      ∀ s, s ≠ (c.cache i).sectorId → d'.blocks s = d.blocks s := by
  rcases run : chooseVictim (c, d) with ⟨r, c', d'⟩
  have outcome := chooseVictim_spec c d
  rw [run] at outcome
  obtain ⟨i, rfl, reusable, hand, kept, elsewhere⟩ := outcome.reusable reliable.succeeds
  refine ⟨i, c', d', ?_, rfl, reusable, hand, kept, elsewhere⟩
  intro rounds enough
  rw [chooseVictimIn_eq d c enough, run]

/-- With both slots in use and still to be written, the hand goes all the way
round before a slot is picked. -/
theorem chooseVictim_reuses_two :
    ∃ i c' d', chooseVictim
        (({ cache := fun i => ⟨i.val, true, true, true, fun _ => 7⟩, hand := 1, trace := [] } : SlotCache 1 2),
          (⟨fun _ _ => 0, [], []⟩ : BlockDevice 1)) = (.ok i, c', d') ∧
      c'.hand = nextHand i ∧ ∀ s, s ≠ i.val → d'.blocks s = fun _ => 0 := by
  obtain ⟨i, c', d', _, run, _, hand, _, elsewhere⟩ := chooseVictim_reuses
    ({ cache := fun i => ⟨i.val, true, true, true, fun _ => 7⟩, hand := 1, trace := [] } : SlotCache 1 2)
    (⟨fun _ _ => 0, [], []⟩ : BlockDevice 1) rfl
  exact ⟨i, c', d', run, hand, elsewhere⟩

theorem holds_put_ne {i j : Fin n} (other : j ≠ i) {slot : Slot size} {s : Nat} :
    (c.put i slot).Holds j s ↔ c.Holds j s := by
  rw [Holds, Holds, put_cache_ne other]

theorem holds_put {i : Fin n} (slot : Slot size) (id : slot.sectorId = (c.cache i).sectorId)
    (valid : slot.isValid = (c.cache i).isValid) (j : Fin n) (s : Nat) :
    (c.put i slot).Holds j s ↔ c.Holds j s := by
  by_cases same : j = i
  · subst same; simp [Holds, id, valid]
  · exact holds_put_ne same

theorem Distinct.of_holds (distinct : c.Distinct) (holds : ∀ j s, c'.Holds j s ↔ c.Holds j s) :
    c'.Distinct :=
  fun i j s atI atJ => distinct i j s ((holds i s).mp atI) ((holds j s).mp atJ)

/-- The view through a cache, read off slot by slot. -/
theorem view_eq_of (distinct : c'.Distinct) {s : Nat} {b : Block size}
    (held : ∀ i, c'.Holds i s → (c'.cache i).block = b)
    (missing : (∀ i, ¬ c'.Holds i s) → d'.blocks s = b) : c'.view d' s = b := by
  by_cases some : ∃ i, c'.Holds i s
  · obtain ⟨i, holds⟩ := some
    rw [view_of_holds distinct holds, held i holds]
  · have none : ∀ i, ¬ c'.Holds i s := fun i holds => some ⟨i, holds⟩
    rw [view_of_missing none, missing none]

/-- New bytes in the slot of a held sector change the view there and nowhere
else, as long as a slot that is clean afterwards agrees with the device. -/
theorem Coherent.stored (coherent : c.Coherent own d) {i : Fin n} {s : Nat} (holds : c.Holds i s)
    (e : BlockDevice size) (b : Block size) (dirty : Bool)
    (elsewhere : ∀ t, t ≠ s → e.blocks t = d.blocks t) (here : dirty = false → e.blocks s = b)
    (mine : dirty = true → s ∈ own) :
    (c.put i { c.cache i with isDirty := dirty, block := b }).Coherent own e ∧
      ∀ t, (c.put i { c.cache i with isDirty := dirty, block := b }).view e t =
        Function.update (c.view d) s b t := by
  have same := holds_put (c := c) { c.cache i with isDirty := dirty, block := b } rfl rfl
  have distinct := coherent.distinct.of_holds same
  have apart : ∀ j, j ≠ i → (c.cache j).isValid = true → (c.cache j).sectorId ≠ s :=
    fun j other valid equal => other (coherent.distinct j i s ⟨valid, equal⟩ holds)
  refine ⟨⟨distinct, ?_, ?_⟩, ?_⟩
  · intro j valid clean mine
    by_cases at_i : j = i
    · subst at_i
      rw [put_cache_self] at clean ⊢
      exact (here clean).symm.trans (congrArg e.blocks holds.2.symm)
    · rw [put_cache_ne at_i] at valid clean mine ⊢
      rw [elsewhere _ (apart j at_i valid)]
      exact coherent.synced j valid clean mine
  · intro j dirtyNow
    by_cases at_i : j = i
    · subst at_i
      rw [put_cache_self] at dirtyNow ⊢
      exact ⟨holds.1, holds.2.symm ▸ mine dirtyNow⟩
    · rw [put_cache_ne at_i] at dirtyNow ⊢
      exact coherent.owned j dirtyNow
  · intro t
    refine view_eq_of distinct ?_ ?_
    · intro j atJ
      have heldJ := (same j t).mp atJ
      by_cases at_i : j = i
      · subst at_i
        have equal : s = t := holds.2.symm.trans heldJ.2
        subst equal
        simp
      · have other : t ≠ s := heldJ.2 ▸ apart j at_i heldJ.1
        rw [put_cache_ne at_i, Function.update_of_ne other, view_of_holds coherent.distinct heldJ]
    · intro none
      have absent : ∀ j, ¬ c.Holds j t := fun j atJ => none j ((same j t).mpr atJ)
      have other : t ≠ s := fun equal => absent i (equal ▸ holds)
      rw [Function.update_of_ne other, elsewhere t other, view_of_missing absent]

/-- Writing a valid slot to the device changes neither the coherence nor the view. -/
theorem Coherent.writtenBack (coherent : c.Coherent own d) {i : Fin n}
    (valid : (c.cache i).isValid = true) (works : d.succeeds = true) :
    (c.put i { c.cache i with isDirty := false }).Coherent own
        (d.afterWrite (c.cache i).sectorId (c.cache i).block) ∧
      ∀ s, (c.put i { c.cache i with isDirty := false }).view
        (d.afterWrite (c.cache i).sectorId (c.cache i).block) s = c.view d s := by
  have holds : c.Holds i (c.cache i).sectorId := ⟨valid, rfl⟩
  rw [BlockDevice.afterWrite_of_succeeds works]
  obtain ⟨coherent', view⟩ := coherent.stored holds
    { blocks := Function.update d.blocks (c.cache i).sectorId (c.cache i).block
      script := d.script.tail
      writes := d.writes ++ [((c.cache i).sectorId, (c.cache i).block)] }
    (c.cache i).block false (fun t other => by simp [other]) (fun _ => by simp) (by simp)
  refine ⟨coherent', fun s => (view s).trans ?_⟩
  rw [← view_of_holds (d := d) coherent.distinct holds, Function.update_eq_self]

/-- Refilling a slot that owes the device nothing with a sector that is not
cached changes neither the coherence nor the view of the cache's own sectors. -/
theorem Coherent.refilled (coherent : c.Coherent own d) {i : Fin n} {s : Nat} {slot : Slot size}
    (clean : (c.cache i).isDirty = false) (absent : ∀ j, ¬ c.Holds j s)
    (id : slot.sectorId = s) (valid : slot.isValid = true) (idle : slot.isDirty = false)
    (block : slot.block = d.blocks s) :
    (c.put i slot).Coherent own d ∧ ∀ t ∈ own, (c.put i slot).view d t = c.view d t := by
  have atSlot : ∀ t, (c.put i slot).Holds i t ↔ s = t := by simp [Holds, id, valid]
  have distinct : (c.put i slot).Distinct := by
    intro j k t atJ atK
    by_cases sameJ : j = i <;> by_cases sameK : k = i
    · rw [sameJ, sameK]
    · subst sameJ
      exact absurd ((atSlot t).mp atJ ▸ (holds_put_ne sameK).mp atK) (absent k)
    · subst sameK
      exact absurd ((atSlot t).mp atK ▸ (holds_put_ne sameJ).mp atJ) (absent j)
    · exact coherent.distinct j k t ((holds_put_ne sameJ).mp atJ) ((holds_put_ne sameK).mp atK)
  refine ⟨⟨distinct, ?_, ?_⟩, ?_⟩
  · intro j validJ cleanJ mine
    by_cases same : j = i
    · subst same; simp [id, block]
    · rw [put_cache_ne same] at validJ cleanJ mine ⊢
      exact coherent.synced j validJ cleanJ mine
  · intro j dirtyJ
    by_cases same : j = i
    · subst same; simp [idle] at dirtyJ
    · rw [put_cache_ne same] at dirtyJ ⊢
      exact coherent.owned j dirtyJ
  · intro t mine
    refine view_eq_of distinct ?_ ?_
    · intro j atJ
      by_cases same : j = i
      · subst same
        have equal := (atSlot t).mp atJ
        rw [put_cache_self, block, equal, view_of_missing (equal ▸ absent)]
      · rw [put_cache_ne same, view_of_holds coherent.distinct ((holds_put_ne same).mp atJ)]
    · intro none
      refine (view_eq_of coherent.distinct ?_ (fun _ => rfl)).symm
      -- only the sector that had to leave slot `i` may be held by the old cache
      intro j atJ
      by_cases same : j = i
      · subst same
        exact (coherent.synced j atJ.1 clean (atJ.2.symm ▸ mine)).trans (congrArg d.blocks atJ.2)
      · exact absurd ((holds_put_ne same).mpr atJ) (none j)

/-- A later cache and device that show the same content in the sectors the
cache is in charge of, with the rest of the device untouched. Dirty slots are
at most those that were dirty before. -/
structure Evolved (own : Set Nat) (c : SlotCache size n) (d : BlockDevice size)
    (c' : SlotCache size n) (d' : BlockDevice size) : Prop where
  coherent : c'.Coherent own d'
  view : ∀ s ∈ own, c'.view d' s = c.view d s
  foreign : ∀ s, s ∉ own → d'.blocks s = d.blocks s
  trace : c'.trace = c.trace
  dirty : ∀ i, (c'.cache i).isDirty = true →
    (c.cache i).isDirty = true ∧ (c'.cache i).sectorId = (c.cache i).sectorId
  reliable : d.Reliable → d'.Reliable

theorem SameSlots.evolved (same : SameSlots c c') (trace : c'.trace = c.trace)
    (coherent : c.Coherent own d) : Evolved own c d c' d where
  coherent := same.coherent coherent
  view s _ := same.view s
  foreign _ _ := rfl
  trace := trace
  dirty i dirty := ⟨(same i).2.1.symm.trans dirty, (same i).1⟩
  reliable := id

theorem VictimOutcome.evolved {r : Except (Fault ExFatError) (Fin n)}
    (outcome : VictimOutcome c d (r, c', d')) (coherent : c.Coherent own d) : Evolved own c d c' d' := by
  cases outcome with
  | clean same trace => exact same.evolved trace coherent
  | @written e i same trace hand near valid dirty works =>
    obtain ⟨id, dirtySame, validSame, blockSame⟩ := same i
    have back := (same.coherent coherent).writtenBack (validSame.trans valid) works
    rw [id, blockSame] at back
    refine ⟨back.1, fun s _ => (back.2 s).trans (same.view s), ?_, trace, ?_, ?_⟩
    · intro s other
      have apart : s ≠ (c.cache i).sectorId := fun equal => other (equal ▸ (coherent.owned i dirty).2)
      simp [BlockDevice.afterWrite_of_succeeds works, apart]
    · intro j dirtyJ
      by_cases at_i : j = i
      · subst at_i; simp at dirtyJ
      · rw [put_cache_ne at_i] at dirtyJ ⊢
        exact ⟨(same j).2.1.symm.trans dirtyJ, (same j).1⟩
    · exact fun reliable => reliable.afterWrite _ _
  | failed same trace near fails =>
    obtain ⟨coherent', view, _, trace', dirty, _⟩ := same.evolved (d := d) trace coherent
    refine ⟨⟨coherent'.distinct, coherent'.synced, coherent'.owned⟩, view, fun _ _ => rfl, trace',
      dirty, ?_⟩
    intro reliable
    simp [reliable.succeeds] at fails

/-- The chosen slot owes the device nothing, and the sectors held are those held before. -/
theorem VictimOutcome.chosen {i : Fin n} (outcome : VictimOutcome c d (.ok i, c', d'))
    (coherent : c.Coherent own d) :
    (c'.cache i).isDirty = false ∧ (∀ j s, c'.Holds j s ↔ c.Holds j s) ∧ c'.hand = nextHand i ∧
      ∀ k, c.FilledTo k → i.val ≤ k := by
  cases outcome with
  | clean same trace hand near clean =>
    refine ⟨?_, fun j s => same.holds, hand, near⟩
    rw [(same i).2.1]
    cases valid : (c.cache i).isValid with
    | true => exact clean valid
    | false => exact coherent.idle valid
  | @written e i same trace hand near valid dirty works =>
    refine ⟨by simp, fun j s => ?_, hand, near⟩
    by_cases at_i : j = i
    · subst at_i
      rw [← same.holds]
      simp [Holds]
    · rw [holds_put_ne at_i, same.holds]

/-- Everything `read_inner` can do: the sector is in slot `i`; the call failed
and nothing was lost; or the device failed to fill a slot that still stands for
another sector, and left other bytes in it. -/
inductive FetchOutcome (own : Set Nat) (c : SlotCache size n) (d : BlockDevice size) (s : Nat) :
    Except (Fault ExFatError) (Fin n) × CacheIo size n → Prop
  | fetched {c' : SlotCache size n} {d' : BlockDevice size} {i : Fin n}
      (evolved : Evolved own c d c' d') (holds : c'.Holds i s)
      (filled : ∀ k, c.FilledTo k → ∃ k', c'.FilledTo k') :
      FetchOutcome own c d s (.ok i, c', d')
  | failed {c' : SlotCache size n} {d' : BlockDevice size} (evolved : Evolved own c d c' d')
      (faulty : ¬ d.Reliable) : FetchOutcome own c d s (.error (.error .io), c', d')
  | garbled {c' : SlotCache size n} {d' : BlockDevice size} {i : Fin n}
      (missed : (c.cacheHit s).1 = none) (chosen : chooseVictim (c, d) = (.ok i, c', d'))
      (evolved : Evolved own c d c' d') (valid : (c'.cache i).isValid = true)
      (clean : (c'.cache i).isDirty = false) (fails : d'.succeeds = false)
      (changed : d'.fetched s ≠ (c'.cache i).block) :
      FetchOutcome own c d s (.error (.error .io),
        c'.put i { c'.cache i with block := d'.fetched s }, d'.afterRead)

theorem Evolved.trans {a b e : SlotCache size n} {x y z : BlockDevice size}
    (first : Evolved own a x b y) (second : Evolved own b y e z) : Evolved own a x e z where
  coherent := second.coherent
  view s mine := (second.view s mine).trans (first.view s mine)
  foreign s other := (second.foreign s other).trans (first.foreign s other)
  trace := second.trace.trans first.trace
  dirty i dirty := by
    obtain ⟨before, id⟩ := second.dirty i dirty
    obtain ⟨start, id'⟩ := first.dirty i before
    exact ⟨start, id.trans id'⟩
  reliable reliable := second.reliable (first.reliable reliable)

theorem Evolved.afterRead (evolved : Evolved own c d c' d') : Evolved own c d c' d'.afterRead where
  coherent := ⟨evolved.coherent.distinct, evolved.coherent.synced, evolved.coherent.owned⟩
  view s mine := evolved.view s mine
  foreign s other := evolved.foreign s other
  trace := evolved.trace
  dirty := evolved.dirty
  reliable reliable := by
    have still := evolved.reliable reliable
    rwa [still.afterRead]

/-- The bytes of a slot that caches nothing do not matter. -/
theorem Coherent.free_block (coherent : c.Coherent own d) {i : Fin n}
    (free : (c.cache i).isValid = false) (b : Block size) :
    Evolved own c d (c.put i { c.cache i with block := b }) d := by
  have holds := holds_put (c := c) { c.cache i with block := b } rfl rfl
  have distinct := coherent.distinct.of_holds holds
  refine ⟨⟨distinct, ?_, ?_⟩, ?_, fun _ _ => rfl, rfl, ?_, id⟩
  · intro j valid clean mine
    by_cases same : j = i
    · subst same; simp [free] at valid
    · rw [put_cache_ne same] at valid clean mine ⊢
      exact coherent.synced j valid clean mine
  · intro j dirtyJ
    by_cases same : j = i
    · subst same; simp [coherent.idle free] at dirtyJ
    · rw [put_cache_ne same] at dirtyJ ⊢
      exact coherent.owned j dirtyJ
  · intro s _
    refine view_eq_of distinct ?_ ?_
    · intro j atJ
      have other : j ≠ i := fun same => by simp [same, Holds, free] at atJ
      rw [put_cache_ne other, view_of_holds coherent.distinct ((holds j s).mp atJ)]
    · intro none
      rw [view_of_missing fun j atJ => none j ((holds j s).mpr atJ)]
  · intro j dirty
    by_cases same : j = i
    · subst same; simpa using dirty
    · rw [put_cache_ne same] at dirty ⊢
      exact ⟨dirty, rfl⟩

theorem Coherent.refill (coherent : c.Coherent own d) {i : Fin n} {s : Nat}
    (clean : (c.cache i).isDirty = false) (absent : ∀ j, ¬ c.Holds j s) :
    Evolved own c d (c.put i ⟨s, (c.cache i).isDirty, true, true, d.blocks s⟩) d := by
  obtain ⟨coherent', view⟩ : (c.put i ⟨s, (c.cache i).isDirty, true, true, d.blocks s⟩).Coherent own d ∧
      ∀ t ∈ own, (c.put i ⟨s, (c.cache i).isDirty, true, true, d.blocks s⟩).view d t = c.view d t :=
    coherent.refilled clean absent rfl rfl clean rfl
  refine ⟨coherent', view, fun _ _ => rfl, rfl, ?_, id⟩
  intro j dirty
  by_cases same : j = i
  · subst same; simp [clean] at dirty
  · rw [put_cache_ne same] at dirty ⊢
    exact ⟨dirty, rfl⟩

theorem ioRead_apply (s : Nat) (i : Fin n) (c : SlotCache size n) (d : BlockDevice size) :
    ioRead s i (c, d) = (if d.succeeds then .ok () else .error (.error .io),
      c.put i { c.cache i with block := d.fetched s }, d.afterRead) := by
  cases works : d.succeeds <;> simp [ioRead, Exec.bind_apply, works]

theorem readInner_of_hit {i : Fin n} {s : Nat} (hit : c.cacheHit s = (some i, c.hitAt i)) :
    readInner s (c, d) = (.ok i, c.hitAt i, d) := by
  simp [readInner, Exec.bind_apply, hit]

theorem readInner_of_miss {s : Nat} (missed : c.cacheHit s = (none, c)) :
    readInner s (c, d) = (do
      let index ← chooseVictim
      ioRead s index
      modify fun (c, d) =>
        (c.put index { c.cache index with sectorId := s, isValid := true, isUsed := true }, d)
      pure index : ExFat (CacheIo size n) (Fin n)) (c, d) := by
  simp [readInner, Exec.bind_apply, missed]

theorem put_put (i : Fin n) (a b : Slot size) : (c.put i a).put i b = c.put i b := by
  simp [put]

theorem put_same (i : Fin n) : c.put i (c.cache i) = c := by
  simp [put]

theorem FilledTo.hitAt {k : Nat} (filled : c.FilledTo k) {i : Fin n} {s : Nat}
    (holds : c.Holds i s) : (c.hitAt i).FilledTo k := by
  refine ⟨fun j => ?_, ((filled.1 i).mp holds.1).le⟩
  rw [(hitAt_sameSlots c i j).2.2.1]
  exact filled.1 j

/-- Filling the slot after the hand's turn keeps the valid slots in front. -/
theorem FilledTo.put {k : Nat} (filled : c.FilledTo k) (holds : ∀ j s, c'.Holds j s ↔ c.Holds j s)
    {i : Fin n} (near : i.val ≤ k) (hand : c'.hand = nextHand i) {slot : Slot size}
    (valid : slot.isValid = true) : ∃ k', (c'.put i slot).FilledTo k' := by
  have validSame : ∀ j, (c'.cache j).isValid = true ↔ j.val < k := by
    intro j
    rw [← filled.1 j]
    have now := holds j (c'.cache j).sectorId
    have before := holds j (c.cache j).sectorId
    simp only [Holds, and_true] at now before
    exact ⟨fun h => (now.mp h).1, fun h => (before.mpr h).1⟩
  have bound := i.isLt
  have handLe : (nextHand i).val ≤ i.val + 1 := by
    rw [nextHand_val]; exact Nat.mod_le _ _
  refine ⟨max k (i.val + 1), fun j => ?_, ?_⟩
  · by_cases same : j = i
    · subst same; simp [valid]
    · have apart : j.val ≠ i.val := fun equal => same (Fin.ext equal)
      rw [put_cache_ne same, validSame j]
      omega
  · rw [put_hand, hand]
    omega

theorem readInner_spec (coherent : c.Coherent own d) (s : Nat) :
    FetchOutcome own c d s (readInner s (c, d)) := by
  rcases cacheHit_spec c s with ⟨i, hit, holds⟩ | ⟨missed, absent⟩
  · rw [readInner_of_hit hit]
    exact .fetched ((hitAt_sameSlots c i).evolved rfl coherent)
      ((hitAt_sameSlots c i).holds.mpr holds) (fun k old => ⟨k, old.hitAt holds⟩)
  · rw [readInner_of_miss missed, Exec.bind_apply]
    have outcome := chooseVictim_spec c d
    rcases victim : chooseVictim (c, d) with ⟨_ | i, c', d'⟩
    · rw [victim] at outcome
      have evolved := outcome.evolved coherent
      cases outcome with
      | failed _ _ _ fails =>
        refine .failed evolved ?_
        intro reliable
        simp [reliable.succeeds] at fails
    · rw [victim] at outcome
      have evolved := outcome.evolved coherent
      obtain ⟨clean, holds, hand, near⟩ := outcome.chosen coherent
      have absent' : ∀ j, ¬ c'.Holds j s := fun j atJ => absent j ((holds j s).mp atJ)
      simp only [Exec.bind_apply, ioRead_apply]
      by_cases works : d'.succeeds = true
      · simp only [works, if_true, Exec.modify_apply, Exec.pure_apply, put_put, put_cache_self,
          BlockDevice.fetched_of_succeeds works]
        exact .fetched (evolved.trans (evolved.coherent.refill clean absent')).afterRead (by simp [Holds])
          (fun k old => old.put holds (near k old) hand rfl)
      · have fails : d'.succeeds = false := by simpa using works
        have faulty : ¬ d.Reliable := fun reliable => works (evolved.reliable reliable).succeeds
        simp only [fails]
        by_cases valid : (c'.cache i).isValid = true
        · by_cases changed : d'.fetched s = (c'.cache i).block
          · rw [changed, put_same]
            exact .failed evolved.afterRead faulty
          · exact .garbled (by rw [missed]) victim evolved valid clean fails changed
        · exact .failed (evolved.trans
            (evolved.coherent.free_block (by simpa using valid) _)).afterRead faulty

end SlotCache

end ExFatSlim
