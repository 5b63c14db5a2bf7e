import ExFatSlim.ReadBack

namespace ExFatSlim

open DirectoryEntryChain (next)

/-- `len` entries that are not in use, from number `j` on. -/
def EmptyRun (raws : List RawDirEntry) (j len : Nat) : Prop :=
  j + len ≤ raws.length ∧ ∀ i raw, j ≤ i → i < j + len → raws[i]? = some raw → ¬ InUse raw

/-- The entry before number `i` is in use, if there is one. -/
def Bounded (raws : List RawDirEntry) (i : Nat) : Prop := ∀ raw, 0 < i → raws[i - 1]? = some raw → InUse raw

/-- The first run that is long enough starts after an entry in use. -/
theorem EmptyRun.bounded {raws : List RawDirEntry} {i len : Nat} (run : EmptyRun raws i len)
    (first : ∀ j < i, ¬ EmptyRun raws j len) : Bounded raws i := by
  intro raw pos same
  by_contra free
  refine first (i - 1) (by omega) ⟨by have inside := run.1; omega, fun j other from_ upTo there => ?_⟩
  by_cases before : j = i - 1
  · subst before
    rw [same] at there
    exact Option.some.inj there ▸ free
  · exact run.2 j other (by omega) (by omega) there

theorem EntryType.ofByte_free {raw : RawDirEntry} (free : ¬ InUse raw) :
    EntryType.ofByte (raw.byte 0) = .endOfDirectory ∨ EntryType.ofByte (raw.byte 0) = .unused (raw.byte 0) := by
  have clear : raw.byte 0 &&& 0x80 = 0 := not_not.mp free
  unfold ofByte
  by_cases zero : raw.byte 0 = 0
  · exact Or.inl (if_pos zero)
  · rw [if_neg zero, if_pos clear]
    exact Or.inr rfl

theorem EntryType.ofByte_used {raw : RawDirEntry} (used : InUse raw) :
    EntryType.ofByte (raw.byte 0) ≠ .endOfDirectory ∧ ∀ x, EntryType.ofByte (raw.byte 0) ≠ .unused x := by
  refine ⟨fun same => used ?_, fun x same => used (EntryType.ofByte_unused same)⟩
  rw [EntryType.ofByte_zero.mp same]
  rfl

namespace FileSystem

open Scan

variable {size n : Nat} {home : Nat → CacheKind} {v : Volume size} {place : Nat → Location}

/-- A scan that no entry stops. -/
def never (_ : RawDirEntry) : Bool := false

theorem emptyRunIn_free (len fuel counter : Nat) (start : Option Location) {e : DirSlot} {es : List DirSlot}
    {s : Scan size n}
    (free : ¬ InUse e.1) (visits : Visits home v never (e :: es) s) :
    ∃ s', Visits home v never es s' ∧ emptyRunIn len (fuel + 1) counter start s =
      if counter + 1 = len then (.ok (some (start.getD e.2)), s')
      else emptyRunIn len fuel (counter + 1) (some (start.getD e.2)) s' := by
  obtain ⟨s', run, rest⟩ := DirectoryEntryChain.visits_cons visits rfl
  refine ⟨s', rest, ?_⟩
  rw [emptyRunIn, Exec.bind_of_ok run]
  dsimp only
  rcases EntryType.ofByte_free free with type | type
  · rw [type]
    dsimp only
    split <;> rfl
  · rw [type]
    dsimp only
    split <;> rfl

theorem emptyRunIn_used (len fuel counter : Nat) (start : Option Location) {e : DirSlot} {es : List DirSlot}
    {s : Scan size n}
    (used : InUse e.1) (visits : Visits home v never (e :: es) s) :
    ∃ s', Visits home v never es s' ∧ emptyRunIn len (fuel + 1) counter start s = emptyRunIn len fuel 0 none s' := by
  obtain ⟨s', run, rest⟩ := DirectoryEntryChain.visits_cons visits rfl
  obtain ⟨marker, unused⟩ := EntryType.ofByte_used used
  refine ⟨s', rest, ?_⟩
  rw [emptyRunIn, Exec.bind_of_ok run]
  dsimp only
  cases type : EntryType.ofByte (e.1.byte 0) with
  | endOfDirectory => exact absurd type marker
  | unused x => exact absurd type (unused x)
  | _ => rfl

/-- What the search comes to over the entries that are left. -/
def runStart (len : Nat) : Nat → Option Location → List DirSlot → Option Location
  | _, start, [] => start
  | counter, start, e :: es =>
    if InUse e.1 then runStart len 0 none es
    else if counter + 1 = len then some (start.getD e.2)
    else runStart len (counter + 1) (some (start.getD e.2)) es

theorem emptyRunIn_through (len : Nat) (es : List DirSlot) :
    ∀ (fuel counter : Nat) (start : Option Location) {s : Scan size n},
    es.length < fuel → Visits home v never es s →
    ∃ s', emptyRunIn len fuel counter start s = (.ok (runStart len counter start es), s') ∧ s'.Shows home v := by
  induction es with
  | nil =>
    intro fuel counter start s enough visits
    obtain ⟨fuel, rfl⟩ : ∃ f, fuel = f + 1 := ⟨fuel - 1, by simp at enough; omega⟩
    cases visits with
    | ended _ run shows =>
      refine ⟨_, ?_, shows⟩
      rw [emptyRunIn, Exec.bind_of_ok run]
      rfl
  | cons e es ih =>
    intro fuel counter start s enough visits
    rw [List.length_cons] at enough
    obtain ⟨fuel, rfl⟩ : ∃ f, fuel = f + 1 := ⟨fuel - 1, by omega⟩
    rw [runStart]
    by_cases used : InUse e.1
    · obtain ⟨s₁, visits₁, step⟩ := emptyRunIn_used len fuel counter start used visits
      rw [if_pos used, step]
      exact ih fuel 0 none (by omega) visits₁
    · obtain ⟨s₁, visits₁, step⟩ := emptyRunIn_free len fuel counter start used visits
      rw [if_neg used, step]
      by_cases done : counter + 1 = len
      · rw [if_pos done, if_pos done]
        exact ⟨s₁, rfl, visits₁.shows⟩
      · rw [if_neg done, if_neg done]
        exact ih fuel (counter + 1) _ (by omega) visits₁

/-- What the search comes to in a directory: the first run that is long enough or, when there is
none, the unused entries at the end. -/
inductive Settled (len : Nat) (es : List DirSlot) : Option Location → Prop
  | found {i : Nat} {e : DirSlot} (run : EmptyRun (es.map Prod.fst) i len)
    (first : ∀ j < i, ¬ EmptyRun (es.map Prod.fst) j len)
      (here : es[i]? = some e) : Settled len es (some e.2)
  | short {i m : Nat} {e : DirSlot} (none_ : ∀ j, ¬ EmptyRun (es.map Prod.fst) j len) (some_ : 0 < m) (less : m < len)
      (rest : i + m = es.length) (free : EmptyRun (es.map Prod.fst) i m) (here : es[i]? = some e) :
        Settled len es (some e.2)
  | full (none_ : ∀ j, ¬ EmptyRun (es.map Prod.fst) j len) (used : Bounded (es.map Prod.fst) es.length) :
    Settled len es none

/-- The search has come to entry `k` after `counter` unused ones. -/
theorem runStart_settled {len : Nat} (es : List DirSlot) (some_ : 0 < len) (m : Nat) :
    ∀ (k counter : Nat) (start : Option Location),
    k + m = es.length → counter < len → counter ≤ k → Bounded (es.map Prod.fst) (k - counter) →
    EmptyRun (es.map Prod.fst) (k - counter) counter → (∀ j < k - counter, ¬ EmptyRun (es.map Prod.fst) j len) →
    (counter = 0 → start = none) → (0 < counter → start = (es[k - counter]?).map Prod.snd) →
    Settled len es (runStart len counter start (es.drop k)) := by
  induction m with
  | zero =>
    intro k counter start here short most bounded free first none_ begun
    have none_' : ∀ j, ¬ EmptyRun (es.map Prod.fst) j len := by
      rintro j ⟨inside, unused⟩
      rw [List.length_map] at inside
      exact first j (by omega) ⟨by rw [List.length_map]; omega, unused⟩
    rw [List.drop_of_length_le (by omega), runStart]
    rcases Nat.eq_zero_or_pos counter with zero | pos
    · subst zero
      rw [none_ rfl]
      have whole : k = es.length := by omega
      exact .full none_' (whole ▸ bounded)
    · rw [begun pos, List.getElem?_eq_getElem (by omega)]
      exact .short none_' pos short (by omega) free (List.getElem?_eq_getElem (by omega))
  | succ m ih =>
    intro k counter start here short most bounded free first none_ begun
    have bound : k < es.length := by omega
    have at_ : (es.map Prod.fst)[k]? = some es[k].1 := by
      rw [List.getElem?_map, List.getElem?_eq_getElem bound, Option.map_some]
    rw [List.drop_eq_getElem_cons bound, runStart]
    by_cases used : InUse es[k].1
    · rw [if_pos used]
      refine ih (k + 1) 0 none (by omega) some_ (by omega) (fun raw _ same => ?_)
        ⟨by simp; omega, fun i raw from_ upTo => by omega⟩
        (fun j before => ?_) (fun _ => rfl) fun pos => absurd pos (lt_irrefl 0)
      · rw [Nat.sub_zero, Nat.add_sub_cancel, at_] at same
        exact Option.some.inj same ▸ used
      · -- a run that starts later would reach over the entry in use
        by_cases earlier : j < k - counter
        · exact first j earlier
        · exact fun run => run.2 k es[k].1 (by omega) (by omega) at_ used
    · rw [if_neg used]
      have begun' : some (start.getD es[k].2) = (es[k - counter]?).map Prod.snd := by
        rcases Nat.eq_zero_or_pos counter with zero | pos
        · subst zero
          rw [none_ rfl, Nat.sub_zero, List.getElem?_eq_getElem bound]
          rfl
        · rw [begun pos, List.getElem?_eq_getElem (by omega)]
          rfl
      have longer : EmptyRun (es.map Prod.fst) (k - counter) (counter + 1) := by
        refine ⟨by simp; omega, fun i raw from_ upTo same => ?_⟩
        by_cases last : i = k
        · subst last
          rw [at_] at same
          exact Option.some.inj same ▸ used
        · exact free.2 i raw from_ (by omega) same
      have same : k + 1 - (counter + 1) = k - counter := by omega
      by_cases done : counter + 1 = len
      · rw [if_pos done, begun', List.getElem?_eq_getElem (by omega)]
        exact .found (done ▸ longer) first (List.getElem?_eq_getElem (by omega))
      · rw [if_neg done]
        exact ih (k + 1) (counter + 1) _ (by omega) (by omega) (by omega) (same ▸ bounded) (same ▸ longer)
          (same ▸ first)
          (fun zero => absurd zero (by omega)) fun _ => by rw [same]; exact begun'

theorem emptyRunIn_settled {es : List DirSlot} {len fuel : Nat} (some_ : 0 < len) (enough : es.length < fuel)
    {s : Scan size n}
    (visits : Visits home v never es s) :
    ∃ r s', emptyRunIn len fuel 0 none s = (.ok r, s') ∧ s'.Shows home v ∧ Settled len es r := by
  obtain ⟨s', run, shows⟩ := emptyRunIn_through len es fuel 0 none enough visits
  refine ⟨_, s', run, shows, runStart_settled es some_ es.length 0 0 none (Nat.zero_add _) some_ le_rfl
    (fun _ pos => absurd pos (lt_irrefl _)) ⟨Nat.zero_le _, fun _ _ _ upTo => absurd upTo (Nat.not_lt_zero _)⟩
    (fun _ before => absurd before (Nat.not_lt_zero _)) (fun _ => rfl) fun pos => absurd pos (lt_irrefl 0)⟩

end FileSystem

def Piece.isSpare : Piece → Bool
  | .spare _ _ => true
  | _ => false

/-- The content of a directory: its pieces, and zeros up to the end of the cluster. -/
structure DirList where
  pieces : List Piece
  zeros : Nat

namespace DirList

def raws (d : DirList) : List RawDirEntry := d.pieces.flatMap Piece.raws ++ List.replicate d.zeros zeroEntry

/-- The listing of the directory. -/
def entries (d : DirList) (place : Nat → Location) : List (FileDetails × List UInt8) :=
  items place (some maxNameLen) 0 d.pieces

end DirList

theorem EntryType.bits_of_secondary {x : UInt8} (high : 0xC0 ≤ x) : x &&& 0x80 ≠ 0 ∧ x &&& 0x7F ≠ 0 := by
  have all : ∀ i : Fin 256, 0xC0 ≤ UInt8.ofNat i.val → UInt8.ofNat i.val &&& 0x80 ≠ 0 ∧
      UInt8.ofNat i.val &&& 0x7F ≠ 0 := by
    decide +kernel
  have same : UInt8.ofNat x.toNat = x := UInt8.ofNat_toNat
  have here := all ⟨x.toNat, x.toNat_lt⟩
  rw [same] at here
  exact here high

theorem EntryType.high_of_named {x : UInt8}
    (type : EntryType.ofByte x = .streamExtension ∨ EntryType.ofByte x = .filename) :
    0xC0 ≤ x := by
  unfold ofByte at type
  by_cases stream : x = 0xC0
  · rw [stream]
    decide
  by_cases name : x = 0xC1
  · rw [name]
    decide
  rw [if_neg stream, if_neg name] at type
  rcases type with same | same
  · repeat' split at same
    all_goals cases same
  · repeat' split at same
    all_goals cases same

/-- Every entry of a set is in use, and does not become an end marker when that bit is cleared. -/
theorem EntrySet.bits (set : EntrySet) {raw : RawDirEntry} (member : raw ∈ set.raws) :
    InUse raw ∧ raw.byte 0 &&& 0x7F ≠ 0 := by
  rw [EntrySet.raws] at member
  rcases List.mem_cons.mp member with rfl | member
  · rw [InUse, EntryType.ofByte_file.mp set.isFile]
    decide
  apply EntryType.bits_of_secondary
  rcases List.mem_cons.mp member with rfl | member
  · exact EntryType.high_of_named (Or.inl set.isStream)
  rcases List.mem_append.mp member with name | extra
  · exact EntryType.high_of_named (Or.inr (set.areNames raw name))
  · exact set.areExtras raw extra

/-- The entry with the in-use bit cleared. -/
def cleared (raw : RawDirEntry) : RawDirEntry := raw.patch 0 [raw.byte 0 &&& 0x7F]

theorem byte_cleared (raw : RawDirEntry) : (cleared raw).byte 0 = raw.byte 0 &&& 0x7F := by
  have first : (raw.patch 0 [raw.byte 0 &&& 0x7F]).byte (0 + 0) = [raw.byte 0 &&& 0x7F][0] :=
    Block.byte_patch_inside raw (by decide) Nat.one_pos
  exact first

theorem EntrySet.unused_cleared (set : EntrySet) {raw : RawDirEntry} (member : raw ∈ set.raws) :
    ¬ InUse (cleared raw) ∧ (cleared raw).byte 0 ≠ 0 := by
  rw [InUse, byte_cleared, not_not]
  refine ⟨?_, (set.bits member).2⟩
  rw [UInt8.and_assoc]
  exact UInt8.and_zero

/-- What is left of a set when it has been marked unused. -/
def EntrySet.spares (set : EntrySet) : List Piece :=
  set.raws.attach.map fun raw => .spare (cleared raw.1) (set.unused_cleared raw.2)

theorem EntrySet.spares_raws (set : EntrySet) : set.spares.flatMap Piece.raws = set.raws.map cleared := by
  rw [EntrySet.spares, List.flatMap_map]
  simp only [Piece.raws]
  rw [← List.map_eq_flatMap]
  exact List.attach_map_val

theorem EntrySet.spares_spare (set : EntrySet) {p : Piece} (member : p ∈ set.spares) : p.isSpare = true := by
  obtain ⟨raw, _, rfl⟩ := List.mem_map.mp member
  rfl

theorem Piece.spare_or_used (p : Piece) : (∃ raw unused, p = .spare raw unused) ∨ ∀ raw ∈ p.raws, InUse raw := by
  cases p with
  | spare raw unused => exact Or.inl ⟨raw, unused, rfl⟩
  | other raw used =>
    refine Or.inr fun r member => ?_
    rw [List.mem_singleton.mp member]
    exact used.1
  | file set => exact Or.inr fun raw member => (set.bits member).1

theorem Piece.raws_pos (p : Piece) : 0 < p.raws.length := by
  cases p <;> simp [Piece.raws, EntrySet.raws]

theorem not_inUse_zeroEntry : ¬ InUse zeroEntry := by decide

theorem EmptyRun.shift {xs ys : List RawDirEntry} {i len : Nat} (run : EmptyRun (xs ++ ys) (xs.length + i) len) :
    EmptyRun ys i len := by
  obtain ⟨inside, free⟩ := run
  rw [List.length_append] at inside
  refine ⟨by omega, fun j raw from_ upTo here => free (xs.length + j) raw (by omega) (by omega) ?_⟩
  rw [List.getElem?_append_right (by omega), Nat.add_sub_cancel_left, here]

/-- Entries that are not in use at the start of a directory. -/
theorem split_head (zeros : Nat) (pieces : List Piece) : ∀ {len : Nat},
    EmptyRun (pieces.flatMap Piece.raws ++ List.replicate zeros zeroEntry) 0 len →
    ∃ spares after zeros', pieces = spares ++ after ∧ (∀ p ∈ spares, p.isSpare = true) ∧
      ((spares.length = len ∧ zeros' = zeros) ∨
        (after = [] ∧ spares.length ≤ len ∧ spares.length + zeros = len + zeros')) := by
  induction pieces with
  | nil =>
    intro len run
    have inside := run.1
    rw [List.flatMap_nil, List.nil_append, List.length_replicate] at inside
    exact ⟨[], [], zeros - len, rfl, by simp, Or.inr ⟨rfl, Nat.zero_le _, by simp; omega⟩⟩
  | cons p pieces ih =>
    intro len run
    cases len with
    | zero => exact ⟨[], p :: pieces, zeros, rfl, by simp, Or.inl ⟨rfl, rfl⟩⟩
    | succ len =>
      rw [List.flatMap_cons, List.append_assoc] at run
      rcases p.spare_or_used with ⟨raw, unused, rfl⟩ | used
      · have rest : EmptyRun (pieces.flatMap Piece.raws ++ List.replicate zeros zeroEntry) 0 len := by
          have shorter : EmptyRun ([raw] ++ (pieces.flatMap Piece.raws ++ List.replicate zeros zeroEntry))
            (1 + 0) len :=
            ⟨by have := run.1; simp only [Piece.raws] at this ⊢; omega,
              fun i r from_ upTo => run.2 i r (by omega) (by omega)⟩
          exact EmptyRun.shift shorter
        obtain ⟨spares, after, zeros', rfl, spare, count⟩ := ih rest
        refine ⟨.spare raw unused :: spares, after, zeros', rfl, List.forall_mem_cons.mpr ⟨rfl, spare⟩, ?_⟩
        rw [List.length_cons]
        rcases count with ⟨whole, same⟩ | ⟨last, most, total⟩
        · exact Or.inl ⟨by omega, same⟩
        · exact Or.inr ⟨last, by omega, by omega⟩
      · have bound := p.raws_pos
        have first : (p.raws ++ (pieces.flatMap Piece.raws ++ List.replicate zeros zeroEntry))[0]? =
            some p.raws[0] := by
          rw [List.getElem?_append_left bound, List.getElem?_eq_getElem bound]
        exact absurd (used _ (List.getElem_mem bound)) (run.2 0 _ le_rfl (by omega) first)

/-- A run of empty entries behind one that is in use lies between two pieces. -/
theorem split_run (zeros : Nat) {len : Nat} (some_ : 0 < len) (pieces : List Piece) : ∀ {i : Nat},
    EmptyRun (pieces.flatMap Piece.raws ++ List.replicate zeros zeroEntry) i len →
    Bounded (pieces.flatMap Piece.raws ++ List.replicate zeros zeroEntry) i →
    ∃ before spares after zeros', pieces = before ++ (spares ++ after) ∧ (before.flatMap Piece.raws).length = i ∧
      (∀ p ∈ spares, p.isSpare = true) ∧
      ((spares.length = len ∧ zeros' = zeros) ∨
        (after = [] ∧ spares.length ≤ len ∧ spares.length + zeros = len + zeros')) := by
  induction pieces with
  | nil =>
    intro i run bounded
    have inside := run.1
    rw [List.flatMap_nil, List.nil_append] at run bounded inside
    rw [List.length_replicate] at inside
    have first : i = 0 := by
      by_contra later
      have here : (List.replicate zeros zeroEntry)[i - 1]? = some zeroEntry := by
        rw [List.getElem?_replicate, if_pos (by omega)]
      exact not_inUse_zeroEntry (bounded zeroEntry (by omega) here)
    exact ⟨[], [], [], zeros - len, rfl, first.symm, by simp, Or.inr ⟨rfl, Nat.zero_le _, by simp; omega⟩⟩
  | cons p pieces ih =>
    intro i run bounded
    by_cases first : i = 0
    · subst first
      obtain ⟨spares, after, zeros', split, spare, count⟩ := split_head zeros (p :: pieces) run
      exact ⟨[], spares, after, zeros', split, rfl, spare, count⟩
    rw [List.flatMap_cons, List.append_assoc] at run bounded
    by_cases beyond : p.raws.length ≤ i
    · obtain ⟨j, rfl⟩ : ∃ j, i = p.raws.length + j := ⟨i - p.raws.length, by omega⟩
      have later : Bounded (pieces.flatMap Piece.raws ++ List.replicate zeros zeroEntry) j := by
        intro raw pos here
        refine bounded raw (by omega) ?_
        rw [List.getElem?_append_right (by omega), show p.raws.length + j - 1 - p.raws.length = j - 1 by omega, here]
      obtain ⟨before, spares, after, zeros', rfl, length, spare, count⟩ := ih run.shift later
      refine ⟨p :: before, spares, after, zeros', rfl, ?_, spare, count⟩
      rw [List.flatMap_cons, List.length_append, length]
    · have bound : i < p.raws.length := by omega
      have here : (p.raws ++ (pieces.flatMap Piece.raws ++ List.replicate zeros zeroEntry))[i]? = some p.raws[i] := by
        rw [List.getElem?_append_left bound, List.getElem?_eq_getElem bound]
      rcases p.spare_or_used with ⟨raw, unused, rfl⟩ | used
      · simp only [Piece.raws, List.length_singleton] at bound
        omega
      · exact absurd (used _ (List.getElem_mem bound)) (run.2 i _ le_rfl (by omega) here)

namespace DirList

variable {place : Nat → Location}

/-- `d'` is `d` with a set in the place of empty entries, from number `i` on. -/
structure Inserts (d d' : DirList) (i : Nat) (set : EntrySet) : Prop where
  raws : d'.raws = d.raws.take i ++ (set.raws ++ d.raws.drop (i + set.raws.length))
  entries : ∀ place : Nat → Location, ∃ l₁ l₂, d.entries place = l₁ ++ l₂ ∧
    d'.entries place = l₁ ++ (set.details (place i), encodeUtf8 set.name) :: l₂

theorem length_spares {spares : List Piece} (spare : ∀ p ∈ spares, p.isSpare = true) :
    (spares.flatMap Piece.raws).length = spares.length := by
  induction spares with
  | nil => rfl
  | cons p spares ih =>
    rw [List.flatMap_cons, List.length_append, ih fun p member => spare p (List.mem_cons_of_mem _ member),
      List.length_cons]
    cases p with
    | spare raw unused => exact Nat.add_comm _ _
    | _ => cases spare _ List.mem_cons_self

theorem items_spares {spares : List Piece} (spare : ∀ p ∈ spares, p.isSpare = true) (k : Nat) :
    items place (some maxNameLen) k spares = [] := by
  refine items_of_no_file place _ spares k fun p member => ?_
  cases p with
  | spare raw unused => rfl
  | _ => cases spare _ member

/-- The empty entries that the search finds can be replaced by a set. -/
theorem exists_inserts (d : DirList) (set : EntrySet) {i : Nat} (run : EmptyRun d.raws i set.raws.length)
    (bounded : Bounded d.raws i) : ∃ d', Inserts d d' i set := by
  have some_ : 0 < set.raws.length := by simp [EntrySet.raws]
  obtain ⟨pieces, zeros⟩ := d
  obtain ⟨before, spares, after, zeros', rfl, rfl, spare, count⟩ := split_run zeros some_ pieces run bounded
  have length := length_spares spare
  refine ⟨⟨before ++ .file set :: after, zeros'⟩, ?_, fun place => ?_⟩
  · simp only [DirList.raws, List.flatMap_append, List.flatMap_cons, Piece.raws, List.append_assoc]
    rw [List.take_left, List.drop_append, List.drop_of_length_le (Nat.le_add_right _ _), List.nil_append,
      Nat.add_sub_cancel_left]
    rcases count with ⟨whole, rfl⟩ | ⟨rfl, most, total⟩
    · rw [List.drop_left' (length.trans whole)]
    · rw [List.flatMap_nil, List.nil_append, List.nil_append, List.drop_append, List.drop_of_length_le (by omega),
        List.nil_append, List.drop_replicate, length]
      congr 4
      omega
  · refine ⟨items place (some maxNameLen) 0 before,
      items place (some maxNameLen) ((before.flatMap Piece.raws).length + set.raws.length) after, ?_, ?_⟩
    · rw [entries, items_append, items_append, items_spares spare, List.nil_append, Nat.zero_add, length]
      rcases count with ⟨whole, _⟩ | ⟨rfl, _⟩
      · rw [whole]
      · rfl
    · rw [entries, items_append, Nat.zero_add, items]
      rfl

/-- `d'` is `d` with a set marked unused. -/
structure Removes (d d' : DirList) (i : Nat) (set : EntrySet) : Prop where
  inside : i + set.raws.length ≤ d.raws.length
  here : (d.raws.drop i).take set.raws.length = set.raws
  raws : d'.raws = d.raws.take i ++ (set.raws.map cleared ++ d.raws.drop (i + set.raws.length))
  entries : ∀ place : Nat → Location, ∃ l₁ l₂, d.entries place =
    l₁ ++ (set.details (place i), encodeUtf8 set.name) :: l₂ ∧
    d'.entries place = l₁ ++ l₂

/-- An entry of the listing is that of a set. -/
theorem split_item (pieces : List Piece) : ∀ {k : Nat} {entry : FileDetails × List UInt8},
    entry ∈ items place (some maxNameLen) k pieces → ∃ before set after, pieces = before ++ .file set :: after ∧
      entry = (set.details (place (k + (before.flatMap Piece.raws).length)), encodeUtf8 set.name) := by
  induction pieces with
  | nil => intro k entry member; cases member
  | cons p pieces ih =>
    intro k entry member
    have later : entry ∈ items place (some maxNameLen) (k + p.raws.length) pieces → ∃ before set after,
        p :: pieces = before ++ .file set :: after ∧
          entry = (set.details (place (k + (before.flatMap Piece.raws).length)), encodeUtf8 set.name) := by
      intro member
      obtain ⟨before, set, after, rfl, same⟩ := ih member
      refine ⟨p :: before, set, after, rfl, ?_⟩
      rw [List.flatMap_cons, List.length_append, ← Nat.add_assoc]
      exact same
    cases p with
    | spare raw unused => exact later member
    | other raw used => exact later member
    | file set =>
      rw [items] at member
      rcases List.mem_cons.mp member with rfl | member
      · exact ⟨[], set, pieces, rfl, rfl⟩
      · exact later member

theorem exists_removes (d : DirList) {entry : FileDetails × List UInt8} (listed : entry ∈ d.entries place) :
    ∃ i set d', entry = (set.details (place i), encodeUtf8 set.name) ∧ Removes d d' i set := by
  obtain ⟨pieces, zeros⟩ := d
  obtain ⟨before, set, after, rfl, same⟩ := split_item pieces listed
  rw [Nat.zero_add] at same
  refine ⟨_, set, ⟨before ++ (set.spares ++ after), zeros⟩, same, ?_, ?_, ?_, fun place => ?_⟩
  · simp only [DirList.raws, List.flatMap_append, List.flatMap_cons, Piece.raws, List.length_append]
    omega
  · simp only [DirList.raws, List.flatMap_append, List.flatMap_cons, Piece.raws, List.append_assoc]
    rw [List.drop_left, List.take_left]
  · simp only [DirList.raws, List.flatMap_append, List.flatMap_cons, Piece.raws, List.append_assoc,
      EntrySet.spares_raws]
    rw [List.take_left, List.drop_append, List.drop_of_length_le (Nat.le_add_right _ _), List.nil_append,
      Nat.add_sub_cancel_left, List.drop_left]
  · refine ⟨items place (some maxNameLen) 0 before,
      items place (some maxNameLen) ((before.flatMap Piece.raws).length + set.raws.length) after, ?_, ?_⟩
    · rw [entries, items_append, Nat.zero_add, items]
      rfl
    · have length : (set.spares.flatMap Piece.raws).length = set.raws.length := by
        rw [EntrySet.spares_raws, List.length_map]
      rw [entries, items_append, items_append, items_spares fun p member => set.spares_spare member, List.nil_append,
        Nat.zero_add, length]

end DirList

end ExFatSlim
