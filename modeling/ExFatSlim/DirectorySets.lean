import ExFatSlim.SetUpdates
import ExFatSlim.UpcaseLookup

namespace ExFatSlim

/-- A name as the up-case table folds it: names with the same key are the same
name to the file system. -/
def UpcaseTable.key (table : UpcaseTable) (name : List Char) : List Nat := (encodeUtf16 name).map table.upcase

/-- The entry sets among the pieces of a directory, each with the number of its first entry. -/
def setsFrom : Nat → List Piece → List (Nat × EntrySet)
  | _, [] => []
  | k, .file set :: pieces => (k, set) :: setsFrom (k + set.raws.length) pieces
  | k, .spare _ _ :: pieces => setsFrom (k + 1) pieces
  | k, .other _ _ :: pieces => setsFrom (k + 1) pieces

def DirList.sets (d : DirList) : List (Nat × EntrySet) := setsFrom 0 d.pieces

theorem setsFrom_append (xs ys : List Piece) : ∀ k,
    setsFrom k (xs ++ ys) = setsFrom k xs ++ setsFrom (k + (xs.flatMap Piece.raws).length) ys := by
  induction xs with
  | nil => exact fun k => rfl
  | cons p xs ih =>
    intro k
    rw [List.cons_append, List.flatMap_cons, List.length_append, ← Nat.add_assoc]
    cases p with
    | spare raw unused => exact ih (k + 1)
    | other raw used => exact ih (k + 1)
    | file set => exact congrArg (List.cons (k, set)) (ih (k + set.raws.length))

theorem setsFrom_spares {spares : List Piece} (spare : ∀ p ∈ spares, p.isSpare = true) :
    ∀ k, setsFrom k spares = [] := by
  induction spares with
  | nil => exact fun k => rfl
  | cons p spares ih =>
    intro k
    cases p with
    | spare raw unused => exact ih (List.forall_mem_of_forall_mem_cons spare) (k + 1)
    | _ => cases spare _ List.mem_cons_self

/-- A set takes up its entries within the pieces. -/
theorem setsFrom_within (pieces : List Piece) : ∀ {k i : Nat} {set : EntrySet}, (i, set) ∈ setsFrom k pieces →
    k ≤ i ∧ i + set.raws.length ≤ k + (pieces.flatMap Piece.raws).length := by
  induction pieces with
  | nil => intro k i set member; cases member
  | cons p pieces ih =>
    intro k i set member
    rw [List.flatMap_cons, List.length_append]
    cases p with
    | spare raw unused =>
      have within := ih member
      rw [Piece.raws, List.length_singleton]
      omega
    | other raw used =>
      have within := ih member
      rw [Piece.raws, List.length_singleton]
      omega
    | file first =>
      rw [Piece.raws]
      rcases List.mem_cons.mp member with same | member
      · cases same
        omega
      · have within := ih member
        omega

theorem setsFrom_inj (pieces : List Piece) : ∀ {k i : Nat} {set set' : EntrySet}, (i, set) ∈ setsFrom k pieces →
    (i, set') ∈ setsFrom k pieces → set = set' := by
  induction pieces with
  | nil => intro k i set set' first; cases first
  | cons p pieces ih =>
    intro k i set set' first second
    cases p with
    | spare raw unused => exact ih first second
    | other raw used => exact ih first second
    | file here =>
      have filled : 0 < here.raws.length := by simp [EntrySet.raws]
      rcases List.mem_cons.mp first with same | first
      · cases same
        rcases List.mem_cons.mp second with same | second
        · cases same
          rfl
        · have within := setsFrom_within pieces second
          omega
      · rcases List.mem_cons.mp second with same | second
        · cases same
          have within := setsFrom_within pieces first
          omega
        · exact ih first second

theorem split_set (pieces : List Piece) : ∀ {k i : Nat} {set : EntrySet}, (i, set) ∈ setsFrom k pieces →
    ∃ before after, pieces = before ++ .file set :: after ∧ i = k + (before.flatMap Piece.raws).length := by
  induction pieces with
  | nil => intro k i set member; cases member
  | cons p pieces ih =>
    intro k i set member
    have later : (i, set) ∈ setsFrom (k + p.raws.length) pieces →
        ∃ before after, p :: pieces = before ++ .file set :: after ∧ i = k + (before.flatMap Piece.raws).length := by
      intro member
      obtain ⟨before, after, rfl, same⟩ := ih member
      refine ⟨p :: before, after, rfl, ?_⟩
      rw [List.flatMap_cons, List.length_append, ← Nat.add_assoc]
      exact same
    cases p with
    | spare raw unused => exact later member
    | other raw used => exact later member
    | file first =>
      rcases List.mem_cons.mp member with same | member
      · cases same
        exact ⟨[], pieces, rfl, rfl⟩
      · exact later member

namespace DirList

variable {d d' : DirList} {i j : Nat} {set set' : EntrySet}

theorem within (member : (i, set) ∈ d.sets) : i + set.raws.length ≤ d.raws.length := by
  have within := setsFrom_within d.pieces member
  rw [raws, List.length_append]
  omega

theorem split (member : (i, set) ∈ d.sets) :
    ∃ before after, d.pieces = before ++ .file set :: after ∧ i = (before.flatMap Piece.raws).length := by
  obtain ⟨before, after, pieces, here⟩ := split_set d.pieces member
  exact ⟨before, after, pieces, here.trans (Nat.zero_add _)⟩

/-- The entries of a set are where its number says. -/
theorem here (member : (i, set) ∈ d.sets) : (d.raws.drop i).take set.raws.length = set.raws := by
  obtain ⟨before, after, pieces, rfl⟩ := split member
  simp only [raws, pieces, List.flatMap_append, List.flatMap_cons, Piece.raws, List.append_assoc]
  rw [List.drop_left, List.take_left]

/-- The entries in use all belong to sets. -/
def Plain (d : DirList) : Prop := ∀ raw used, Piece.other raw used ∉ d.pieces

/-- The directory with other entries from number `i` on: the set `new`, if
any, is there instead of what was there before, and the other sets stay. -/
structure Edits (d d' : DirList) (i : Nat) (raws : List RawDirEntry) (new : Option EntrySet) : Prop where
  inside : i + raws.length ≤ d.raws.length
  raws : d'.raws = d.raws.take i ++ (raws ++ d.raws.drop (i + raws.length))
  sets : ∀ x, x ∈ d'.sets ↔ x ∈ d.sets ∧ x.1 ≠ i ∨ x.1 = i ∧ new = some x.2
  plain : d.Plain → d'.Plain

/-- The empty entries that the search finds make room for a set. -/
theorem exists_insert (d : DirList) (set : EntrySet) (run : EmptyRun d.raws i set.raws.length)
    (bounded : Bounded d.raws i) :
    (∃ d', d.Edits d' i set.raws (some set)) ∧ ∀ x ∈ d.sets, x.1 ≠ i := by
  have some_ : 0 < set.raws.length := by simp [EntrySet.raws]
  obtain ⟨pieces, zeros⟩ := d
  have inside := run.1
  obtain ⟨before, spares, after, zeros', rfl, rfl, spare, count⟩ := split_run zeros some_ pieces run bounded
  have length := length_spares spare
  have old : ∀ x, x ∈ sets ⟨before ++ (spares ++ after), zeros⟩ ↔
      x ∈ setsFrom 0 before ∨ x ∈ setsFrom ((before.flatMap Piece.raws).length + spares.length) after := by
    intro x
    rw [sets, setsFrom_append, setsFrom_append, setsFrom_spares spare, List.nil_append, Nat.zero_add,
      List.mem_append, length]
  have apart : ∀ x ∈ sets ⟨before ++ (spares ++ after), zeros⟩, x.1 ≠ (before.flatMap Piece.raws).length := by
    intro x member
    have filled : 0 < x.2.raws.length := by simp [EntrySet.raws]
    rcases (old x).mp member with first | last
    · have within := setsFrom_within before first
      omega
    · rcases count with ⟨whole, _⟩ | ⟨rfl, _⟩
      · have within := setsFrom_within after last
        omega
      · cases last
  refine ⟨⟨⟨before ++ .file set :: after, zeros'⟩, inside, ?_, fun x => ?_, fun plain raw used => ?_⟩, apart⟩
  · simp only [DirList.raws, List.flatMap_append, List.flatMap_cons, Piece.raws, List.append_assoc]
    rw [List.take_left, List.drop_append, List.drop_of_length_le (Nat.le_add_right _ _), List.nil_append,
      Nat.add_sub_cancel_left]
    rcases count with ⟨whole, rfl⟩ | ⟨rfl, most, total⟩
    · rw [List.drop_left' (length.trans whole)]
    · rw [List.flatMap_nil, List.nil_append, List.nil_append, List.drop_append, List.drop_of_length_le (by omega),
        List.nil_append, List.drop_replicate, length]
      congr 4
      omega
  · have new : x ∈ sets ⟨before ++ .file set :: after, zeros'⟩ ↔ x ∈ setsFrom 0 before ∨
        x = ((before.flatMap Piece.raws).length, set) ∨
          x ∈ setsFrom ((before.flatMap Piece.raws).length + spares.length) after := by
      rw [sets, setsFrom_append, Nat.zero_add, setsFrom, List.mem_append, List.mem_cons]
      rcases count with ⟨whole, _⟩ | ⟨rfl, _⟩
      · rw [whole]
      · rfl
    have here : x = ((before.flatMap Piece.raws).length, set) ↔ x.1 = (before.flatMap Piece.raws).length ∧
        some set = some x.2 := by
      rw [Prod.ext_iff, Option.some_inj, eq_comm (a := set)]
    rw [new, ← here]
    constructor
    · rintro (first | same | last)
      · exact .inl ⟨(old x).mpr (.inl first), apart x ((old x).mpr (.inl first))⟩
      · exact .inr same
      · exact .inl ⟨(old x).mpr (.inr last), apart x ((old x).mpr (.inr last))⟩
    · rintro (⟨member, _⟩ | same)
      · rcases (old x).mp member with first | last
        · exact .inl first
        · exact .inr (.inr last)
      · exact .inr (.inl same)
  · have absent := plain raw used
    simp only [List.mem_append, List.mem_cons, reduceCtorEq, false_or] at absent ⊢
    tauto

/-- A set gives way to pieces of the same length, among which there is at most one set, in its place. -/
theorem exists_exchange (member : (i, set) ∈ d.sets) {pieces : List Piece} {new : Option EntrySet}
    (length : (pieces.flatMap Piece.raws).length = set.raws.length)
    (sets : ∀ x, x ∈ setsFrom i pieces ↔ x.1 = i ∧ new = some x.2)
    (owned : ∀ raw used, Piece.other raw used ∉ pieces) :
    ∃ d', d.Edits d' i (pieces.flatMap Piece.raws) new := by
  have inside := within member
  have filled : 0 < set.raws.length := by simp [EntrySet.raws]
  obtain ⟨before, after, split, rfl⟩ := split member
  obtain ⟨_, zeros⟩ := d
  obtain rfl := split
  have apart : ∀ x, x ∈ setsFrom 0 before ∨
    x ∈ setsFrom ((before.flatMap Piece.raws).length + set.raws.length) after →
      x.1 ≠ (before.flatMap Piece.raws).length := by
    rintro x (first | last)
    · have within := setsFrom_within before first
      have filled : 0 < x.2.raws.length := by simp [EntrySet.raws]
      omega
    · have within := setsFrom_within after last
      omega
  refine ⟨⟨before ++ (pieces ++ after), zeros⟩, by rw [length]; exact inside, ?_, fun x => ?_,
    fun plain raw used => ?_⟩
  · simp only [DirList.raws, List.flatMap_append, List.flatMap_cons, Piece.raws, List.append_assoc]
    rw [List.take_left, List.drop_append, List.drop_of_length_le (Nat.le_add_right _ _), List.nil_append,
      Nat.add_sub_cancel_left, length, List.drop_left]
  · rw [DirList.sets, DirList.sets, setsFrom_append, setsFrom_append, setsFrom_append, Nat.zero_add, setsFrom, length]
    simp only [List.mem_append, List.mem_cons]
    rw [← sets]
    constructor
    · rintro (first | mid | last)
      · exact .inl ⟨.inl first, apart x (.inl first)⟩
      · exact .inr mid
      · exact .inl ⟨.inr (.inr last), apart x (.inr last)⟩
    · rintro (⟨first | rfl | last, other⟩ | mid)
      · exact .inl first
      · exact absurd rfl other
      · exact .inr (.inr last)
      · exact .inr (.inl mid)
  · have absent := plain raw used
    have new := owned raw used
    simp only [List.mem_append, List.mem_cons, reduceCtorEq, false_or] at absent ⊢
    tauto

/-- A set can be marked unused. -/
theorem exists_remove (member : (i, set) ∈ d.sets) : ∃ d', d.Edits d' i (set.raws.map cleared) none := by
  rw [← EntrySet.spares_raws]
  refine exists_exchange member (by rw [EntrySet.spares_raws, List.length_map]) (fun x => ?_) fun raw used other => ?_
  · rw [setsFrom_spares fun p member => set.spares_spare member]
    simp
  · cases set.spares_spare other

/-- A set can be rewritten by one of the same length. -/
theorem exists_replace (member : (i, set) ∈ d.sets) (length : set'.raws.length = set.raws.length) :
    ∃ d', d.Edits d' i set'.raws (some set') := by
  have raws : [Piece.file set'].flatMap Piece.raws = set'.raws := List.flatMap_singleton _ _
  rw [← raws]
  refine exists_exchange member (by rw [raws, length]) (fun x => ?_) fun raw used other => ?_
  · rw [setsFrom, setsFrom, List.mem_singleton, Prod.ext_iff, Option.some_inj, eq_comm (a := set')]
  · cases List.mem_singleton.mp other

/-- No number is that of two sets. -/
theorem sets_inj (first : (i, set) ∈ d.sets) (second : (i, set') ∈ d.sets) : set = set' :=
  setsFrom_inj d.pieces first second

end DirList

namespace EntrySet

variable {table : UpcaseTable} {name : List Char} {attributes : Option FileAttributes}

/-- The set has the name and, where they are asked for, the attributes. -/
def Named (set : EntrySet) (table : UpcaseTable) (name : List Char) (attributes : Option FileAttributes) : Prop :=
  table.key set.name = table.key name ∧
    ∀ required ∈ attributes, (FileDirEntry.ofRaw set.fileDir).fileAttributes.contains required = true

instance (set : EntrySet) (table : UpcaseTable) (name : List Char) (attributes : Option FileAttributes) :
    Decidable (set.Named table name attributes) :=
  inferInstanceAs (Decidable (_ ∧ _))

/-- The hash in the stream extension is that of the name. -/
def Hashed (set : EntrySet) (table : UpcaseTable) : Prop :=
  (StreamExtensionDirEntry.ofRaw set.stream).nameHash = exFatHash table (encodeUtf16 set.name)

theorem units_eq (set : EntrySet) : set.units = encodeUtf16 set.name := by
  have spelled := set.spelled
  rw [← set.nameLength] at spelled
  exact spelled

/-- With the right hash, a set passes the filter for a name exactly when it has it. -/
theorem Hashed.passes_iff {set : EntrySet} (hashed : set.Hashed table) :
    set.passes (exactNameFilter name (exFatHash table (encodeUtf16 name)) attributes (encodeUtf16 name).length)
      table = true ↔
      set.Named table name attributes := by
  refine (set.passes_iff (exFatHash table (encodeUtf16 name))).trans ?_
  rw [units_eq]
  refine ⟨And.right, fun named => ⟨?_, named⟩⟩
  exact (hashed.trans (exFatHash_congr named.1)).symm

end EntrySet

/-- A search goes past entries that cannot start a set. -/
theorem Progress.seeking_skipped {filter : DirectoryEntryFilter} {table : UpcaseTable} {place : Nat → Location}
    (raws : List RawDirEntry) :
    ∀ {k : Nat}, (∀ raw ∈ raws, DirectoryEntryChain.Skipped raw) →
      seeking.through filter table (placed place k raws) = .seeking := by
  induction raws with
  | nil => exact fun _ => rfl
  | cons raw raws ih =>
    intro k skipped
    have here := skipped raw List.mem_cons_self
    rw [placed, through_cons, step_seeking here.1 (not_end_of_byte here.2)]
    exact ih (List.forall_mem_of_forall_mem_cons skipped)

/-- A search through the pieces of a directory ends at the first set that passes. -/
theorem Progress.seeking_sets {filter : DirectoryEntryFilter} {table : UpcaseTable} {place : Nat → Location}
    (pieces : List Piece) :
    ∀ k : Nat, seeking.through filter table (placed place k (pieces.flatMap Piece.raws)) =
      match (setsFrom k pieces).find? fun x => x.2.passes filter table with
      | some x => .done (some (x.2.details (place x.1)))
      | none => .seeking := by
  induction pieces with
  | nil => exact fun k => rfl
  | cons p pieces ih =>
    intro k
    rw [List.flatMap_cons, placed_append, through_append]
    cases p with
    | spare raw unused =>
      rw [Piece.raws,
        seeking_skipped [raw] (List.forall_mem_singleton.mpr (DirectoryEntryChain.skipped_spare unused))]
      exact ih (k + 1)
    | other raw used =>
      rw [Piece.raws, seeking_skipped [raw] (List.forall_mem_singleton.mpr (DirectoryEntryChain.skipped_other used))]
      exact ih (k + 1)
    | file set =>
      have entries : set.raws = set.toNamedSet.raws ++ set.extras := rfl
      have extras : ∀ raw ∈ set.extras, DirectoryEntryChain.Skipped raw := fun raw member =>
        set.skipped_secondary (List.mem_append_right _ member)
      rw [Piece.raws, setsFrom, List.find?_cons, entries, placed_append, through_append, seeking_set]
      cases set.passes filter table with
      | false =>
        rw [if_neg Bool.false_ne_true, seeking_skipped set.extras extras, ← entries]
        exact ih (k + set.raws.length)
      | true =>
        rw [if_pos rfl, through_done, through_done]

/-- A search through a directory finds the first set that passes. -/
theorem DirList.search (d : DirList) (filter : DirectoryEntryFilter) (table : UpcaseTable) (place : Nat → Location) :
    searchSlots filter table (placed place 0 d.raws) =
      (d.sets.find? fun x => x.2.passes filter table).map fun x => x.2.details (place x.1) := by
  rw [searchSlots, raws, placed_append, Progress.through_append, Progress.seeking_sets, sets]
  cases (setsFrom 0 d.pieces).find? fun x => x.2.passes filter table with
  | some x => exact congrArg Progress.result (Progress.through_done _ _)
  | none =>
    have ended : ∀ zeros k,
        (Progress.seeking.through filter table (placed place k (List.replicate zeros zeroEntry))).result = none := by
      intro zeros k
      cases zeros with
      | zero => rfl
      | succ zeros =>
        have type : EntryType.ofByte (zeroEntry.byte 0) ≠ .fileAndDirectory := by decide
        rw [List.replicate_succ, placed, Progress.through_cons, Progress.step, if_neg type,
          if_pos isEndOfDirectory_zeroEntry,
          Progress.through_done]
        rfl
    exact ended _ _

end ExFatSlim
