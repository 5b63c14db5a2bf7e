import ExFatSlim.ReadBack

namespace ExFatSlim

open DirectoryEntryChain (nextFileDirEntry nextFileEntry nameEntries entryFrom nextFileEntry_eq next)

/-- How far a search through the entries of a directory has come: it is between entry sets,
right after a file entry, in the name of a set that has passed the filter so far, or at its end.
-/
inductive Progress where
  | seeking
  | begun (file : RawDirEntry) (place : Location)
  | naming (file : RawDirEntry) (place : Location) (stream : RawDirEntry) (units : List Nat)
  | done (found : Option FileDetails)

namespace Progress

variable {filter : DirectoryEntryFilter} {table : UpcaseTable}

/-- What one more entry does to a search. -/
def step (filter : DirectoryEntryFilter) (table : UpcaseTable) : Progress → DirSlot → Progress
  | .seeking, (raw, place) =>
    if EntryType.ofByte (raw.byte 0) = .fileAndDirectory then .begun raw place
    else if isEndOfDirectory raw then .done none
    else .seeking
  | .begun file place, (raw, _) =>
    if EntryType.ofByte (raw.byte 0) = .streamExtension then
      if filter.hash (StreamExtensionDirEntry.ofRaw raw).nameHash (FileDirEntry.ofRaw file).fileAttributes &&
          filter.fileNameLength (StreamExtensionDirEntry.ofRaw raw).nameLength then .naming file place raw []
      else .seeking
    else .done none
  | .naming file place stream units, (raw, _) =>
    if EntryType.ofByte (raw.byte 0) = .filename then
      let nameLength := (StreamExtensionDirEntry.ofRaw stream).nameLength
      let part := (fileNameOfRaw raw).take (min (nameLength - units.length) 15)
      if filter.fileName part units.length table then
        if (units ++ part).length = nameLength then .done (some (detailsOf file place stream))
        else .naming file place stream (units ++ part)
      else .seeking
    else .done none
  | .done found, _ => .done found

def result : Progress → Option FileDetails
  | .done found => found
  | _ => none

/-- A search that goes on through more entries. -/
def through (filter : DirectoryEntryFilter) (table : UpcaseTable) (p : Progress) (es : List DirSlot) : Progress :=
  es.foldl (step filter table) p

@[simp] theorem through_nil (p : Progress) : p.through filter table [] = p := rfl

@[simp] theorem through_cons (p : Progress) (e : DirSlot) (es : List DirSlot) :
    p.through filter table (e :: es) = (p.step filter table e).through filter table es := rfl

theorem through_append (p : Progress) (es es' : List DirSlot) :
    p.through filter table (es ++ es') = (p.through filter table es).through filter table es' := List.foldl_append

@[simp] theorem through_done (found : Option FileDetails) (es : List DirSlot) :
    (Progress.done found).through filter table es = .done found := by
  induction es with
  | nil => rfl
  | cons e es ih => exact ih

end Progress

/-- The first entry set among the entries that passes a filter, as `next_file_entry` finds it. -/
def searchSlots (filter : DirectoryEntryFilter) (table : UpcaseTable) (es : List DirSlot) : Option FileDetails :=
  (Progress.seeking.through filter table es).result

/-- An entry with a zero in front is the end marker, or is skipped. -/
theorem isEnd_byte {raw : RawDirEntry} (all : isEndOfDirectory raw = true) : raw.byte 0 = 0 := by
  by_contra some_
  rw [not_end_of_byte some_] at all
  cases all

namespace DirectoryEntryChain

open Scan Progress

variable {size n : Nat} {home : Nat → CacheKind} {v : Volume size} {filter : DirectoryEntryFilter}

/-- `next_file_dir_entry` goes on to the next file entry, if there is one before the end. -/
theorem nextFileDirEntry_through (fuel : Nat) : ∀ {es : List DirSlot} {s : Scan size n},
    Visits home v isEndOfDirectory es s → es.length < fuel →
    (∃ raw place rest s', nextFileDirEntry fuel s = (.ok (some (.ofRaw raw, place)), s') ∧ rest.length < es.length ∧
      seeking.through filter v.setup.upcaseTable es = (begun raw place).through filter v.setup.upcaseTable rest ∧
      Visits home v isEndOfDirectory rest s') ∨
    ∃ s', nextFileDirEntry fuel s = (.ok none, s') ∧ s'.Shows home v ∧
      (seeking.through filter v.setup.upcaseTable es).result = none := by
  induction fuel with
  | zero => exact fun _ enough => absurd enough (Nat.not_lt_zero _)
  | succ fuel ih =>
    intro es s visits enough
    cases visits with
    | ended _ run shows =>
      refine Or.inr ⟨_, ?_, shows, rfl⟩
      rw [nextFileDirEntry, Exec.bind_of_ok run]
      rfl
    | @stopped _ s' e es _ run shows halt =>
      have zero := isEnd_byte halt
      refine Or.inr ⟨s', ?_, shows, ?_⟩
      · rw [nextFileDirEntry, Exec.bind_of_ok run]
        dsimp only
        rw [EntryType.ofByte_zero.mpr zero]
        dsimp only
        rw [if_pos halt]
        rfl
      · have ended : seeking.step filter v.setup.upcaseTable e = .done none := by
          rw [step, EntryType.ofByte_zero.mpr zero, if_neg (by simp), if_pos halt]
        rw [through_cons, ended, through_done, result]
    | @visited _ s' e es _ run going visits =>
      rw [List.length_cons] at enough
      by_cases file : EntryType.ofByte (e.1.byte 0) = .fileAndDirectory
      · refine Or.inl ⟨e.1, e.2, es, s', ?_, Nat.lt_succ_self _, ?_, visits⟩
        · rw [nextFileDirEntry, Exec.bind_of_ok run]
          dsimp only
          rw [file]
          rfl
        · rw [through_cons, step, if_pos file]
      · have skips : nextFileDirEntry (fuel + 1) s = nextFileDirEntry fuel s' := by
          rw [nextFileDirEntry, Exec.bind_of_ok run]
          dsimp only
          cases type : EntryType.ofByte (e.1.byte 0) with
          | endOfDirectory =>
            dsimp only
            rw [going]
            rfl
          | fileAndDirectory => exact absurd type file
          | _ => rfl
        have same : seeking.step filter v.setup.upcaseTable e = .seeking := by
          rw [step, if_neg file, going]
          rfl
        rw [through_cons, same, skips]
        rcases ih visits (by omega) with ⟨raw, place, rest, t, found, shorter, later⟩ | none_
        · exact Or.inl ⟨raw, place, rest, t, found, by rw [List.length_cons]; omega, later⟩
        · exact Or.inr none_

/-- How `next_file_entry` goes through the name entries of a set: the set ends too early, it
does not pass the filter, or it is the one. -/
theorem nameEntries_through {file stream : RawDirEntry} {place : Location} (rounds : Nat) :
    ∀ {units : List Nat} {es : List DirSlot}
    {s : Scan size n}, units.length ≤ (StreamExtensionDirEntry.ofRaw stream).nameLength →
    (StreamExtensionDirEntry.ofRaw stream).nameLength - units.length < rounds → Visits home v isEndOfDirectory es s →
    (units.length < (StreamExtensionDirEntry.ofRaw stream).nameLength ∨ units = []) →
    (∃ s', nameEntries filter (StreamExtensionDirEntry.ofRaw stream).nameLength rounds units s = (.ok none, s') ∧
      s'.Shows home v ∧
      ((naming file place stream units).through filter v.setup.upcaseTable es).result = none) ∨
    (∃ rest s', nameEntries filter (StreamExtensionDirEntry.ofRaw stream).nameLength rounds units s =
      (.ok (some none), s') ∧
      rest.length < es.length ∧ (naming file place stream units).through filter v.setup.upcaseTable es =
        seeking.through filter v.setup.upcaseTable rest ∧ Visits home v isEndOfDirectory rest s') ∨
    ∃ name s', nameEntries filter (StreamExtensionDirEntry.ofRaw stream).nameLength rounds units s =
      (.ok (some (some name)), s') ∧
      s'.Shows home v ∧ (naming file place stream units).through filter v.setup.upcaseTable es =
        .done (some (detailsOf file place stream)) := by
  generalize known : (StreamExtensionDirEntry.ofRaw stream).nameLength = nameLength
  induction rounds with
  | zero => exact fun _ enough => absurd enough (Nat.not_lt_zero _)
  | succ rounds ih =>
    intro units es s most enough visits more
    cases visits with
    | ended _ run shows =>
      refine Or.inl ⟨_, ?_, shows, rfl⟩
      rw [nameEntries, Exec.bind_of_ok run]
      rfl
    | @stopped _ s' e es _ run shows halt =>
      have other : EntryType.ofByte (e.1.byte 0) ≠ .filename := by
        rw [EntryType.ofByte_zero.mpr (isEnd_byte halt)]
        simp
      refine Or.inl ⟨s', ?_, shows, ?_⟩
      · rw [nameEntries, Exec.bind_of_ok run]
        dsimp only
        rw [if_neg other]
        rfl
      · rw [through_cons, step, if_neg other, through_done, result]
    | @visited _ s' e es _ run going visits =>
      by_cases name : EntryType.ofByte (e.1.byte 0) = .filename
      · have table : s'.fs.upcaseTable = v.setup.upcaseTable :=
          congrArg (fun v : Volume size => v.setup.upcaseTable) visits.shows.volume
        rw [nameEntries, Exec.bind_of_ok run, through_cons, step, if_pos name, known]
        dsimp only
        rw [if_pos name, Exec.bind_of_ok (Exec.get_apply s'), table]
        have length := length_namePart e.1 (nameLength - units.length)
        generalize (fileNameOfRaw e.1).take (min (nameLength - units.length) 15) = part at length ⊢
        by_cases passes : filter.fileName part units.length v.setup.upcaseTable = true
        · rw [if_pos passes, if_pos passes]
          by_cases whole : (units ++ part).length = nameLength
          · rw [if_pos whole, if_pos whole]
            exact Or.inr (Or.inr ⟨_, s', rfl, visits.shows, through_done _ _⟩)
          · rw [if_neg whole, if_neg whole]
            rw [List.length_append] at whole
            have later :=
              @ih (units ++ part) _ _ (by rw [List.length_append]; omega) (by rw [List.length_append]; omega) visits
              (Or.inl (by rw [List.length_append]; omega))
            rcases later with first | ⟨rest, t, second, shorter, same⟩ | third
            · exact Or.inl first
            · exact Or.inr (Or.inl ⟨rest, t, second, by rw [List.length_cons]; omega, same⟩)
            · exact Or.inr (Or.inr third)
        · rw [if_neg passes, if_neg passes]
          exact Or.inr (Or.inl ⟨es, s', rfl, Nat.lt_succ_self _, rfl, visits⟩)
      · refine Or.inl ⟨s', ?_, visits.shows, ?_⟩
        · rw [nameEntries, Exec.bind_of_ok run]
          dsimp only
          rw [if_neg name]
          rfl
        · rw [through_cons, step, if_neg name, through_done, result]

/-- `next_file_entry` reports the first entry set that passes the filter. -/
theorem nextFileEntry_search (fuel : Nat) :
    ∀ {es : List DirSlot} {s : Scan size n}, Visits home v isEndOfDirectory es s →
    es.length < fuel → ∃ s', nextFileEntry filter none fuel s =
      (.ok ((searchSlots filter v.setup.upcaseTable es).map fun details => (details, [])), s') ∧ s'.Shows home v := by
  induction fuel with
  | zero => exact fun _ enough => absurd enough (Nat.not_lt_zero _)
  | succ fuel ih =>
    intro es s visits enough
    rw [nextFileEntry_eq, searchSlots]
    rcases @nextFileDirEntry_through _ _ _ _ filter (fuel + 1) _ _ visits enough with
      ⟨raw, place, rest, s₁, run₁, shorter, same, visits₁⟩ | ⟨s₁, run₁, shows, none_⟩
    · rw [Exec.bind_of_ok run₁, same, entryFrom]
      cases visits₁ with
      | ended _ run shows =>
        rw [Exec.bind_of_ok run]
        exact ⟨_, rfl, shows⟩
      | @stopped _ s₂ e es₂ _ run shows halt =>
        have other : EntryType.ofByte (e.1.byte 0) ≠ .streamExtension := by
          rw [EntryType.ofByte_zero.mpr (isEnd_byte halt)]
          simp
        rw [Exec.bind_of_ok run, through_cons, step, if_neg other, through_done]
        dsimp only
        rw [if_neg other]
        exact ⟨s₂, rfl, shows⟩
      | @visited _ s₂ e es₂ _ run going visits₂ =>
        rw [List.length_cons] at shorter
        rw [Exec.bind_of_ok run, through_cons, step]
        dsimp only
        by_cases stream : EntryType.ofByte (e.1.byte 0) = .streamExtension
        · rw [if_pos stream, if_pos stream]
          cases hash : filter.hash (StreamExtensionDirEntry.ofRaw e.1).nameHash
            (FileDirEntry.ofRaw raw).fileAttributes with
          | false => exact ih visits₂ (by omega)
          | true =>
            cases length : filter.fileNameLength (StreamExtensionDirEntry.ofRaw e.1).nameLength with
            | false => exact ih visits₂ (by omega)
            | true =>
              have names :=
                @nameEntries_through _ _ _ _ filter raw e.1 place
                ((StreamExtensionDirEntry.ofRaw e.1).nameLength + 1) [] _ _
                (Nat.zero_le _) (by simp) visits₂ (Or.inr rfl)
              rcases names with ⟨s₃, run₃, shows, none_⟩ | ⟨rest₃, s₃, run₃, shorter₃, same₃, visits₃⟩ |
                ⟨name, s₃, run₃, shows, found⟩
              · rw [if_neg (by simp), if_neg (by simp), Exec.bind_of_ok run₃, Bool.and_self, if_pos rfl, none_]
                exact ⟨s₃, rfl, shows⟩
              · rw [if_neg (by simp), if_neg (by simp), Exec.bind_of_ok run₃, Bool.and_self, if_pos rfl, same₃]
                exact ih visits₃ (by omega)
              · rw [if_neg (by simp), if_neg (by simp), Exec.bind_of_ok run₃, Bool.and_self, if_pos rfl, found]
                exact ⟨s₃, rfl, shows⟩
        · rw [if_neg stream, if_neg stream, through_done]
          exact ⟨s₂, rfl, visits₂.shows⟩
    · rw [Exec.bind_of_ok run₁, none_]
      exact ⟨s₁, rfl, shows⟩

end DirectoryEntryChain

section Names

variable {σ : Type}

theorem hashByte_fst (hash byte : Nat) (s : σ) :
    (hashByte hash byte : ExFat σ Nat) s = (((hashByte hash byte : ExFat Unit Nat) ()).1, s) := by
  unfold hashByte
  generalize (if hash % 2 = 1 then 0x8000 else 0) + hash / 2 + byte = sum
  unfold u16
  split <;> rfl

theorem hashUnits_fst (table : UpcaseTable) (units : List Nat) : ∀ (hash : Nat) (s : σ),
    (hashUnits table units hash : ExFat σ Nat) s = (((hashUnits table units hash : ExFat Unit Nat) ()).1, s) := by
  induction units with
  | nil => exact fun _ _ => rfl
  | cons c units ih =>
    intro hash s
    rw [hashUnits, hashUnits]
    cases illegal : isIllegalNameChar c with
    | true => rfl
    | false =>
      have second : ∀ hash, ((hashByte hash (table.upcase c / 256 % 256) >>= hashUnits table units : ExFat σ Nat) s) =
          (((hashByte hash (table.upcase c / 256 % 256) >>= hashUnits table units : ExFat Unit Nat) ()).1, s) := by
        intro hash
        rw [Exec.bind_apply, Exec.bind_apply, hashByte_fst]
        rcases (hashByte hash (table.upcase c / 256 % 256) : ExFat Unit Nat) () with ⟨e | next, ⟨⟩⟩
        · rfl
        · exact ih next s
      have both : (hashByte hash (table.upcase c % 256) >>= fun hash =>
            hashByte hash (table.upcase c / 256 % 256) >>= hashUnits table units : ExFat σ Nat) s =
          (((hashByte hash (table.upcase c % 256) >>= fun hash =>
            hashByte hash (table.upcase c / 256 % 256) >>= hashUnits table units : ExFat Unit Nat) ()).1, s) := by
        rw [Exec.bind_apply, Exec.bind_apply, hashByte_fst]
        rcases (hashByte hash (table.upcase c % 256) : ExFat Unit Nat) () with ⟨e | next, ⟨⟩⟩
        · rfl
        · exact second next
      exact both

/-- What `encode_utf16_upcase_and_hash` makes of a name. -/
def hashedName (table : UpcaseTable) (name : List Char) : Except (Fault ExFatError) (Nat × Nat) :=
  ((encodeUtf16UpcaseAndHash name table : ExFat Unit (Nat × Nat)) ()).1

theorem encodeUtf16UpcaseAndHash_run (name : List Char) (table : UpcaseTable) (s : σ) :
    (encodeUtf16UpcaseAndHash name table : ExFat σ (Nat × Nat)) s = (hashedName table name, s) := by
  rw [hashedName, encodeUtf16UpcaseAndHash, encodeUtf16UpcaseAndHash]
  by_cases reserved : name = ['.'] ∨ name = ['.', '.']
  · rw [if_pos reserved, if_pos reserved]
    rfl
  · rw [if_neg reserved, if_neg reserved]
    dsimp only
    rw [Exec.bind_apply, Exec.bind_apply, hashUnits_fst]
    rcases (hashUnits table (encodeUtf16 name) 0 : ExFat Unit Nat) () with ⟨e | hash, ⟨⟩⟩
    · rfl
    · by_cases none_ : (encodeUtf16 name).length = 0
      · simp only [if_pos none_]
        rfl
      · simp only [if_neg none_]
        rfl

end Names

/-- An entry set that a filter has let pass so far, among the entries that a search has been through. -/
structure Met (filter : DirectoryEntryFilter) (es : List DirSlot) (file : RawDirEntry) (place : Location)
    (stream : RawDirEntry) : Prop where
  found : ∃ before after streamPlace, es = before ++ (file, place) :: (stream, streamPlace) :: after
  isFile : EntryType.ofByte (file.byte 0) = .fileAndDirectory
  isStream : EntryType.ofByte (stream.byte 0) = .streamExtension
  hash : filter.hash (StreamExtensionDirEntry.ofRaw stream).nameHash (FileDirEntry.ofRaw file).fileAttributes = true
  length : filter.fileNameLength (StreamExtensionDirEntry.ofRaw stream).nameLength = true

theorem Met.more {filter : DirectoryEntryFilter} {es : List DirSlot} {file stream : RawDirEntry} {place : Location}
    (met : Met filter es file place stream) (e : DirSlot) : Met filter (es ++ [e]) file place stream := by
  obtain ⟨⟨before, after, streamPlace, rfl⟩, isFile, isStream, hash, length⟩ := met
  exact ⟨⟨before, after ++ [e], streamPlace, by simp⟩, isFile, isStream, hash, length⟩

namespace Progress

variable {filter : DirectoryEntryFilter} {table : UpcaseTable}

/-- What a search knows of the entries behind it. -/
def Behind (filter : DirectoryEntryFilter) (es : List DirSlot) : Progress → Prop
  | .seeking => True
  | .begun file place => EntryType.ofByte (file.byte 0) = .fileAndDirectory ∧ ∃ before, es = before ++ [(file, place)]
  | .naming file place stream _ => Met filter es file place stream
  | .done none => True
  | .done (some details) => ∃ file place stream, Met filter es file place stream ∧
    details = detailsOf file place stream

theorem step_behind {p : Progress} {es : List DirSlot} (behind : p.Behind filter es) (e : DirSlot) :
    (p.step filter table e).Behind filter (es ++ [e]) := by
  cases p with
  | seeking =>
    rw [step]
    split
    · rename_i file
      exact ⟨file, es, rfl⟩
    · split <;> trivial
  | begun file place =>
    obtain ⟨isFile, before, rfl⟩ := behind
    rw [step]
    split
    · rename_i isStream
      split
      · rename_i passes
        rw [Bool.and_eq_true] at passes
        exact ⟨⟨before, [], e.2, by simp⟩, isFile, isStream, passes.1, passes.2⟩
      · trivial
    · trivial
  | naming file place stream units =>
    have more := Met.more behind e
    rw [step]
    split
    · dsimp only
      split
      · split
        · exact ⟨file, place, stream, more, rfl⟩
        · exact more
      · trivial
    · trivial
  | done found =>
    cases found with
    | none => trivial
    | some details =>
      obtain ⟨file, place, stream, met, same⟩ := behind
      exact ⟨file, place, stream, met.more e, same⟩

theorem through_behind (es : List DirSlot) : (seeking.through filter table es).Behind filter es := by
  induction es using List.reverseRecOn with
  | nil => trivial
  | append_singleton es e ih =>
    rw [through_append]
    exact step_behind ih e

end Progress

/-- What a search finds is an entry set of the directory that passes the filter. -/
theorem searchSlots_met {filter : DirectoryEntryFilter} {table : UpcaseTable} {es : List DirSlot}
    {details : FileDetails}
    (found : searchSlots filter table es = some details) :
    ∃ file place stream, Met filter es file place stream ∧ details = detailsOf file place stream := by
  have behind := @Progress.through_behind filter table es
  rw [searchSlots] at found
  cases outcome : Progress.seeking.through filter table es with
  | done r =>
    rw [outcome] at found behind
    cases found
    exact behind
  | _ =>
    rw [outcome] at found
    cases found

namespace Volume

variable {size : Nat} {home : Nat → CacheKind} {v : Volume size} {c : Nat} {cs : List Nat}

/-- A directory: the FAT leads from its first cluster through all of them. -/
structure Directory (home : Nat → CacheKind) (v : Volume size) (first : Nat) (cs : List Nat) : Prop where
  head : cs.head? = some first
  threads : v.Threads cs
  distinct : cs.Nodup
  inHeap : ∀ c ∈ cs, v.InHeap c
  used : ∀ c ∈ cs, ¬ v.IsFree c
  data : ∀ c ∈ cs, v.IsData home c

/-- What a lookup of a name in a directory finds. -/
def lookup (v : Volume size) (cs : List Nat) (name : List Char) (attributes : Option FileAttributes) :
    Except (Fault ExFatError) (Option FileDetails) :=
  (hashedName v.setup.upcaseTable name).map fun hashed =>
    searchSlots (exactNameFilter name hashed.1 attributes hashed.2) v.setup.upcaseTable (v.dirEntries cs)

theorem length_dirEntries (v : Volume size) (cs : List Nat) :
    (v.dirEntries cs).length = cs.length * v.clusterSlots := by
  induction cs with
  | nil => rw [dirEntries, List.flatMap_nil, List.length_nil, List.length_nil, Nat.zero_mul]
  | cons c cs ih =>
    rw [dirEntries_cons, List.length_append, ih, List.length_cons, Nat.succ_mul, dirSlots, List.length_map,
      List.length_range, Nat.add_comm]

/-- No directory has more entries. -/
def mostSlots (v : Volume size) : Nat := v.setup.bitmap.clusterCount * v.clusterSlots

theorem Directory.length_le (dir : v.Directory home c cs) : (v.dirEntries cs).length ≤ v.mostSlots := by
  rw [length_dirEntries]
  exact Nat.mul_le_mul_right _ (File.length_le_heap dir.distinct dir.inHeap)

/-- A directory that is looked for is one. -/
theorem lookup_directory {name : List Char} {details : FileDetails}
    (found : v.lookup cs name (some attrDirectory) = .ok (some details)) :
    details.attributes.contains attrDirectory = true := by
  rw [lookup] at found
  cases hashed : hashedName v.setup.upcaseTable name with
  | error e =>
    rw [hashed] at found
    cases found
  | ok pair =>
    rw [hashed] at found
    obtain ⟨file, place, stream, met, rfl⟩ := searchSlots_met (Except.ok.inj found)
    have passes := met.hash
    simp only [exactNameFilter, Bool.and_eq_true] at passes
    exact passes.2

/-- Where a path leads from the directory with the given first cluster, part by part. -/
inductive Leaf (home : Nat → CacheKind) (v : Volume size) (attributes : Option FileAttributes) :
    List (List Char) → Nat → Except (Fault ExFatError) (Option FileDetails) → Prop
  | nowhere (c : Nat) : Leaf home v attributes [] c (.ok none)
  | last {c : Nat} {cs : List Nat} (part : List Char) :
    v.Directory home c cs → Leaf home v attributes [part] c (v.lookup cs part attributes)
  | failed {c : Nat} {cs : List Nat} {part next : List Char} {rest : List (List Char)} {e : Fault ExFatError} :
      v.Directory home c cs → v.lookup cs part (some attrDirectory) = .error e →
        Leaf home v attributes (part :: next :: rest) c (.error e)
  | missing {c : Nat} {cs : List Nat} {part next : List Char} {rest : List (List Char)} : v.Directory home c cs →
      v.lookup cs part (some attrDirectory) = .ok none → Leaf home v attributes (part :: next :: rest) c (.ok none)
  | into {c : Nat} {cs : List Nat} {part next : List Char} {rest : List (List Char)} {details : FileDetails}
      {r : Except (Fault ExFatError) (Option FileDetails)} : v.Directory home c cs →
      v.lookup cs part (some attrDirectory) = .ok (some details) →
        Leaf home v attributes (next :: rest) details.firstCluster r →
      Leaf home v attributes (part :: next :: rest) c r

end Volume

/-- A reader at the start of a chain visits the entries of all of its clusters, as far as nothing stops it. -/
theorem Scan.Enters.visits_threads {size n : Nat} {home : Nat → CacheKind} {v : Volume size}
    (room : rawEntryLen ≤ size)
    (layout : Layout size home v.setup) (stop : RawDirEntry → Bool) (cs : List Nat) : ∀ {c : Nat} {s : Scan size n},
    Enters home v c s → v.Threads (c :: cs) → (∀ d ∈ c :: cs, v.InHeap d) → (∀ d ∈ c :: cs, v.IsData home d) →
    Visits home v stop (v.dirEntries (c :: cs)) s := by
  induction cs with
  | nil =>
    intro c s enters threads inHeap data
    have here := inHeap c List.mem_cons_self
    rw [Volume.dirEntries_cons]
    refine enters.visits room layout here (data c List.mem_cons_self) fun _ s' stands unlimited => ?_
    obtain ⟨s'', run, shows⟩ := stands.next_stops room layout (free_of_unlimited unlimited) here (threads.ended c rfl)
    exact .ended stands.toShows run shows
  | cons d ds ih =>
    intro c s enters threads inHeap data
    have here := inHeap c List.mem_cons_self
    have later := List.forall_mem_of_forall_mem_cons inHeap
    have dataLater := List.forall_mem_of_forall_mem_cons data
    have threads' : v.Threads (d :: ds) := ⟨(List.isChain_cons_cons.mp threads.linked).2, fun e final =>
      threads.ended e (by rw [List.getLast?_cons_cons]; exact final)⟩
    rw [Volume.dirEntries_cons]
    refine enters.visits room layout here (data c List.mem_cons_self) fun _ s' stands unlimited => ?_
    exact ih (stands.enters room layout unlimited here (threads.next_eq (j := 0) rfl) (later d List.mem_cons_self)
      (dataLater d List.mem_cons_self)) threads' later dataLater

namespace FileSystem

open Volume

variable {size n : Nat} {home : Nat → CacheKind} {fs : FileSystem size n} {c fuel : Nat} {cs : List Nat}

section Sound

variable (room : rawEntryLen ≤ size)

include room

theorem Directory.visits {v : Volume size} (layout : Layout size home v.setup) (dir : v.Directory home c cs)
    (sound : fs.Sound home)
    (shown : fs.volume home = v) (stop : RawDirEntry → Bool) :
    Scan.Visits home v stop (v.dirEntries cs) (⟨fs, .new c fs.fs⟩ : Scan size n) := by
  obtain ⟨d, ds, rfl⟩ : ∃ d ds, cs = d :: ds := List.exists_cons_of_ne_nil (by
    rintro rfl
    cases dir.head)
  have first : d = c := Option.some.inj dir.head
  subst first
  have enters :=
    Scan.new_enters room layout sound shown (dir.inHeap d List.mem_cons_self) (dir.data d List.mem_cons_self)
  exact enters.visits_threads room layout stop ds dir.threads dir.inHeap dir.data

theorem lookupIn_leads (sound : fs.Sound home) (layout : Layout size home fs.setup)
    (dir : (fs.volume home).Directory home c cs)
    (enough : (fs.volume home).mostSlots < fuel) (name : List Char) (attributes : Option FileAttributes) :
    FileSystem.Leads home (lookupIn fuel c name attributes) fs ((fs.volume home).lookup cs name attributes)
      (fs.volume home) := by
  have run : (newExactNameFilter name fs.upcaseTable attributes : ExFat (FileSystem size n) _) fs =
      ((hashedName fs.upcaseTable name).map fun hashed => exactNameFilter name hashed.1 attributes hashed.2, fs) := by
    rw [newExactNameFilter, Exec.bind_apply, encodeUtf16UpcaseAndHash_run]
    rcases hashedName fs.upcaseTable name with e | ⟨hash, count⟩ <;> rfl
  refine .get ?_
  rw [lookup]
  have table : (fs.volume home).setup.upcaseTable = fs.upcaseTable := rfl
  rw [table]
  cases hashed : hashedName fs.upcaseTable name with
  | error e =>
    rw [hashed] at run
    exact .bind_error (.of_run run sound rfl)
  | ok pair =>
    rw [hashed] at run
    refine .step run ?_
    obtain ⟨s', search, shows⟩ := @DirectoryEntryChain.nextFileEntry_search _ _ _ _
      (exactNameFilter name pair.1 attributes pair.2) fuel _ _
        (Directory.visits room layout dir sound rfl isEndOfDirectory)
      (lt_of_le_of_lt dir.length_le enough)
    have scanned : scanning (.new c fs.fs)
      (DirectoryEntryChain.nextFileEntry (exactNameFilter name pair.1 attributes pair.2)
        none fuel) fs = (_, s'.fs) := scanning_of_run search
    refine .of_run ((Exec.bind_of_ok scanned).trans ?_) shows.sound shows.volume
    rw [Option.map_map]
    simp only [Function.comp_def, Option.map_id', Except.map]
    rfl

theorem leafFrom_leads {attributes : Option FileAttributes} {parts : List (List Char)}
    {r : Except (Fault ExFatError) (Option FileDetails)}
    {v : Volume size} (layout : Layout size home v.setup) (enough : v.mostSlots < fuel)
    (leaf : v.Leaf home attributes parts c r) :
    ∀ {fs : FileSystem size n}, fs.Sound home → fs.volume home = v →
      FileSystem.Leads home (leafFrom fuel attributes parts c) fs r v := by
  induction leaf with
  | nowhere c =>
    intro fs sound shown
    exact .of_run rfl sound shown
  | last part dir =>
    intro fs sound shown
    subst shown
    exact lookupIn_leads room sound layout dir enough part attributes
  | @failed _ _ part _ _ _ dir failed =>
    intro fs sound shown
    subst shown
    have found := lookupIn_leads room sound layout dir enough part (some attrDirectory)
    rw [failed] at found
    exact found.bind_error
  | @missing _ _ part _ _ dir missing =>
    intro fs sound shown
    subst shown
    have found := lookupIn_leads room sound layout dir enough part (some attrDirectory)
    rw [missing] at found
    exact found.bind fun fs' sound' shown' => .of_run rfl sound' shown'
  | @into _ _ part _ _ _ _ dir here _ ih =>
    intro fs sound shown
    subst shown
    have found := lookupIn_leads room sound layout dir enough part (some attrDirectory)
    rw [here] at found
    refine found.bind fun fs' sound' shown' => ?_
    dsimp only
    rw [if_pos (lookup_directory here)]
    exact ih sound' shown'

theorem findFileInner_leads (sound : fs.Sound home) (layout : Layout size home fs.setup)
    (enough : (fs.volume home).mostSlots < fuel)
    {attributes : Option FileAttributes} {path : List Char} {found : Option FileDetails}
    (leaf : (fs.volume home).Leaf home attributes (pathToIter path) fs.fs.firstClusterOfRootDir (.ok found)) :
    FileSystem.Leads home (findFileInner fuel path attributes) fs
      (match found with
        | some details => .ok details
        | none => .error (.error .fileNotFound)) (fs.volume home) := by
  have walked : FileSystem.Leads home (getLeafFileEntry fuel path attributes) fs (.ok found) (fs.volume home) :=
    .get (leafFrom_leads room layout enough leaf sound rfl)
  refine walked.bind fun fs' sound' shown' => ?_
  cases found with
  | some details => exact .of_run rfl sound' shown'
  | none => exact .of_run rfl sound' shown'

end Sound

end FileSystem

end ExFatSlim
