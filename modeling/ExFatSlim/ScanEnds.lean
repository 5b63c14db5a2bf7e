import ExFatSlim.Lib.Pulls
import ExFatSlim.Lookup

namespace ExFatSlim

open Exec (Pulls Drains IsResult)
open DirectoryEntryChain (next nextFileDirEntry nextFileEntry nameEntries entryFrom nextFileEntry_eq)

/-- Entries that stop the search for a file entry: one of them is a file entry or the end marker. -/
def FileStop (es : List DirSlot) : Prop :=
  ∃ e ∈ es, isEndOfDirectory e.1 = true ∨ EntryType.ofByte (e.1.byte 0) = .fileAndDirectory

/-- Entries that stop the search for children. -/
def ChildStop (es : List DirSlot) : Prop := ∃ e ∈ es, isEndOfDirectory e.1 = true ∨ InUse e.1

/-- The entry with this number is there and is not in use. -/
def FreeAt (es : List DirSlot) (k : Nat) : Prop := ∃ e, es[k]? = some e ∧ ¬ InUse e.1

/-- Entries that stop the search for room: so many in a row are not in use. -/
def RoomStop (len : Nat) (es : List DirSlot) : Prop := 0 < len ∧ ∃ k, ∀ j < len, FreeAt es (k + j)

/-- Entries that stop the search for an entry set. -/
def SetStop (filter : DirectoryEntryFilter) (table : UpcaseTable) (es : List DirSlot) : Prop :=
  ∃ found, Progress.seeking.through filter table es = .done found

section Stops

variable {p : DirSlot → Prop} {e : DirSlot} {es : List DirSlot}

theorem exists_mem_append_left (es' : List DirSlot) : (∃ e ∈ es, p e) → ∃ e ∈ es ++ es', p e := by
  rintro ⟨e, member, here⟩
  exact ⟨e, List.mem_append_left es' member, here⟩

theorem exists_mem_cons_of_not (none_ : ¬ ∃ d ∈ [e], p d) : (∃ d ∈ [e] ++ es, p d) ↔ ∃ d ∈ es, p d := by
  rw [List.singleton_append, List.exists_mem_cons_iff]
  exact or_iff_right fun here => none_ ⟨e, List.mem_singleton_self e, here⟩

end Stops

namespace DirectoryEntryChain

variable {size n : Nat} {s t : Scan size n} {fuel : Nat}

/-- How far `next_file_dir_entry` comes, and where it leaves the reader. -/
inductive Sought (fuel : Nat) (s : Scan size n) :
    Except (Fault ExFatError) (Option (FileDirEntry × Location)) → Scan size n → Prop
  | spent {es : List DirSlot} {t : Scan size n} : Pulls next es s t → ¬ FileStop es → fuel ≤ es.length →
      Sought fuel s (.error .diverge) t
  | failed {es : List DirSlot} {t t' : Scan size n} {f : Fault ExFatError} : Pulls next es s t → ¬ FileStop es →
      next t = (.error f, t') → Sought fuel s (.error f) t'
  | ended {es : List DirSlot} {t t' : Scan size n} : Pulls next es s t → ¬ FileStop es → next t = (.ok none, t') →
      Sought fuel s (.ok none) t'
  | marked {es : List DirSlot} {e : DirSlot} {t : Scan size n} : Pulls next (es ++ [e]) s t → ¬ FileStop es →
      isEndOfDirectory e.1 = true → Sought fuel s (.ok none) t
  | found {es : List DirSlot} {e : DirSlot} {t : Scan size n} : Pulls next (es ++ [e]) s t → ¬ FileStop es →
      EntryType.ofByte (e.1.byte 0) = .fileAndDirectory → Sought fuel s (.ok (some (.ofRaw e.1, e.2))) t

theorem Sought.cons {e : DirSlot} {s' : Scan size n}
    {r : Except (Fault ExFatError) (Option (FileDirEntry × Location))}
    (run : next s = (.ok (some e), s')) (going : ¬ FileStop [e]) (sought : Sought fuel s' r t) :
    Sought (fuel + 1) s r t := by
  have more : ∀ {es : List DirSlot}, ¬ FileStop es → ¬ FileStop (e :: es) :=
    fun rest => mt (exists_mem_cons_of_not going).mp rest
  cases sought with
  | spent pulls rest enough => exact .spent (pulls.cons run) (more rest) (Nat.succ_le_succ enough)
  | failed pulls rest fault => exact .failed (pulls.cons run) (more rest) fault
  | ended pulls rest none_ => exact .ended (pulls.cons run) (more rest) none_
  | marked pulls rest halt => exact .marked (pulls.cons run) (more rest) halt
  | found pulls rest file => exact .found (pulls.cons run) (more rest) file

theorem not_fileStop_nil : ¬ FileStop [] := by rintro ⟨e, member, _⟩; cases member

theorem nextFileDirEntry_sought (fuel : Nat) :
    ∀ s : Scan size n, Sought fuel s (nextFileDirEntry fuel s).1 (nextFileDirEntry fuel s).2 := by
  induction fuel with
  | zero => exact fun s => .spent (.nil s) not_fileStop_nil (Nat.le_refl 0)
  | succ fuel ih =>
    intro s
    rw [nextFileDirEntry, Exec.bind_apply]
    rcases run : next s with ⟨f | _ | e, s'⟩
    · exact .failed (.nil s) not_fileStop_nil run
    · exact .ended (.nil s) not_fileStop_nil run
    · have pulls : Pulls next ([] ++ [e]) s s' := .one run
      by_cases file : EntryType.ofByte (e.1.byte 0) = .fileAndDirectory
      · dsimp only
        rw [file]
        exact .found pulls not_fileStop_nil file
      · by_cases halt : isEndOfDirectory e.1 = true
        · dsimp only
          rw [EntryType.ofByte_zero.mpr (isEnd_byte halt)]
          dsimp only
          rw [if_pos halt]
          exact .marked pulls not_fileStop_nil halt
        · have going : ¬ FileStop [e] := by
            rintro ⟨d, member, stops⟩
            cases List.mem_singleton.mp member
            exact stops.elim halt file
          have rest := (ih s').cons run going
          dsimp only
          cases type : EntryType.ofByte (e.1.byte 0) with
          | endOfDirectory =>
            dsimp only
            rw [if_neg halt]
            exact rest
          | fileAndDirectory => exact absurd type file
          | _ => exact rest

/-- `next_file_dir_entry` reads until a file entry or the end marker stops it. -/
theorem nextFileDirEntry_drains (s : Scan size n) (fuel : Nat) :
    Drains next FileStop fuel s (nextFileDirEntry fuel s).1 := by
  have sought := nextFileDirEntry_sought fuel s
  generalize (nextFileDirEntry fuel s).1 = r at sought
  generalize (nextFileDirEntry fuel s).2 = t at sought
  cases sought with
  | spent pulls going enough => exact .spent pulls going enough
  | failed pulls going fault => exact .failed pulls going (congrArg Prod.fst fault)
  | ended pulls going none_ => exact .ended pulls (congrArg Prod.fst none_) trivial
  | @marked es e _ pulls going halt => exact .stopped pulls ⟨e, by simp, Or.inl halt⟩ trivial
  | @found es e _ pulls going file => exact .stopped pulls ⟨e, by simp, Or.inr file⟩ trivial

end DirectoryEntryChain

theorem EntryType.ofByte_inUse {raw : RawDirEntry} (used : InUse raw) :
    EntryType.ofByte (raw.byte 0) ≠ .endOfDirectory ∧ ∀ x, EntryType.ofByte (raw.byte 0) ≠ .unused x := by
  rw [InUse] at used
  have some_ : raw.byte 0 ≠ 0 := fun zero => used (by rw [zero]; rfl)
  rw [ofByte, if_neg some_, if_neg used]
  refine ⟨?_, fun x => ?_⟩
  all_goals
    repeat' split
    all_goals
      intro same
      cases same

theorem EntryType.ofByte_notInUse {raw : RawDirEntry} (unused : ¬ InUse raw) :
    EntryType.ofByte (raw.byte 0) = .endOfDirectory ∨ EntryType.ofByte (raw.byte 0) = .unused (raw.byte 0) := by
  rw [InUse, not_not] at unused
  by_cases zero : raw.byte 0 = 0
  · exact Or.inl (EntryType.ofByte_zero.mpr zero)
  · exact Or.inr (by rw [ofByte, if_neg zero, if_pos unused])

namespace FileSystem

variable {size n : Nat}

/-- The loop of `confirm_has_no_children` reads until a child or the end marker stops it. -/
theorem noChildrenIn_drains (fuel : Nat) :
    ∀ s : Scan size n, Drains next ChildStop fuel s (noChildrenIn fuel s).1 := by
  have nothing : ¬ ChildStop [] := by rintro ⟨e, member, _⟩; cases member
  induction fuel with
  | zero => exact fun s => .spent (.nil s) nothing (Nat.le_refl 0)
  | succ fuel ih =>
    intro s
    rw [noChildrenIn, Exec.bind_apply]
    rcases run : next s with ⟨f | _ | e, s'⟩
    · exact .failed (.nil s) nothing (congrArg Prod.fst run)
    · exact .ended (.nil s) (congrArg Prod.fst run) trivial
    · have pulls : Pulls next [e] s s' := .one run
      dsimp only
      by_cases used : InUse e.1
      · have child : ChildStop [e] := ⟨e, List.mem_singleton_self e, Or.inr used⟩
        have types := EntryType.ofByte_inUse used
        cases type : EntryType.ofByte (e.1.byte 0) with
        | endOfDirectory => exact absurd type types.1
        | unused x => exact absurd type (types.2 x)
        | _ => exact .stopped pulls child trivial
      · by_cases halt : isEndOfDirectory e.1 = true
        · rw [EntryType.ofByte_zero.mpr (isEnd_byte halt)]
          dsimp only
          rw [if_pos halt]
          exact .stopped pulls ⟨e, List.mem_singleton_self e, Or.inl halt⟩ trivial
        · have going : ¬ ChildStop [e] := by
            rintro ⟨d, member, stops⟩
            cases List.mem_singleton.mp member
            exact stops.elim halt used
          have rest : Drains next ChildStop (fuel + 1) s (noChildrenIn fuel s').1 :=
            .after pulls (fun es => exists_mem_cons_of_not going) (by rw [List.length_singleton]; omega) (ih s')
          rcases EntryType.ofByte_notInUse used with type | type
          · rw [type]
            dsimp only
            rw [if_neg halt]
            exact rest
          · rw [type]
            exact rest

/-- Whether some first entries fill a row of free entries that is `counter` long already. -/
def Fills (len : Nat) : Nat → List DirSlot → Prop
  | _, [] => False
  | counter, e :: es => if InUse e.1 then Fills len 0 es else counter + 1 = len ∨ Fills len (counter + 1) es

/-- The loop of `find_empty_dir_entry_set` reads until the row of free entries is long enough. -/
theorem emptyRunIn_drains (len fuel : Nat) : ∀ (counter : Nat) (start : Option Location) (s : Scan size n),
    Drains next (Fills len counter) fuel s (emptyRunIn len fuel counter start s).1 := by
  induction fuel with
  | zero => exact fun _ _ s => .spent (.nil s) id (Nat.le_refl 0)
  | succ fuel ih =>
    intro counter start s
    rw [emptyRunIn, Exec.bind_apply]
    rcases run : next s with ⟨f | _ | e, s'⟩
    · exact .failed (.nil s) id (congrArg Prod.fst run)
    · exact .ended (.nil s) (congrArg Prod.fst run) trivial
    · have pulls : Pulls next [e] s s' := .one run
      dsimp only
      by_cases used : InUse e.1
      · have types := EntryType.ofByte_inUse used
        have rest : Drains next (Fills len counter) (fuel + 1) s (emptyRunIn len fuel 0 none s').1 := by
          refine .after pulls (fun es => ?_) (by rw [List.length_singleton]; omega) (ih 0 none s')
          rw [List.singleton_append, Fills, if_pos used]
        cases type : EntryType.ofByte (e.1.byte 0) with
        | endOfDirectory => exact absurd type types.1
        | unused x => exact absurd type (types.2 x)
        | _ => exact rest
      · have row : Drains next (Fills len counter) (fuel + 1) s
            ((if counter + 1 = len then pure (some (start.getD e.2))
              else emptyRunIn len fuel (counter + 1) (some (start.getD e.2)) : ExFat (Scan size n) _) s').1 := by
          by_cases full : counter + 1 = len
          · rw [if_pos full]
            refine .stopped pulls ?_ trivial
            rw [Fills, if_neg used]
            exact Or.inl full
          · rw [if_neg full]
            refine .after pulls (fun es => ?_) (by rw [List.length_singleton]; omega) (ih _ _ s')
            rw [List.singleton_append, Fills, if_neg used]
            exact or_iff_right full
        rcases EntryType.ofByte_notInUse used with type | type
        · rw [type]
          exact row
        · rw [type]
          exact row

theorem freeAt_cons_succ (e : DirSlot) (es : List DirSlot) (k : Nat) : FreeAt (e :: es) (k + 1) ↔ FreeAt es k :=
  Iff.rfl

theorem freeAt_cons_zero {e : DirSlot} {es : List DirSlot} : FreeAt (e :: es) 0 ↔ ¬ InUse e.1 := by
  constructor
  · rintro ⟨d, same, free⟩
    cases same
    exact free
  · exact fun free => ⟨e, rfl, free⟩

/-- The row that is being read is completed, or a whole one follows. -/
theorem fills_iff {len : Nat} (es : List DirSlot) : ∀ {counter : Nat}, (0 < len → counter < len) →
    (Fills len counter es ↔ 0 < len ∧ ((∀ j < len - counter, FreeAt es j) ∨ ∃ k, ∀ j < len, FreeAt es (k + j))) := by
  induction es with
  | nil =>
    intro counter short
    refine iff_of_false id ?_
    rintro ⟨pos, row | ⟨k, row⟩⟩
    · obtain ⟨e, none_, _⟩ := row 0 (by have := short pos; omega)
      cases none_
    · obtain ⟨e, none_, _⟩ := row 0 pos
      cases none_
  | cons e es ih =>
    intro counter short
    have first : ∀ {m : Nat}, (∀ j < m + 1, FreeAt (e :: es) j) → ¬ InUse e.1 ∧ ∀ j < m, FreeAt es j := fun row =>
      ⟨freeAt_cons_zero.mp (row 0 (Nat.succ_pos _)), fun j inside => row (j + 1) (Nat.succ_lt_succ inside)⟩
    have shift : ∀ k, (∀ j < len, FreeAt (e :: es) (k + 1 + j)) ↔ ∀ j < len, FreeAt es (k + j) := fun k =>
      forall₂_congr fun j _ => by rw [Nat.add_right_comm, freeAt_cons_succ]
    rw [Fills]
    by_cases used : InUse e.1
    · rw [if_pos used, ih (fun pos => pos)]
      refine and_congr_right fun pos => ?_
      constructor
      · rintro (row | ⟨k, row⟩)
        · exact Or.inr ⟨1, fun j inside => by rw [Nat.add_comm]; exact row j inside⟩
        · exact Or.inr ⟨k + 1, (shift k).mpr row⟩
      · rintro (row | ⟨_ | k, row⟩)
        · exact absurd used (freeAt_cons_zero.mp (row 0 (by have := short pos; omega)))
        · exact absurd used (freeAt_cons_zero.mp (row 0 pos))
        · exact Or.inr ⟨k, (shift k).mp row⟩
    · rw [if_neg used]
      by_cases full : counter + 1 = len
      · refine iff_of_true (Or.inl full) ⟨by omega, Or.inl fun j inside => ?_⟩
        obtain rfl : j = 0 := by omega
        exact freeAt_cons_zero.mpr used
      · rw [or_iff_right full, @ih (counter + 1) (fun pos => by have := short pos; omega)]
        refine and_congr_right fun pos => ?_
        obtain ⟨m, left⟩ : ∃ m, len - counter = m + 1 := ⟨len - counter - 1, by have := short pos; omega⟩
        rw [left, show len - (counter + 1) = m by omega]
        constructor
        · rintro (row | ⟨k, row⟩)
          · refine Or.inl fun j inside => ?_
            rcases j with _ | j
            · exact freeAt_cons_zero.mpr used
            · exact row j (Nat.lt_of_succ_lt_succ inside)
          · exact Or.inr ⟨k + 1, (shift k).mpr row⟩
        · rintro (row | ⟨_ | k, row⟩)
          · exact Or.inl (first row).2
          · refine Or.inl (first fun j inside => ?_).2
            have free := row j (by omega)
            rwa [Nat.zero_add] at free
          · exact Or.inr ⟨k, (shift k).mp row⟩

theorem fills_zero_iff {len : Nat} (es : List DirSlot) : Fills len 0 es ↔ RoomStop len es := by
  rw [fills_iff es id, RoomStop]
  refine and_congr_right fun _ => or_iff_right_of_imp fun row => ⟨0, fun j inside => ?_⟩
  rw [Nat.zero_add]
  exact row j inside

end FileSystem

namespace DirectoryEntryChain

open Progress

variable {size n : Nat} {home : Nat → CacheKind} {v : Volume size} {filter : DirectoryEntryFilter}

theorem next_shows {s s' : Scan size n} {r : Except (Fault ExFatError) (Option DirSlot)} (shows : s.Shows home v)
    (run : next s = (r, s')) : s'.Shows home v := by
  have looks : Scan.Looks home s (next s).2 := next_looks s
  rw [run] at looks
  have served := looks.served shows.sound
  exact ⟨served.sound, served.volume.trans shows.volume⟩

theorem pulls_shows {es : List DirSlot} :
    ∀ {s t : Scan size n}, Pulls next es s t → s.Shows home v → t.Shows home v := by
  induction es with
  | nil =>
    intro s t pulls shows
    cases pulls
    exact shows
  | cons e es ih =>
    rintro s t ⟨s', run, rest⟩ shows
    exact ih rest (next_shows shows run)

/-- How far the name entries of a set are read, from a search that is in its
name, and where that leaves the reader. -/
inductive Named (filter : DirectoryEntryFilter) (table : UpcaseTable) (p : Progress) (s : Scan size n) :
    Except (Fault ExFatError) (Option (Option (List Nat))) → Scan size n → Prop
  | failed {es : List DirSlot} {t t' : Scan size n} {f : Fault ExFatError} : Pulls next es s t →
      (∀ found, p.through filter table es ≠ .done found) → next t = (.error f, t') →
        Named filter table p s (.error f) t'
  | ended {es : List DirSlot} {t t' : Scan size n} :
    Pulls next es s t → next t = (.ok none, t') → Named filter table p s (.ok none) t'
  | settled {es : List DirSlot} {t : Scan size n} {found : Option FileDetails} {r : Option (Option (List Nat))} :
    Pulls next es s t →
      p.through filter table es = .done found → r ≠ some none → Named filter table p s (.ok r) t
  | refused {es : List DirSlot} {t : Scan size n} : Pulls next es s t → p.through filter table es = .seeking →
      Named filter table p s (.ok (some none)) t

theorem Named.cons {table : UpcaseTable} {p : Progress} {e : DirSlot} {s s' t : Scan size n}
    {r : Except (Fault ExFatError) (Option (Option (List Nat)))} (run : next s = (.ok (some e), s'))
    (named : Named filter table (p.step filter table e) s' r t) : Named filter table p s r t := by
  cases named with
  | failed pulls going fault => exact .failed (pulls.cons run) going fault
  | ended pulls none_ => exact .ended (pulls.cons run) none_
  | settled pulls done other => exact .settled (pulls.cons run) done other
  | refused pulls seeking => exact .refused (pulls.cons run) seeking

theorem nameEntries_named {file stream : RawDirEntry} {place : Location} (rounds : Nat) :
    ∀ {units : List Nat} {s : Scan size n},
    units.length ≤ (StreamExtensionDirEntry.ofRaw stream).nameLength →
    (StreamExtensionDirEntry.ofRaw stream).nameLength - units.length < rounds → s.Shows home v →
    Named filter v.setup.upcaseTable (naming file place stream units) s
      (nameEntries filter (StreamExtensionDirEntry.ofRaw stream).nameLength rounds units s).1
      (nameEntries filter (StreamExtensionDirEntry.ofRaw stream).nameLength rounds units s).2 := by
  generalize known : (StreamExtensionDirEntry.ofRaw stream).nameLength = nameLength
  induction rounds with
  | zero => exact fun _ enough => absurd enough (Nat.not_lt_zero _)
  | succ rounds ih =>
    intro units s most enough shows
    rw [nameEntries, Exec.bind_apply]
    rcases run : next s with ⟨f | _ | e, s'⟩
    · exact .failed (.nil s) (fun found same => by cases same) run
    · exact .ended (.nil s) run
    · dsimp only
      by_cases name : EntryType.ofByte (e.1.byte 0) = .filename
      · have table : s'.fs.upcaseTable = v.setup.upcaseTable :=
          congrArg (fun v : Volume size => v.setup.upcaseTable) (next_shows shows run).volume
        have step : (naming file place stream units).step filter v.setup.upcaseTable e =
            if filter.fileName ((fileNameOfRaw e.1).take (min (nameLength - units.length) 15)) units.length
              v.setup.upcaseTable then
              if (units ++ (fileNameOfRaw e.1).take (min (nameLength - units.length) 15)).length = nameLength then
                .done (some (detailsOf file place stream))
              else .naming file place stream (units ++ (fileNameOfRaw e.1).take (min (nameLength - units.length) 15))
            else .seeking := by
          rw [Progress.step, if_pos name, known]
        rw [if_pos name, Exec.bind_of_ok (Exec.get_apply s'), table]
        have length := length_namePart e.1 (nameLength - units.length)
        generalize (fileNameOfRaw e.1).take (min (nameLength - units.length) 15) = part at length step ⊢
        by_cases passes : filter.fileName part units.length v.setup.upcaseTable = true
        · rw [if_pos passes] at step ⊢
          by_cases whole : (units ++ part).length = nameLength
          · rw [if_pos whole] at step ⊢
            exact .settled (.one run) step (by simp)
          · rw [if_neg whole] at step ⊢
            rw [List.length_append] at whole
            refine .cons run ?_
            rw [step]
            exact ih (by rw [List.length_append]; omega) (by rw [List.length_append]; omega) (next_shows shows run)
        · rw [if_neg passes] at step ⊢
          exact .refused (.one run) step
      · have step : (naming file place stream units).step filter v.setup.upcaseTable e = .done none := by
          rw [Progress.step, if_neg name]
        rw [if_neg name]
        exact .settled (.one run) step (by simp)

theorem through_going {table : UpcaseTable} {es : List DirSlot} (going : ¬ FileStop es) :
    seeking.through filter table es = .seeking := by
  induction es with
  | nil => rfl
  | cons e es ih =>
    have here : ¬ (isEndOfDirectory e.1 = true ∨ EntryType.ofByte (e.1.byte 0) = .fileAndDirectory) := fun stops =>
      going ⟨e, List.mem_cons_self, stops⟩
    rw [not_or] at here
    rw [through_cons, step, if_neg here.2, if_neg here.1]
    refine ih (mt ?_ going)
    rintro ⟨d, member, stops⟩
    exact ⟨d, List.mem_cons_of_mem e member, stops⟩

theorem setStop_append {table : UpcaseTable} {es : List DirSlot} (back : seeking.through filter table es = .seeking)
    (es' : List DirSlot) :
    SetStop filter table (es ++ es') ↔ SetStop filter table es' := by
  rw [SetStop, SetStop, through_append, back]

theorem setStop_grows {table : UpcaseTable} (es es' : List DirSlot) :
    SetStop filter table es → SetStop filter table (es ++ es') := by
  rintro ⟨found, done⟩
  exact ⟨found, by rw [through_append, done, through_done]⟩

theorem decodeUtf16ToUtf8_result {σ : Type} (units : List Nat) (capacity : Nat) (s : σ) :
    IsResult (((decodeUtf16ToUtf8 units capacity : ExFat σ _) s).1) := by
  rw [decodeUtf16ToUtf8, decodeChars_outcome _ s [] (Nat.zero_le _)]
  split
  · split <;> trivial
  · trivial

/-- Behind a file entry the loop reads the rest of the set, and goes on with the
search if the filter refuses the set. -/
theorem entryFrom_drains {nameBuf : Option Nat} {fuel : Nat} {es : List DirSlot} {file : RawDirEntry}
    {place : Location} {start s : Scan size n}
    (ih : ∀ {s : Scan size n}, s.Shows home v →
      Drains next (SetStop filter v.setup.upcaseTable) fuel s (nextFileEntry filter nameBuf fuel s).1)
    (shows : start.Shows home v) (pulls : Pulls next es start s)
    (first : seeking.through filter v.setup.upcaseTable es = .begun file place) :
    Drains next (SetStop filter v.setup.upcaseTable) (fuel + 1) start
      (entryFrom filter nameBuf fuel (some (FileDirEntry.ofRaw file, place)) s).1 := by
  rw [entryFrom, Exec.bind_apply]
  rcases run : next s with ⟨f | _ | d, s₂⟩
  · exact .failed pulls (by rintro ⟨found, done⟩; cases first.symm.trans done) (congrArg Prod.fst run)
  · exact .ended pulls (congrArg Prod.fst run) trivial
  · have pulls' := pulls.append (.one run)
    have through : seeking.through filter v.setup.upcaseTable (es ++ [d]) =
        (begun file place).step filter v.setup.upcaseTable d := by
      rw [through_append, first, through_cons, through_nil]
    rw [step] at through
    dsimp only
    by_cases stream : EntryType.ofByte (d.1.byte 0) = .streamExtension
    · rw [if_pos stream] at through ⊢
      have shorter : fuel + 1 ≤ (es ++ [d]).length + fuel := by
        rw [List.length_append, List.length_singleton]
        omega
      have shows₂ := pulls_shows pulls' shows
      cases hash : filter.hash (StreamExtensionDirEntry.ofRaw d.1).nameHash
        (FileDirEntry.ofRaw file).fileAttributes with
      | false =>
        rw [hash] at through
        exact .after pulls' (setStop_append through) shorter (ih shows₂)
      | true =>
        cases length : filter.fileNameLength (StreamExtensionDirEntry.ofRaw d.1).nameLength with
        | false =>
          rw [length, Bool.and_false] at through
          exact .after pulls' (setStop_append through) shorter (ih shows₂)
        | true =>
          rw [hash, length, Bool.and_self, if_pos rfl] at through
          rw [if_neg (by simp), if_neg (by simp), Exec.bind_apply]
          have named :=
            @nameEntries_named _ _ _ v filter file d.1 place
            ((StreamExtensionDirEntry.ofRaw d.1).nameLength + 1) [] s₂
            (Nat.zero_le _) (by simp) shows₂
          generalize nameEntries filter (StreamExtensionDirEntry.ofRaw d.1).nameLength
            ((StreamExtensionDirEntry.ofRaw d.1).nameLength + 1) [] s₂ = outcome at named ⊢
          obtain ⟨r, s₃⟩ := outcome
          cases named with
          | failed later going₃ fault =>
            refine .failed (pulls'.append later) ?_ (congrArg Prod.fst fault)
            rintro ⟨found, done⟩
            rw [through_append, through] at done
            exact going₃ found done
          | ended later last => exact .ended (pulls'.append later) (congrArg Prod.fst last) trivial
          | @settled _ _ found r later done other =>
            refine .stopped (pulls'.append later) ⟨found, by rw [through_append, through, done]⟩ ?_
            rcases r with _ | _ | units
            · trivial
            · exact absurd rfl other
            · cases nameBuf with
              | none => trivial
              | some capacity => exact .bind (decodeUtf16ToUtf8_result units capacity s₃) fun _ _ => trivial
          | @refused es₃ _ later back =>
            refine .after (pulls'.append later) (setStop_append (by rw [through_append, through, back])) ?_
              (ih (pulls_shows later shows₂))
            rw [List.length_append]
            omega
    · rw [if_neg stream] at through ⊢
      exact .stopped pulls' ⟨none, through⟩ trivial

/-- `next_file_entry` reads until an entry set is found, or one is broken, or the end marker comes. -/
theorem nextFileEntry_drains (nameBuf : Option Nat) (fuel : Nat) : ∀ {s : Scan size n}, s.Shows home v →
    Drains next (SetStop filter v.setup.upcaseTable) fuel s (nextFileEntry filter nameBuf fuel s).1 := by
  induction fuel with
  | zero => exact fun {s} _ => .spent (.nil s) (by rintro ⟨found, done⟩; cases done) (Nat.le_refl 0)
  | succ fuel ih =>
    intro s shows
    rw [nextFileEntry_eq, Exec.bind_apply]
    have sought := nextFileDirEntry_sought (fuel + 1) s
    generalize nextFileDirEntry (fuel + 1) s = outcome at sought ⊢
    obtain ⟨r, s₁⟩ := outcome
    have going : ∀ {es : List DirSlot}, ¬ FileStop es → ¬ SetStop filter v.setup.upcaseTable es := by
      rintro es none_ ⟨found, done⟩
      cases (through_going none_).symm.trans done
    cases sought with
    | spent pulls none_ enough => exact .spent pulls (going none_) enough
    | failed pulls none_ fault => exact .failed pulls (going none_) (congrArg Prod.fst fault)
    | ended pulls none_ last => exact .ended pulls (congrArg Prod.fst last) trivial
    | @marked es e _ pulls none_ halt =>
      have other : EntryType.ofByte (e.1.byte 0) ≠ .fileAndDirectory := by
        rw [EntryType.ofByte_zero.mpr (isEnd_byte halt)]
        simp
      refine .stopped pulls ⟨none, ?_⟩ trivial
      rw [through_append, through_going none_, through_cons, step, if_neg other, if_pos halt, through_nil]
    | @found es e _ pulls none_ file =>
      have first : seeking.through filter v.setup.upcaseTable (es ++ [e]) = .begun e.1 e.2 := by
        rw [through_append, through_going none_, through_cons, step, if_pos file, through_nil]
      exact entryFrom_drains ih shows pulls first

end DirectoryEntryChain

/-- The entries in the place of the name entries, of which `j` are already
read, end the search: one of them is no name entry, or the last one of the name
is there, and all up to it pass the filter. -/
def NamesSettle (filter : DirectoryEntryFilter) (table : UpcaseTable) (nameLength : Nat) : Nat → List DirSlot → Prop
  | _, [] => False
  | j, e :: es =>
    EntryType.ofByte (e.1.byte 0) ≠ .filename ∨
      (filter.fileName ((fileNameOfRaw e.1).take (min (nameLength - 15 * j) 15)) (15 * j) table = true ∧
        (nameLength ≤ 15 * (j + 1) ∨ NamesSettle filter table nameLength (j + 1) es))

/-- The entries behind a file entry end the search: they are not those of a
set, or those of a set that passes the filter. -/
def FileSettles (filter : DirectoryEntryFilter) (table : UpcaseTable) (file : RawDirEntry) : List DirSlot → Prop
  | [] => False
  | stream :: names =>
    EntryType.ofByte (stream.1.byte 0) ≠ .streamExtension ∨
      (filter.hash (StreamExtensionDirEntry.ofRaw stream.1).nameHash (FileDirEntry.ofRaw file).fileAttributes = true ∧
        filter.fileNameLength (StreamExtensionDirEntry.ofRaw stream.1).nameLength = true ∧
        NamesSettle filter table (StreamExtensionDirEntry.ofRaw stream.1).nameLength 0 names)

/-- The entries hold an end marker, or a file entry with entries behind it that end the search. -/
def SearchSettled (filter : DirectoryEntryFilter) (table : UpcaseTable) (es : List DirSlot) : Prop :=
  (∃ e ∈ es, isEndOfDirectory e.1 = true) ∨
    ∃ before file after, es = before ++ file :: after ∧ EntryType.ofByte (file.1.byte 0) = .fileAndDirectory ∧
      FileSettles filter table file.1 after

section SearchSettled

variable {filter : DirectoryEntryFilter} {table : UpcaseTable}

theorem NamesSettle.append {nameLength : Nat} (es es' : List DirSlot) :
    ∀ {j : Nat}, NamesSettle filter table nameLength j es →
    NamesSettle filter table nameLength j (es ++ es') := by
  induction es with
  | nil => exact fun none_ => none_.elim
  | cons e es ih =>
    rintro j (other | ⟨passes, rest⟩)
    · exact Or.inl other
    · exact Or.inr ⟨passes, rest.imp_right ih⟩

theorem FileSettles.append {file : RawDirEntry} (es es' : List DirSlot) (settles : FileSettles filter table file es) :
    FileSettles filter table file (es ++ es') := by
  cases es with
  | nil => exact settles.elim
  | cons stream names =>
    rcases settles with other | ⟨hash, length, names_⟩
    · exact Or.inl other
    · exact Or.inr ⟨hash, length, names_.append names es'⟩

theorem SearchSettled.append {es : List DirSlot} (settled : SearchSettled filter table es) (es' : List DirSlot) :
    SearchSettled filter table (es ++ es') := by
  rcases settled with ⟨e, member, halt⟩ | ⟨before, file, after, rfl, isFile, settles⟩
  · exact Or.inl ⟨e, List.mem_append_left es' member, halt⟩
  · refine Or.inr ⟨before, file, after ++ es', ?_, isFile, settles.append after es'⟩
    rw [List.append_assoc, List.cons_append]

namespace Progress

/-- What the entries that a search has read have to do with where it is. -/
def Knows (filter : DirectoryEntryFilter) (table : UpcaseTable) (es : List DirSlot) : Progress → Prop
  | .seeking => True
  | .begun file place => EntryType.ofByte (file.byte 0) = .fileAndDirectory ∧ ∃ before, es = before ++ [(file, place)]
  | .naming file place stream units => EntryType.ofByte (file.byte 0) = .fileAndDirectory ∧
      ∃ before streamPlace names, es = before ++ (file, place) :: (stream, streamPlace) :: names ∧
        units.length = 15 * names.length ∧ units.length ≤ (StreamExtensionDirEntry.ofRaw stream).nameLength ∧
        ∀ rest, NamesSettle filter table (StreamExtensionDirEntry.ofRaw stream).nameLength names.length rest →
          FileSettles filter table file ((stream, streamPlace) :: (names ++ rest))
  | .done _ => SearchSettled filter table es

theorem step_knows {p : Progress} {es : List DirSlot} (knows : p.Knows filter table es) (e : DirSlot) :
    (p.step filter table e).Knows filter table (es ++ [e]) := by
  cases p with
  | seeking =>
    rw [step]
    by_cases file : EntryType.ofByte (e.1.byte 0) = .fileAndDirectory
    · rw [if_pos file]
      exact ⟨file, es, rfl⟩
    · rw [if_neg file]
      by_cases halt : isEndOfDirectory e.1 = true
      · rw [if_pos halt]
        exact Or.inl ⟨e, List.mem_append_right es (List.mem_singleton_self e), halt⟩
      · rw [if_neg halt]
        trivial
  | begun file place =>
    obtain ⟨isFile, before, rfl⟩ := knows
    rw [step]
    by_cases isStream : EntryType.ofByte (e.1.byte 0) = .streamExtension
    · rw [if_pos isStream]
      by_cases passes :
        (filter.hash (StreamExtensionDirEntry.ofRaw e.1).nameHash (FileDirEntry.ofRaw file).fileAttributes &&
          filter.fileNameLength (StreamExtensionDirEntry.ofRaw e.1).nameLength) = true
      · rw [if_pos passes]
        rw [Bool.and_eq_true] at passes
        refine ⟨isFile, before, e.2, [], ?_, rfl, Nat.zero_le _, fun rest settle =>
          Or.inr ⟨passes.1, passes.2, settle⟩⟩
        rw [List.append_assoc, List.singleton_append]
      · rw [if_neg passes]
        trivial
    · rw [if_neg isStream]
      refine Or.inr ⟨before, (file, place), [e], ?_, isFile, Or.inl isStream⟩
      rw [List.append_assoc, List.singleton_append]
  | naming file place stream units =>
    obtain ⟨isFile, before, streamPlace, names, rfl, count, most, settles⟩ := knows
    have place_ : before ++ (file, place) :: (stream, streamPlace) :: names ++ [e] =
        before ++ (file, place) :: (stream, streamPlace) :: (names ++ [e]) := by
      rw [List.append_assoc, List.cons_append, List.cons_append]
    rw [step, place_]
    by_cases name : EntryType.ofByte (e.1.byte 0) = .filename
    · rw [if_pos name]
      dsimp only
      have length := length_namePart e.1 ((StreamExtensionDirEntry.ofRaw stream).nameLength - units.length)
      by_cases passes : filter.fileName
        ((fileNameOfRaw e.1).take (min ((StreamExtensionDirEntry.ofRaw stream).nameLength - units.length) 15))
          units.length table = true
      · rw [if_pos passes]
        rw [count] at passes
        by_cases whole : (units ++ (fileNameOfRaw e.1).take
            (min ((StreamExtensionDirEntry.ofRaw stream).nameLength - units.length) 15)).length =
              (StreamExtensionDirEntry.ofRaw stream).nameLength
        · rw [if_pos whole]
          rw [List.length_append, length] at whole
          exact Or.inr ⟨before, (file, place), _, rfl, isFile, settles [e] (Or.inr ⟨passes, Or.inl (by omega)⟩)⟩
        · rw [if_neg whole]
          rw [List.length_append, length] at whole
          refine ⟨isFile, before, streamPlace, names ++ [e], rfl, ?_, ?_, fun rest settle => ?_⟩
          · rw [List.length_append, List.length_append, List.length_singleton, length]
            omega
          · rw [List.length_append, length]
            omega
          · rw [List.length_append, List.length_singleton] at settle
            rw [List.append_assoc]
            exact settles _ (Or.inr ⟨passes, Or.inr settle⟩)
      · rw [if_neg passes]
        trivial
    · rw [if_neg name]
      exact Or.inr ⟨before, (file, place), _, rfl, isFile, settles [e] (Or.inl name)⟩
  | done found => exact SearchSettled.append knows [e]

theorem through_knows (es : List DirSlot) : (seeking.through filter table es).Knows filter table es := by
  induction es using List.reverseRecOn with
  | nil => trivial
  | append_singleton es e ih =>
    rw [through_append]
    exact step_knows ih e

/-- No search goes on behind an end marker. -/
theorem step_end (p : Progress) {e : DirSlot} (halt : isEndOfDirectory e.1 = true) :
    ∃ found, p.step filter table e = .done found := by
  have type := EntryType.ofByte_zero.mpr (isEnd_byte halt)
  cases p with
  | seeking => exact ⟨none, by rw [step, type, if_neg (by simp), if_pos halt]⟩
  | begun file place => exact ⟨none, by rw [step, type, if_neg (by simp)]⟩
  | naming file place stream units => exact ⟨none, by rw [step, type, if_neg (by simp)]⟩
  | done found => exact ⟨found, rfl⟩

/-- A file entry is where a search between sets begins with one, and ends every other. -/
theorem step_file (p : Progress) {e : DirSlot} (file : EntryType.ofByte (e.1.byte 0) = .fileAndDirectory) :
    p.step filter table e = .begun e.1 e.2 ∨ ∃ found, p.step filter table e = .done found := by
  cases p with
  | seeking => exact Or.inl (by rw [step, if_pos file])
  | begun f place => exact Or.inr ⟨none, by rw [step, file, if_neg (by simp)]⟩
  | naming f place stream units => exact Or.inr ⟨none, by rw [step, file, if_neg (by simp)]⟩
  | done found => exact Or.inr ⟨found, rfl⟩

theorem naming_settles {file stream : RawDirEntry} {place : Location} (names : List DirSlot) :
    ∀ {j : Nat} {units : List Nat},
    units.length = 15 * j → units.length ≤ (StreamExtensionDirEntry.ofRaw stream).nameLength →
    NamesSettle filter table (StreamExtensionDirEntry.ofRaw stream).nameLength j names →
    ∃ found, (naming file place stream units).through filter table names = .done found := by
  induction names with
  | nil => exact fun _ _ none_ => none_.elim
  | cons e names ih =>
    intro j units count most settles
    rw [through_cons, step]
    rcases settles with other | ⟨passes, last⟩
    · exact ⟨none, by rw [if_neg other, through_done]⟩
    · by_cases name : EntryType.ofByte (e.1.byte 0) = .filename
      · rw [← count] at passes
        rw [if_pos name]
        dsimp only
        rw [if_pos passes]
        have length := length_namePart e.1 ((StreamExtensionDirEntry.ofRaw stream).nameLength - units.length)
        by_cases whole : (units ++ (fileNameOfRaw e.1).take
            (min ((StreamExtensionDirEntry.ofRaw stream).nameLength - units.length) 15)).length =
              (StreamExtensionDirEntry.ofRaw stream).nameLength
        · exact ⟨_, by rw [if_pos whole, through_done]⟩
        · rw [if_neg whole]
          rw [List.length_append, length] at whole
          refine ih ?_ ?_ (last.resolve_left (by omega))
          · rw [List.length_append, length]
            omega
          · rw [List.length_append, length]
            omega
      · exact ⟨none, by rw [if_neg name, through_done]⟩

/-- A search is at its end exactly when the entries have settled it. -/
theorem setStop_iff (es : List DirSlot) : SetStop filter table es ↔ SearchSettled filter table es := by
  constructor
  · rintro ⟨found, done⟩
    have knows := @through_knows filter table es
    rw [done] at knows
    exact knows
  · rintro (⟨e, member, halt⟩ | ⟨before, file, after, rfl, isFile, settles⟩)
    · obtain ⟨before, after, rfl⟩ := List.append_of_mem member
      obtain ⟨found, done⟩ := step_end (seeking.through filter table before) halt
      exact ⟨found, by rw [through_append, through_cons, done, through_done]⟩
    · rw [SetStop, through_append, through_cons]
      rcases step_file (seeking.through filter table before) isFile with begun | ⟨found, done⟩
      · cases after with
        | nil => exact settles.elim
        | cons stream names =>
          rw [begun, through_cons, step]
          by_cases isStream : EntryType.ofByte (stream.1.byte 0) = .streamExtension
          · obtain ⟨hash, length, names_⟩ := settles.resolve_left (not_not.mpr isStream)
            rw [if_pos isStream, hash, length, Bool.and_self, if_pos rfl]
            exact naming_settles names rfl (Nat.zero_le _) names_
          · exact ⟨none, by rw [if_neg isStream, through_done]⟩
      · exact ⟨found, by rw [done, through_done]⟩

end Progress

end SearchSettled

end ExFatSlim
