import ExFatSlim.FileTracking
import ExFatSlim.HandleRuns

namespace ExFatSlim

open Exec

variable {size n : Nat} {home : Nat → CacheKind} {α : Type}

namespace FileSession

/-- A later state of a handle with the same valid data length. -/
def SameValid (s s' : FileSession size n) : Prop :=
  s'.file.details.validDataLength = s.file.details.validDataLength

/-- One in which the cursor is where it was as well. -/
def SameEnds (s s' : FileSession size n) : Prop := SameValid s s' ∧ s'.file.cursor = s.file.cursor

instance : Std.Refl (SameValid : FileSession size n → FileSession size n → Prop) where
  refl _ := rfl

instance : Trans (SameValid : FileSession size n → FileSession size n → Prop) SameValid SameValid where
  trans first second := Eq.trans second first

instance : Std.Refl (SameEnds : FileSession size n → FileSession size n → Prop) where
  refl _ := ⟨rfl, rfl⟩

instance : Trans (SameEnds : FileSession size n → FileSession size n → Prop) SameEnds SameEnds where
  trans first second := ⟨Eq.trans second.1 first.1, second.2.trans first.2⟩

theorem onFs_sameEnds (m : ExFat (FileSystem size n) α) : Respects SameEnds (onFs m) := fun _ => ⟨rfl, rfl⟩

theorem onSession_sameValid (m : ExFat (Session size n) α) : Respects SameValid (onSession m) := fun _ => rfl

theorem sameValid_edits (home : Nat → CacheKind) :
    Edits home (SameValid : FileSession size n → FileSession size n → Prop) where
  use _ _ := rfl
  move details _ := .modify fun s => congrArg FileDetails.validDataLength (details s.file)
  edit _ _ := .bind (fun _ => rfl) fun _ => onSession_sameValid _

theorem sameEnds_extends (home : Nat → CacheKind) :
    Extends home (SameEnds : FileSession size n → FileSession size n → Prop) where
  link _ _ := ⟨rfl, rfl⟩
  adopt valid cursor _ _ := .modify fun s => ⟨valid s.file, cursor s.file⟩

end FileSession

namespace File

open FileSession

theorem flush_sameValid : Respects SameValid (flush : ExFat (FileSession size n) Unit) :=
  .bind .get fun _ => .when (onSession_sameValid _) fun _ => onSession_sameValid _

/-- A later state in which the valid data length is as it was, or as a write of `len` bytes makes it. -/
def Reaching (len : Nat) (s s' : FileSession size n) : Prop :=
  SameValid s s' ∨ s'.file.details.validDataLength = max (s.file.cursor + len) s.file.details.validDataLength

theorem after_sameEnds {len : Nat} {α β : Type} {m : ExFat (FileSession size n) α}
    {f : α → ExFat (FileSession size n) β}
    (first : Respects SameEnds m) (rest : ∀ a, Respects (Reaching len) (f a)) : Respects (Reaching len) (m >>= f) :=
  first.after rest (fun _ _ same => Or.inl same.1) fun s s' s'' same reaching =>
    reaching.imp (fun valid => Eq.trans valid same.1) fun raised => by rw [raised, same.1, same.2]

/-- Whatever a write does, on a device that fails or not, it raises the valid data length once
at most, and up to the end of its bytes. -/
theorem write_reaching (buf : List UInt8) :
    Respects (Reaching buf.length) (write buf : ExFat (FileSession size n) Unit) := by
  have stays : ∀ {α : Type} {m : ExFat (FileSession size n) α}, Respects SameEnds m →
    Respects (Reaching buf.length) m :=
    fun same => same.mono fun _ _ same => Or.inl same.1
  have rest : Respects (Reaching buf.length) (do
      updateDataLength buf.length
      writeBytes buf : ExFat (FileSession size n) Unit) := by
    intro s
    by_cases fits : s.file.cursor + buf.length < 2 ^ 64
    · rw [Exec.bind_of_ok (updateDataLength_run fits)]
      exact Or.inr (writeBytes_respects (sameValid_edits fun _ => .data) buf _)
    · have panics : updateDataLength buf.length s = (.error .panic, s) := by
        rw [updateDataLength, Exec.bind_of_ok (Exec.get_apply s)]
        exact Exec.bind_of_error (u64_of_le (Nat.le_of_not_lt fits) s)
      rw [Exec.bind_of_error panics]
      exact Or.inl rfl
  refine .ite (stays (.pure ())) (after_sameEnds (onFs_sameEnds _) fun _ => after_sameEnds .get fun s => ?_)
  refine .ite (stays (.raise _)) ?_
  refine after_sameEnds (u64_respects _) fun capacity => after_sameEnds (u64_respects _) fun endOfWrite => ?_
  exact .ite (after_sameEnds (.bind .get fun _ => allocateRuns_respects (sameEnds_extends fun _ => .data) _ _)
    fun _ => rest) rest

end File

/-- A call on a file that is open. -/
inductive FileCall where
  | read (len : Nat)
  | seek (cursor : Nat)
  | write (buf : List UInt8)
  | flush

namespace FileSession

open File

variable {s s' : FileSession size n} {cs : List Nat}

/-- The state with the outcomes of the accesses to the device that come next. -/
def withScript (s : FileSession size n) (script : List (Option (Block size))) : FileSession size n :=
  { s with fs := { s.fs with dev := { s.fs.dev with script } } }

/-- What a call leaves, whether it succeeds or not. -/
def call (s : FileSession size n) : FileCall → FileSession size n
  | .read len => (File.read len s).2
  | .seek cursor => (File.seek cursor s).2
  | .write buf => (File.write buf s).2
  | .flush => (File.flush s).2

/-- The call is a write after which the byte of the file at `o` is the one that it was given for it. -/
def StoredBy (home : Nat → CacheKind) (s : FileSession size n) (c : FileCall) (o : Nat) : Prop :=
  ∃ buf i, c = .write buf ∧ o = s.file.cursor + i ∧ ∃ inside : i < buf.length, ∃ cs,
    ((s.call c).fs.volume home).Owns home (s.call c).file.details.flags.noFatChain (s.call c).file.chain cs ∧
      ((s.call c).fs.volume home).fileByte cs o = buf[i]

/-- The states that calls reach, with the offsets that writes have stored up to there. In every call the device may
fail in any way, and every call is allowed where it is made. -/
inductive Reaches (home : Nat → CacheKind)
    (allowed : FileSession size n → FileCall → List (Option (Block size)) → Prop)
    (s₀ : FileSession size n) : (Nat → Prop) → FileSession size n → Prop
  | start : Reaches home allowed s₀ (fun _ => False) s₀
  | next {stored : Nat → Prop} {s : FileSession size n} (c : FileCall) (script : List (Option (Block size))) :
      Reaches home allowed s₀ stored s → allowed s c script →
      Reaches home allowed s₀ (fun o => stored o ∨ StoredBy home (s.withScript script) c o)
        ((s.withScript script).call c)

/-- A handle that can be written to, at the place that its cursor denotes. -/
structure Ready (home : Nat → CacheKind) (cs : List Nat) (s : FileSession size n) : Prop extends Sized home cs s where
  enabled : s.file.openOptions.write = true
  position : Positioned s.fs.fs.clusterLength cs s.file

/-- A write that ends after the valid data does not get its clusters, because the disk is full
or the device fails, or it starts within the valid data, on a handle whose position denotes its
cursor, meets no error of the device and does not trip over the start of a cluster. -/
def Careful (home : Nat → CacheKind) (s : FileSession size n) (c : FileCall) (script : List (Option (Block size))) :
    Prop :=
  ∀ buf, c = .write buf → s.file.details.validDataLength < s.file.cursor + buf.length →
    (s.fs.isMounted = true ∧ (reserve buf.length (s.withScript script)).1 ≠ .ok ()) ∨
    (s.file.cursor ≤ s.file.details.validDataLength ∧ script = [] ∧ (∃ cs, Ready home cs (s.withScript [])) ∧
      (HandleOp.write buf).Fits s ∧ ¬ Trips size s.fs.fs.clusterLength s.file.cursor buf.length)

/-- The same, or right after a contiguous chain at a free cluster, which is the next one of the
chain once it has grown. -/
structure Poised (home : Nat → CacheKind) (cs : List Nat) (s : FileSession size n) :
    Prop extends Sized home cs s where
  enabled : s.file.openOptions.write = true
  position : Positioned s.fs.fs.clusterLength cs s.file ∨
    (Verging home cs s ∧ s.file.remainingBytesInCluster = s.fs.fs.clusterLength)

theorem Ready.poised (ready : Ready home cs s) : Poised home cs s :=
  ⟨ready.toSized, ready.enabled, Or.inl ready.position⟩

/-- The handle is at the place of its cursor when the clusters for a write are there. -/
theorem Poised.extended (poised : Poised home cs s) {added : List Nat} {count : Nat}
    {r : Except (Fault ExFatError) Unit}
    (grew : Grew home cs added count s r s') (some_ : added ≠ []) :
    Denotes s.fs.fs.clusterLength (cs ++ added) s'.file := by
  obtain ⟨_, pos, _⟩ := poised.toHolds.clusterLength
  rcases poised.position with position | ⟨verging, remaining⟩
  · exact position.extended (lists_empty poised.owns.lists) grew.file (List.append_ne_nil_of_right_ne_nil _ some_)
  · have nonempty : s.file.chain ≠ .empty := by
      intro none_
      have hint := verging.hint
      rw [none_] at hint
      cases hint
    rcases grew.file with ⟨rfl, _⟩ | ⟨first, _, grown⟩
    · exact absurd rfl some_
    · obtain ⟨cluster, kept⟩ := grown.place nonempty
      have near := grew.near _ verging.hint verging.inHeap verging.free
      have place : s.file.cursor / s.fs.fs.clusterLength = cs.length := by
        rw [verging.cursor, Nat.mul_div_cancel _ pos]
      refine Or.inl ⟨?_, ?_⟩
      · rw [grown.cursor, place, cluster, List.getElem?_append_right le_rfl, Nat.sub_self,
          ← List.head?_eq_getElem?, near]
      · rw [grown.cursor, verging.cursor, Nat.mul_mod_left, Nat.sub_zero, kept, remaining]

/-- The clusters for a write are there and the handle is at the place of its cursor, or the disk is full. -/
theorem Poised.reserve (poised : Poised home cs s) {length : Nat} (some_ : 0 < length)
    (addressable : length < 2 ^ s.fs.usizeBits)
    (few : FileSystem.divCeil length s.fs.fs.clusterLength < 2 ^ 32) :
    ∃ r s' added, FileSession.reserve length s = (r, s') ∧ SameEnds s s' ∧ s'.fs.fs.clusterLength =
      s.fs.fs.clusterLength ∧
      (r ≠ .ok () ∨ Holds home (cs ++ added) s' ∧ Denotes s'.fs.fs.clusterLength (cs ++ added) s'.file ∧
        s.file.cursor + length ≤ (cs ++ added).length * s.fs.fs.clusterLength ∧
        s'.file.details.dataLength = s.file.details.dataLength ∧
        ∀ i < cs.length * s.fs.fs.clusterLength, (s'.fs.volume home).fileByte (cs ++ added) i =
          (s.fs.volume home).fileByte cs i) := by
  obtain ⟨_, pos, _⟩ := poised.toHolds.clusterLength
  have cursor := poised.cursor
  have capacity : s.capacity ≤ cs.length * s.fs.fs.clusterLength := Nat.mul_le_mul_right _ poised.clusters
  have inside : s.file.details.dataLength ≤ s.capacity := le_divCeil_mul pos _
  by_cases more : s.capacity < s.file.cursor + length
  · have missing : 0 < FileSystem.divCeil (s.file.cursor + length - s.capacity) s.fs.fs.clusterLength := by
      rw [Nat.pos_iff_ne_zero]
      intro none_
      have reach := (divCeil_le (c := 0) pos).mp none_.le
      omega
    have fewer : FileSystem.divCeil (s.file.cursor + length - s.capacity) s.fs.fs.clusterLength ≤
        FileSystem.divCeil length s.fs.fs.clusterLength := Nat.div_le_div_right (by omega)
    obtain ⟨r, s', added, run, grew⟩ := allocateRuns_spec
      (FileSystem.divCeil (s.file.cursor + length - s.capacity) s.fs.fs.clusterLength + 1) poised.toHolds missing
      (Nat.le_succ _)
    have opened : FileSession.reserve length s = (r, s') := by
      rw [reserve_of_lt more, Nat.mod_eq_of_lt (by omega), allocateClustersFor, Exec.bind_of_ok (Exec.get_apply s),
        Nat.mod_eq_of_lt (by omega), run]
    have details : (s'.fs.volume home).setup.details = (s.fs.volume home).setup.details := by rw [grew.volume.setup]
    have clusterLength : s'.fs.fs.clusterLength = s.fs.fs.clusterLength :=
      congrArg FileSystemDetails.clusterLength details
    obtain ⟨kept, cursor', _⟩ := grew.file.kept
    refine ⟨r, s', added, opened, ⟨by rw [SameValid, kept], cursor'⟩, clusterLength, ?_⟩
    rcases grew.outcome with ⟨_, all⟩ | ⟨full, _⟩
    · have needed := le_divCeil_mul pos (s.file.cursor + length - s.capacity)
      have room : s.file.cursor + length ≤ (cs ++ added).length * s.fs.fs.clusterLength := by
        rw [List.length_append, all, Nat.add_mul]
        omega
      refine Or.inr ⟨grew.holds, ?_, room, by rw [kept], fun i within => ?_⟩
      · rw [clusterLength]
        exact poised.extended grew (List.ne_nil_of_length_pos (by omega))
      · exact grew.volume.fileByte poised.layout poised.owns.data within
    · exact Or.inl (by rw [full]; simp)
  · refine ⟨.ok (), s, [], reserve_of_le (by omega), ⟨rfl, rfl⟩, rfl, Or.inr ?_⟩
    rw [List.append_nil]
    refine ⟨poised.toHolds, ?_, by omega, rfl, fun _ _ => rfl⟩
    rcases poised.position with position | ⟨verging, _⟩
    · refine position.resolve_left ?_
      rintro ⟨rfl, _⟩
      rw [List.length_nil, Nat.zero_mul] at capacity
      omega
    · have after := verging.cursor
      omega

/-- What a write at the cursor of `s` that succeeds leaves: its bytes there, and the other ones as they were. -/
structure Stored (home : Nat → CacheKind) (cs cs' : List Nat) (buf : List UInt8)
    (s s' : FileSession size n) : Prop where
  owns : (s'.fs.volume home).Owns home s'.file.details.flags.noFatChain s'.file.chain cs'
  written : ∀ i (inside : i < buf.length), (s'.fs.volume home).fileByte cs' (s.file.cursor + i) = buf[i]
  kept : ∀ i < cs.length * s.fs.fs.clusterLength, i < s.file.cursor ∨ s.file.cursor + buf.length ≤ i →
    (s'.fs.volume home).fileByte cs' i = (s.fs.volume home).fileByte cs i
  validDataLength : s'.file.details.validDataLength = max (s.file.cursor + buf.length) s.file.details.validDataLength
  dataLength : s'.file.details.dataLength = max s'.file.details.validDataLength s.file.details.dataLength

/-- A write either fails and leaves the valid data length or stores all of its bytes. -/
theorem Poised.write (poised : Poised home cs s) {buf : List UInt8} (nonempty : buf ≠ [])
    (fits : (HandleOp.write buf).Fits s)
    (smooth : ¬ Trips size s.fs.fs.clusterLength s.file.cursor buf.length) :
    ((File.write buf s).1 ≠ .ok () ∧ SameValid s (File.write buf s).2) ∨ ∃ cs',
      Stored home cs cs' buf s (File.write buf s).2 := by
  have bound : s.capacity < 2 ^ 64 := lt_of_le_of_lt (Nat.mul_le_mul_right _ poised.clusters) poised.toHolds.capacity
  by_cases small : s.file.cursor + buf.length < 2 ^ 64
  · obtain ⟨r, s₁, added, run₁, ⟨valid₁, cursor₁⟩, length₁, outcome⟩ :=
      poised.reserve (List.length_pos_iff.mpr nonempty) fits.1 fits.2
    rw [write_eq poised.layout.mounted poised.enabled nonempty bound small]
    rcases r with e | ⟨⟩
    · rw [Exec.bind_of_error run₁]
      exact Or.inl ⟨by simp, valid₁⟩
    · obtain ⟨holds, denotes, room, dataLength₁, same⟩ := outcome.resolve_left fun other => other rfl
      rw [Exec.bind_of_ok run₁]
      obtain ⟨s₂, run₂, fs₂, holds₂, denotes₂, cursor₂, valid₂, dataLength₂⟩ : ∃ s₂, updateDataLength buf.length s₁ =
        (.ok (), s₂) ∧
          s₂.fs = s₁.fs ∧ Holds home (cs ++ added) s₂ ∧ Denotes s₂.fs.fs.clusterLength (cs ++ added) s₂.file ∧
            s₂.file.cursor = s₁.file.cursor ∧
            s₂.file.details.validDataLength = max (s₁.file.cursor + buf.length) s₁.file.details.validDataLength ∧
            s₂.file.details.dataLength = max s₂.file.details.validDataLength s₁.file.details.dataLength :=
        ⟨_, updateDataLength_run (by omega), rfl, holds.rewritten holds.sound (.refl _) rfl rfl, denotes,
          rfl, rfl, rfl⟩
      rw [Exec.bind_of_ok run₂]
      rw [← length₁, ← cursor₁, ← fs₂, ← cursor₂] at room smooth
      obtain ⟨s', run', put, _⟩ := writeBytes_put holds₂ denotes₂ nonempty room smooth
      have bytes : ∀ i < (cs ++ added).length * s₂.fs.fs.clusterLength, (s'.fs.volume home).fileByte (cs ++ added) i =
          if s₂.file.cursor ≤ i ∧ i < s₂.file.cursor + buf.length then (buf[i - s₂.file.cursor]?).getD 0
          else (s₂.fs.volume home).fileByte (cs ++ added) i := put.spliced.bytes
      have valid₁ : s₁.file.details.validDataLength = s.file.details.validDataLength := valid₁
      have longer : cs.length * s₂.fs.fs.clusterLength ≤ (cs ++ added).length * s₂.fs.fs.clusterLength := by
        rw [List.length_append]
        exact Nat.mul_le_mul_right _ (Nat.le_add_right _ _)
      rw [run']
      refine Or.inr ⟨cs ++ added, put.holds.owns, fun i inside => ?_, fun i within outside => ?_, ?_, ?_⟩
      · rw [← cursor₁, ← cursor₂, bytes _ (by omega), if_pos (by omega), Nat.add_sub_cancel_left,
          List.getElem?_eq_getElem inside,
          Option.getD_some]
      · have here : i < cs.length * s₂.fs.fs.clusterLength := by rwa [fs₂, length₁]
        rw [← cursor₁, ← cursor₂] at outside
        rw [bytes i (by omega), if_neg (by omega), fs₂, same i within]
      · rw [put.moved.details, valid₂, cursor₁, valid₁]
      · rw [put.moved.details, dataLength₂, dataLength₁]
  · rw [write_overflows poised.layout.mounted poised.enabled nonempty bound (Nat.le_of_not_lt small)]
    exact Or.inl ⟨by simp, rfl⟩

theorem call_sameValid (s : FileSession size n) {c : FileCall} (other : ∀ buf, c ≠ .write buf) :
    SameValid s (s.call c) := by
  cases c with
  | read len => exact read_respects (sameValid_edits fun _ => .data).toMoves len s
  | seek cursor => exact seek_respects (sameValid_edits fun _ => .data).toMoves cursor s
  | write buf => exact absurd rfl (other buf)
  | flush => exact flush_sameValid s

theorem reserve_sameEnds (length : Nat) : Respects SameEnds (reserve length : ExFat (FileSession size n) Unit) :=
  .bind .get fun _ => .ite (.bind .get fun _ => allocateRuns_respects (sameEnds_extends fun _ => .data) _ _) (.pure _)

/-- A write that does not get its clusters leaves the valid data length as it was. -/
theorem write_unreserved {buf : List UInt8} (mounted : s.fs.isMounted = true)
    (fails : (reserve buf.length s).1 ≠ .ok ()) :
    SameValid s (File.write buf s).2 := by
  by_cases nonempty : buf = []
  · subst nonempty
    exact rfl
  cases enabled : s.file.openOptions.write with
  | false =>
    rw [write_refused mounted enabled nonempty]
    exact rfl
  | true =>
    by_cases capacity : s.capacity < 2 ^ 64
    · by_cases fits : s.file.cursor + buf.length < 2 ^ 64
      · rw [write_eq mounted enabled nonempty capacity fits]
        have same := reserve_sameEnds (n := n) buf.length s
        rcases run : reserve buf.length s with ⟨e | ⟨⟩, s₁⟩
        · rw [run] at same
          rw [Exec.bind_of_error run]
          exact same.1
        · exact absurd (by rw [run]) fails
      · rw [write_overflows mounted enabled nonempty capacity (Nat.le_of_not_lt fits)]
        exact rfl
    · rw [File.write, if_neg (by simpa using nonempty), Exec.bind_of_ok (mount_run mounted),
        Exec.bind_of_ok (Exec.get_apply s), enabled, if_neg (by simp)]
      exact congrArg (fun r : Except (Fault ExFatError) Unit × FileSession size n => r.2.file.details.validDataLength)
        (Exec.bind_of_error (u64_of_le (Nat.le_of_not_lt capacity) s))

/-- What a careful write adds to the valid data, it stores. -/
theorem Careful.stored {buf : List UInt8} {script : List (Option (Block size))}
    (careful : Careful home s (.write buf) script) {o : Nat}
    (below : o < ((s.withScript script).call (.write buf)).file.details.validDataLength) :
    o < s.file.details.validDataLength ∨ StoredBy home (s.withScript script) (.write buf) o := by
  by_cases raised : s.file.details.validDataLength < s.file.cursor + buf.length
  · rcases careful buf rfl raised with ⟨mounted, fails⟩ | ⟨within, rfl, ⟨cs, ready⟩, fits, smooth⟩
    · exact Or.inl (lt_of_lt_of_eq below (write_unreserved (s := s.withScript script) mounted fails))
    have nonempty : buf ≠ [] := by
      rintro rfl
      rw [List.length_nil] at raised
      omega
    by_cases old : o < s.file.details.validDataLength
    · exact Or.inl old
    rcases ready.poised.write nonempty fits smooth with ⟨_, same⟩ | ⟨cs', done⟩
    · exact absurd (lt_of_lt_of_eq below same) old
    · obtain ⟨i, rfl⟩ : ∃ i, o = s.file.cursor + i := ⟨o - s.file.cursor, by omega⟩
      have inside : i < buf.length := by
        rcases write_reaching buf (s.withScript []) with same | same
        · exact absurd (lt_of_lt_of_eq below same) old
        · have most : s.file.cursor + i < max (s.file.cursor + buf.length) s.file.details.validDataLength :=
            lt_of_lt_of_eq below same
          omega
      exact Or.inr ⟨buf, i, rfl, rfl, inside, cs', done.owns, done.written i inside⟩
  · rcases write_reaching buf (s.withScript script) with same | same
    · exact Or.inl (lt_of_lt_of_eq below same)
    · have whole : ((s.withScript script).call (.write buf)).file.details.validDataLength =
        s.file.details.validDataLength :=
        same.trans (Nat.max_eq_right (Nat.le_of_not_lt raised))
      exact Or.inl (lt_of_lt_of_eq below whole)

/-- In every run of careful calls, in which the device may fail in every other way, each offset
below the valid data length was below it at first or has been stored by a write since. -/
theorem valid_data_is_written {s₀ : FileSession size n} {stored : Nat → Prop}
    (reaches : Reaches home (Careful home) s₀ stored s) :
    ∀ o < s.file.details.validDataLength, o < s₀.file.details.validDataLength ∨ stored o := by
  induction reaches with
  | start => exact fun o below => Or.inl below
  | @next stored s c script _ careful ih =>
    intro o below
    have before : o < s.file.details.validDataLength ∨ StoredBy home (s.withScript script) c o := by
      by_cases write : ∃ buf, c = .write buf
      · obtain ⟨buf, rfl⟩ := write
        exact careful.stored below
      · have same := call_sameValid (s.withScript script) (c := c) fun buf same => write ⟨buf, same⟩
        exact Or.inl (lt_of_lt_of_eq below same)
    rcases before with old | new
    · exact (ih o old).imp_right Or.inl
    · exact Or.inr (Or.inr new)

theorem ready_of_writable (writable : Writable home cs s) : Ready home cs s where
  toHolds := writable.toHolds
  clusters := writable.clusters.ge
  valid := writable.valid
  cursor := writable.cursor.trans writable.valid
  enabled := writable.enabled
  position := writable.position

/-- The last byte of the first cluster of a new file is valid after a write of as many bytes,
and is what was written. -/
theorem valid_data_is_written_one_cluster : StoredBy smallHome (⟨smallVolume, emptyFile⟩ : FileSession 512 1)
    (.write (List.replicate 512 7)) 511 := by
  obtain ⟨buf, same⟩ : ∃ buf : List UInt8, buf = List.replicate 512 7 := ⟨_, rfl⟩
  have length : buf.length = 512 := by rw [same, List.length_replicate]
  have valid : ((⟨smallVolume, emptyFile⟩ : FileSession 512 1).call (.write buf)).file.details.validDataLength =
      512 := by
    rw [same]
    decide +kernel
  have careful : Careful smallHome (⟨smallVolume, emptyFile⟩ : FileSession 512 1) (.write buf) [] := by
    rintro buf ⟨⟩ _
    rw [HandleOp.Fits, length]
    exact Or.inr ⟨le_rfl, rfl, ⟨[], ready_of_writable emptyFile_writable⟩, ⟨by decide, by decide⟩, by decide⟩
  have reaches : Reaches smallHome _ _ _ _ := .next (.write buf) [] .start careful
  rw [← same]
  rcases valid_data_is_written reaches 511 (lt_of_lt_of_eq (by decide) valid.symm) with old | none_ | new
  · exact absurd old (Nat.not_lt_zero 511)
  · exact none_.elim
  · exact new

open FileSystem

/-- A volume with a file `f` in the clusters 3 and 4 that has no valid data, and old bytes in cluster 3. -/
def staleVolume : FileSystem 512 1 :=
  { pairVolume with
    dev := ⟨fun s =>
      if s = 10 then fun i => if i.val = 0 then 7 else 0
      else if s = 100 then entrySector ((archiveSet 102 35 3 1024).set 1 (StreamExtensionDirEntry.serialize {
        generalSecondaryFlags := Session.allocatedFlags, nameLength := 1, nameHash := 35, validDataLength := 0
        firstCluster := 3, dataLength := 1024 }))
      else if s = 101 then fun _ => 0xEE
      else fun _ => 0, [], []⟩ }

def staleDetails : FileDetails := { pairDetails with validDataLength := 0 }

/-- The handle of `f`. -/
def staleSession : FileSession 512 1 :=
  ⟨(«open» 40 ['f'] pairOptions staleVolume).2, opened staleDetails [3, 4] 512 pairOptions⟩

theorem staleVolume_fit : staleVolume.Fit smallHome where
  sound := sound_of_new _ rfl fun k => by cases k <;> rfl
  layout := smallVolume_layout.of_same rfl rfl rfl rfl
  search := le_rfl
  room c _ _ := pairVolume_data c

theorem staleVolume_stores : (staleVolume.volume smallHome).Stores smallHome staleDetails [3, 4] where
  count := by decide
  valid := Nat.zero_le _
  first c head := (Option.some.inj head).symm
  contiguous _ := rfl
  linked flag := by cases flag
  distinct := by decide
  inHeap c member := by
    rcases List.mem_pair.mp member with rfl | rfl <;> exact ⟨by decide, by decide⟩
  used c member := by
    unfold Volume.IsFree
    rcases List.mem_pair.mp member with rfl | rfl <;> decide +kernel
  data c _ := pairVolume_data c

theorem staleSession_opened : «open» 40 ['f'] pairOptions staleVolume = (.ok staleSession.file, staleSession.fs) :=
  (open_found_state staleVolume_fit (by decide +kernel) staleVolume_stores rfl rfl).1

/-- Reading takes the cursor past the end of the valid data, and a byte written there makes the bytes before it valid,
which have read as zeros and then read as what the cluster held before. -/
theorem gap_becomes_valid :
    staleVolume.Fit smallHome ∧ (staleVolume.volume smallHome).Stores smallHome staleDetails [3, 4] ∧
    «open» 40 ['f'] pairOptions staleVolume = (.ok staleSession.file, staleSession.fs) ∧
    ∃ stored s, Reaches smallHome (fun _ _ _ => True) staleSession stored s ∧
      (∃ o < s.file.details.validDataLength, ¬ o < staleSession.file.details.validDataLength ∧ ¬ stored o) ∧
      (File.read 1 staleSession).1 = .ok (some [0]) ∧ (File.read 1 (s.call (.seek 0))).1 = .ok (some [0xEE]) := by
  have first : Reaches smallHome (fun _ _ _ => True) staleSession _ _ := .next (.read 5) [] .start trivial
  have cursor : ((staleSession.withScript []).call (.read 5)).file.cursor = 5 := by decide +kernel
  refine ⟨staleVolume_fit, staleVolume_stores, staleSession_opened, _, _, .next (.write [1]) [] first trivial,
    ⟨0, by decide +kernel, by decide +kernel, ?_⟩, by decide +kernel, by decide +kernel⟩
  rintro ((none_ | ⟨_, _, same, _⟩) | ⟨buf, i, same, place, _⟩)
  · exact none_
  · cases same
  · rw [withScript, cursor] at place
    omega

end FileSession

end ExFatSlim
