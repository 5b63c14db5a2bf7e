import ExFatSlim.Lib.Commutes
import ExFatSlim.Reading
import ExFatSlim.ValidData

namespace ExFatSlim

open Exec

/-- What the caller of an operation of a handle sees. -/
inductive Answer where
  | read (result : Except (Fault ExFatError) (Option (List UInt8)))
  | done (result : Except (Fault ExFatError) Unit)
  deriving DecidableEq

namespace HandleOp

variable {size n : Nat}

def answer : HandleOp → FileSession size n → Answer
  | .read len, s => .read (File.read len s).1
  | .seek cursor, s => .done (File.seek cursor s).1
  | .write buf, s => .done (File.write buf s).1

/-- What the caller of the operations sees, one after the other. -/
def answers : List HandleOp → FileSession size n → List Answer
  | [], _ => []
  | op :: rest, s => op.answer s :: answers rest (op.run s)

end HandleOp

/-- The options with `write` as given. -/
def OpenOptions.withWrite (options : OpenOptions) (write : Bool) : OpenOptions := { options with write }

def File.withWrite (file : File) (write : Bool) : File :=
  { file with openOptions := file.openOptions.withWrite write }

namespace FileSession

variable {size n : Nat}

def setWrite (write : Bool) (s : FileSession size n) : FileSession size n := { s with file := s.file.withWrite write }

variable {write : Bool} {α : Type}

theorem onFs_commutes (m : ExFat (FileSystem size n) α) :
    Commutes (setWrite write) (onFs m : ExFat (FileSession size n) α) :=
  .zoom m (fun _ => rfl) fun _ _ => rfl

theorem u32_commutes (k : Nat) : Commutes (setWrite write) (u32 k : ExFat (FileSession size n) Nat) :=
  .ite (.pure _) .panic

theorem u64_commutes (k : Nat) : Commutes (setWrite write) (u64 k : ExFat (FileSession size n) Nat) :=
  .ite (.pure _) .panic

theorem minus_commutes (a b : Nat) : Commutes (setWrite write) (minus a b : ExFat (FileSession size n) Nat) :=
  .ite (.pure _) .panic

theorem modifyFile_commutes {g : File → File}
    (same : ∀ file : File, g (file.withWrite write) = (g file).withWrite write) :
    Commutes (setWrite write) (modifyFile g : ExFat (FileSession size n) Unit) :=
  .modify fun s => congrArg (FileSession.mk s.fs) (same s.file)

end FileSession

namespace File

open FileSession

variable {size n : Nat} {write : Bool}

theorem moveFileCursor_commutes (k : Nat) :
    Commutes (setWrite write) (moveFileCursor k : ExFat (FileSession size n) Unit) :=
  .get (fun _ => rfl) fun _ => .bind (u64_commutes _) fun _ => .bind (modifyFile_commutes fun _ => rfl) fun _ =>
    .bind (minus_commutes _ _) fun _ => modifyFile_commutes fun _ => rfl

theorem nextCursorId_commutes : Commutes (setWrite write) (nextCursorId : ExFat (FileSession size n) Nat) := by
  refine .get (fun _ => rfl) fun s => ?_
  dsimp only
  split
  · exact .raise _
  · exact .bind (u32_commutes _) fun _ => .bind (u32_commutes _) fun _ => .ite (.pure _) (.raise _)
  · refine .bind (onFs_commutes _) fun next => ?_
    cases next with
    | some next => exact .pure _
    | none => exact .raise _

theorem nextClusterIfRequired_commutes :
    Commutes (setWrite write) (nextClusterIfRequired : ExFat (FileSession size n) Unit) := by
  refine .get (fun _ => rfl) fun _ => .ite ?_ (.pure _)
  exact .bind nextCursorId_commutes fun _ => .bind (modifyFile_commutes fun _ => rfl) fun _ =>
    .get (fun _ => rfl) fun _ => modifyFile_commutes fun _ => rfl

theorem getCurrentSectorId_commutes :
    Commutes (setWrite write) (getCurrentSectorId : ExFat (FileSession size n) Nat) :=
  .get (fun _ => rfl) fun _ => .bind (.ite (.raise _) (u32_commutes _)) fun _ => u32_commutes _

theorem readIn_commutes (len rounds : Nat) : ∀ out,
    Commutes (setWrite write) (readIn len rounds out : ExFat (FileSession size n) (List UInt8)) := by
  induction rounds with
  | zero => exact fun _ => .diverge
  | succ rounds ih =>
    intro out
    refine .get (fun _ => rfl) fun s => .bind nextClusterIfRequired_commutes fun _ => ?_
    refine .bind getCurrentSectorId_commutes fun sectorId => .get (fun _ => rfl) fun s' => ?_
    have rest : ∀ bytes : List UInt8, Commutes (setWrite write) (do
        moveFileCursor bytes.length
        let out := out ++ bytes
        if out.length = len ∨ (← get).file.eof then pure out else readIn len rounds out :
          ExFat (FileSession size n) (List UInt8)) :=
      fun bytes => .bind (moveFileCursor_commutes _) fun _ => .get (fun _ => rfl) fun _ => .ite (.pure _) (ih _)
    refine .ite (.bind (onFs_commutes _) fun block => ?_) ?_
    · exact .bind (.pure _) rest
    · exact .bind (.pure _) rest

/-- Whether a handle can be written to makes no difference to a read. -/
theorem read_commutes (len : Nat) : Commutes (setWrite write) (read len : ExFat (FileSession size n) _) :=
  .bind (onFs_commutes _) fun _ => .get (fun _ => rfl) fun _ => .when (.raise _) fun _ =>
    .ite (.pure _) (.ite (.pure _) (.bind (readIn_commutes _ _ _) fun _ => .pure _))

theorem updateRemainingBytesInCluster_commutes :
    Commutes (setWrite write) (updateRemainingBytesInCluster : ExFat (FileSession size n) Unit) :=
  .get (fun _ => rfl) fun _ => .bind (minus_commutes _ _) fun _ => modifyFile_commutes fun _ => rfl

/-- Nor to a seek. -/
theorem seek_commutes (cursor : Nat) : Commutes (setWrite write) (seek cursor : ExFat (FileSession size n) Unit) := by
  refine .bind (onFs_commutes _) fun _ => .get (fun _ => rfl) fun _ => .when (.raise _) fun _ => ?_
  refine .bind (modifyFile_commutes fun _ => rfl) fun _ => .get (fun _ => rfl) fun s => ?_
  dsimp only
  split
  · exact modifyFile_commutes fun _ => rfl
  · exact .bind (u32_commutes _) fun _ => .bind (modifyFile_commutes fun _ => rfl) fun _ =>
      updateRemainingBytesInCluster_commutes
  · exact .bind (onFs_commutes _) fun _ => .bind (modifyFile_commutes fun _ => rfl) fun _ =>
      updateRemainingBytesInCluster_commutes

end File

namespace HandleOp

open FileSession

variable {size n : Nat} {write : Bool}

/-- A call that writes no bytes has the same answer and the same effect on a handle that can be
written to and on one that cannot. -/
theorem run_setWrite {op : HandleOp} (silent : ∀ buf, op = .write buf → buf = []) (s : FileSession size n) :
    op.answer (s.setWrite write) = op.answer s ∧ op.run (s.setWrite write) = (op.run s).setWrite write := by
  cases op with
  | read len =>
    have same : File.read len (s.setWrite write) = _ := File.read_commutes len s
    exact ⟨by rw [answer, same]; rfl, by rw [run, same]; rfl⟩
  | seek cursor =>
    have same : File.seek cursor (s.setWrite write) = _ := File.seek_commutes cursor s
    exact ⟨by rw [answer, same]; rfl, by rw [run, same]; rfl⟩
  | write buf =>
    cases silent buf rfl
    exact ⟨rfl, rfl⟩

theorem answers_setWrite {ops : List HandleOp} (silent : ∀ buf, .write buf ∈ ops → buf = [])
    (s : FileSession size n) :
    answers ops (s.setWrite write) = answers ops s := by
  induction ops generalizing s with
  | nil => rfl
  | cons op rest ih =>
    have first : ∀ buf, op = .write buf → buf = [] := fun buf same => silent buf (same ▸ List.mem_cons_self)
    obtain ⟨answered, ran⟩ := run_setWrite first s
    rw [answers, answers, answered, ran, ih fun buf member => silent buf (List.mem_cons_of_mem _ member)]

end HandleOp

theorem File.new_withWrite {σ : Type} {details : FileDetails} {clusterId clusterLength : Nat} {options : OpenOptions}
    {chain : StoredChain} {file : File} {write : Bool} {s s' : σ}
    (made : File.new details clusterId clusterLength options chain s = (.ok file, s')) :
    File.new details clusterId clusterLength (options.withWrite write) chain s =
      (.ok (file.withWrite write), s') := by
  cases chain with
  | empty =>
    cases made
    rfl
  | _ =>
    obtain ⟨remaining, s₁, placed, last⟩ := Exec.bind_eq_ok.mp made
    cases last
    exact (Exec.bind_of_ok placed).trans rfl

namespace FileSystem

variable {size n : Nat} {write : Bool}

/-- Whether a file is opened for writing makes no difference to how it is opened. -/
theorem open_withWrite {fuel : Nat} {path : List Char} {options : OpenOptions} {fs fs' : FileSystem size n}
    {file : File}
    (opens : «open» fuel path options fs = (.ok file, fs')) :
    «open» fuel path (options.withWrite write) fs = (.ok (file.withWrite write), fs') := by
  obtain ⟨_, fs₁, mounted, run⟩ := Exec.bind_eq_ok.mp opens
  obtain ⟨details, fs₂, found, run⟩ := Exec.bind_eq_ok.mp run
  obtain ⟨chain, fs₃, stored, run⟩ := Exec.bind_eq_ok.mp run
  obtain ⟨clusterId, fs₄, started, run⟩ := Exec.bind_eq_ok.mp run
  obtain ⟨_, _, got, run⟩ := Exec.bind_eq_ok.mp run
  cases got
  refine (Exec.bind_of_ok mounted).trans ((Exec.bind_of_ok (m := openDetails fuel path options) found).trans
    ((Exec.bind_of_ok stored).trans ((Exec.bind_of_ok (m := openCluster details chain options) started).trans
      ((Exec.bind_of_ok (Exec.get_apply _)).trans (File.new_withWrite run)))))

end FileSystem

namespace FileSession

open File

variable {size n : Nat} {home : Nat → CacheKind} {s s' : FileSession size n} {cs : List Nat} {buf : List UInt8}

/-- A write that puts some bytes is made at the end of the valid data, the handle is where that
is, in the chain or right after a contiguous one at a free cluster, and the write does not trip
over the start of a cluster. -/
def Appendable (home : Nat → CacheKind) (s : FileSession size n) (buf : List UInt8) : Prop :=
  s.file.openOptions.write = true → buf ≠ [] → s.file.cursor = s.file.details.validDataLength ∧
    (∀ cs, (s.fs.volume home).Owns home s.file.details.flags.noFatChain s.file.chain cs →
      Positioned s.fs.fs.clusterLength cs s.file ∨
        (Verging home cs s ∧ s.file.remainingBytesInCluster = s.fs.fs.clusterLength)) ∧
    ¬ Trips size s.fs.fs.clusterLength s.file.cursor buf.length

def WritesAtEnd (home : Nat → CacheKind) (op : HandleOp) (s : FileSession size n) : Prop :=
  ∀ buf, op = .write buf → Appendable home s buf

/-- The bytes of `buf` follow the valid data of `s`, and what `s` held besides is as it was. -/
structure Appended (home : Nat → CacheKind) (cs cs' : List Nat) (buf : List UInt8)
    (s s' : FileSession size n) : Prop where
  held : (s.fs.volume home).Owns home s.file.details.flags.noFatChain s.file.chain cs
  owns : (s'.fs.volume home).Owns home s'.file.details.flags.noFatChain s'.file.chain cs'
  written : ∀ i (inside : i < buf.length),
    (s'.fs.volume home).fileByte cs' (s.file.details.validDataLength + i) = buf[i]
  kept : ∀ i < s.file.details.dataLength, i < s.file.details.validDataLength ∨
    s.file.details.validDataLength + buf.length ≤ i →
    contentByte (s'.fs.volume home) cs' s'.file i = contentByte (s.fs.volume home) cs s.file i
  validDataLength : s'.file.details.validDataLength = s.file.details.validDataLength + buf.length
  dataLength : s'.file.details.dataLength =
    max (s.file.details.validDataLength + buf.length) s.file.details.dataLength

theorem Sized.poised (sized : Sized home cs s) (appendable : Appendable home s buf)
    (enabled : s.file.openOptions.write = true)
    (nonempty : buf ≠ []) : Poised home cs s :=
  ⟨sized, enabled, (appendable enabled nonempty).2.1 cs sized.owns⟩

theorem Poised.place (poised : Poised home cs s) : cs = [] ∨ s.file.currentCluster ∈ cs ∨ Verging home cs s := by
  rcases poised.position with (⟨none_, _⟩ | inside | past) | ⟨verging, _⟩
  · exact Or.inl none_
  · exact Or.inr (Or.inl (List.mem_of_getElem? inside.1))
  · exact Or.inr (Or.inl (List.mem_of_getElem? past.2.2.2))
  · exact Or.inr (Or.inr verging)

theorem Near.next (near : Near home cs s) {op : HandleOp} (fits : op.Fits s) (allowed : WritesAtEnd home op s) :
    ∃ cs', Near home cs' (op.run s) := by
  cases op with
  | read len => exact near.run fits fun _ _ _ none_ => by cases none_
  | seek c => exact near.run fits fun _ _ _ none_ => by cases none_
  | write buf =>
    by_cases nonempty : buf = []
    · subst nonempty
      exact ⟨cs, near⟩
    cases enabled : s.file.openOptions.write with
    | false =>
      rw [HandleOp.run, write_refused near.layout.mounted enabled nonempty]
      exact ⟨cs, near⟩
    | true =>
      have poised := near.toSized.poised (allowed buf rfl) enabled nonempty
      rcases near.toSized.write poised.place fits.1 fits.2 with same | ⟨added, kept, _⟩
      · rw [HandleOp.run, same]
        exact ⟨cs, near⟩
      · exact ⟨cs ++ added, kept.near⟩

theorem Near.runs_at_end (near : Near home cs s) (runs : HandleOp.Runs (WritesAtEnd home) s s') :
    ∃ cs', Near home cs' s' := by
  induction runs with
  | start => exact ⟨cs, near⟩
  | next op _ fits allowed ih =>
    obtain ⟨cs₁, near₁⟩ := ih
    exact near₁.next fits allowed

theorem Near.appends (near : Near home cs s) (fits : (HandleOp.write buf).Fits s) (appendable : Appendable home s buf)
    (run : File.write buf s = (.ok (), s')) : ∃ cs', Appended home cs cs' buf s s' := by
  have valid := near.valid
  by_cases nonempty : buf = []
  · subst nonempty
    cases run
    exact ⟨cs, near.owns, near.owns, fun i none_ => absurd none_ (Nat.not_lt_zero i), fun _ _ _ => rfl, rfl,
      (Nat.max_eq_right valid).symm⟩
  cases enabled : s.file.openOptions.write with
  | false =>
    rw [write_refused near.layout.mounted enabled nonempty] at run
    cases run
  | true =>
    obtain ⟨here, _, smooth⟩ := appendable enabled nonempty
    have poised := near.toSized.poised appendable enabled nonempty
    rcases poised.write nonempty fits smooth with ⟨failed, _⟩ | ⟨cs', done⟩
    · rw [run] at failed
      exact absurd rfl failed
    · rw [run] at done
      have grown : s'.file.details.validDataLength = s.file.details.validDataLength + buf.length := by
        rw [done.validDataLength, here, Nat.max_eq_left (Nat.le_add_right _ _)]
      refine ⟨cs', near.owns, done.owns, here ▸ done.written, fun i inFile outside => ?_, grown, ?_⟩
      · have inChain := near.fits
        rw [contentByte, contentByte, grown, done.kept i (by omega) (by omega)]
        rcases outside with before | after
        · rw [if_pos before, if_pos (by omega)]
        · rw [if_neg (by omega), if_neg (by omega)]
      · rw [done.dataLength, grown]

end FileSession

namespace FileSystem

open FileSession File

variable {size n : Nat} {home : Nat → CacheKind} {fs fs' : FileSystem size n} {fuel : Nat} {path : List Char}
  {options : OpenOptions} {file : File}

/-- In every run in which each write is made at the end of the valid data, with the handle
there, every write that succeeds appends. Without the option to write, a handle for appending
behaves as with it as long as no bytes are written. -/
theorem append_appends (fit : fs.Fit home)
    (stored : ∀ details fs₁, findFileInner fuel path (some attrArchive) fs = (.ok details, fs₁) →
      ∃ cs, (fs.volume home).Stores home details cs) (append : options.append = true)
    (opens : «open» fuel path options fs = (.ok file, fs')) (left : fs'.Fit home) :
    file.cursor = file.details.validDataLength ∧
    (∀ s, HandleOp.Runs (WritesAtEnd home) ⟨fs', file⟩ s → ∀ buf s', (HandleOp.write buf).Fits s →
      Appendable home s buf →
      File.write buf s = (.ok (), s') → ∃ cs cs', Appended home cs cs' buf s s') ∧
    ∀ ops, (∀ buf, .write buf ∈ ops → buf = []) → ∀ write, ∃ other,
      «open» fuel path (options.withWrite write) fs = (.ok other, fs') ∧
        HandleOp.answers ops (⟨fs', other⟩ : FileSession size n) = HandleOp.answers ops ⟨fs', file⟩ := by
  refine ⟨?_, fun s runs buf s' fits appendable run => ?_, fun ops silent write => ?_⟩
  · obtain ⟨details, cs, rfl, _⟩ := open_ok fit stored opens
    simp [opened, append]
  · obtain ⟨cs₀, kept₀⟩ := open_kept fit stored opens left
    obtain ⟨cs, near⟩ := kept₀.near.runs_at_end runs
    exact ⟨cs, near.appends fits appendable run⟩
  · exact ⟨file.withWrite write, open_withWrite opens, HandleOp.answers_setWrite silent ⟨fs', file⟩⟩

def appendOptions : OpenOptions := { read := true, write := true, append := true }

theorem staleVolume_stored :
    ∀ details fs₁, findFileInner 40 ['f'] (some attrArchive) staleVolume = (.ok details, fs₁) →
    ∃ cs, (staleVolume.volume smallHome).Stores smallHome details cs := by
  intro details fs₁ found
  have same : (findFileInner 40 ['f'] (some attrArchive) staleVolume).1 = .ok staleDetails := by decide +kernel
  rw [found] at same
  cases same
  exact ⟨[3, 4], staleVolume_stores⟩

/-- The handle for appending of a file of two clusters without valid data. -/
def staleAppend : FileSession 512 1 :=
  ⟨(«open» 40 ['f'] appendOptions staleVolume).2, opened staleDetails [3, 4] 512 appendOptions⟩

theorem staleAppend_opened : «open» 40 ['f'] appendOptions staleVolume = (.ok staleAppend.file, staleAppend.fs) ∧
    staleAppend.fs.Fit smallHome :=
  open_found_state staleVolume_fit (by decide +kernel) staleVolume_stores rfl rfl

/-- After a seek to the start, which is the end of the valid data, a byte is appended. -/
theorem append_appends_stale : ∃ s s', File.seek 0 staleAppend = (.ok (), s) ∧ File.write [1] s = (.ok (), s') ∧
    ∃ cs cs', Appended smallHome cs cs' [1] s s' := by
  refine ⟨(File.seek 0 staleAppend).2, (File.write [1] (File.seek 0 staleAppend).2).2,
    Exec.run_of_fst (by decide +kernel),
    Exec.run_of_fst (by decide +kernel), ?_⟩
  have runs : HandleOp.Runs (WritesAtEnd smallHome) staleAppend (File.seek 0 staleAppend).2 :=
    .next (.seek 0) .start trivial fun _ none_ => by cases none_
  have chain : (File.seek 0 staleAppend).2.file.chain = .contiguous 3 2 := by decide +kernel
  have current : (File.seek 0 staleAppend).2.file.currentCluster = 3 := by decide +kernel
  have cursor : (File.seek 0 staleAppend).2.file.cursor = 0 := by decide +kernel
  have remaining : (File.seek 0 staleAppend).2.file.remainingBytesInCluster = 512 := by decide +kernel
  have length : (File.seek 0 staleAppend).2.fs.fs.clusterLength = 512 := by decide +kernel
  obtain ⟨opens, left⟩ := staleAppend_opened
  refine (append_appends staleVolume_fit staleVolume_stored rfl opens left).2.1 _ runs [1] _
    ⟨by decide +kernel, by decide +kernel⟩
    (fun _ _ => ⟨by decide +kernel, fun cs owns => Or.inl (Or.inr (Or.inl ⟨?_, ?_⟩)), by decide +kernel⟩)
    (Exec.run_of_fst (by decide +kernel))
  · have lists := owns.lists
    rw [chain] at lists
    rw [lists.2, cursor, current]
    rfl
  · rw [remaining, cursor, length]

/-- The handle for appending of `f`, whose two clusters are full. -/
def pairAppend : FileSession 512 1 :=
  ⟨(«open» 40 ['f'] appendOptions pairVolume).2, opened pairDetails [3, 4] 512 appendOptions⟩

/-- A byte that is appended to a file that fills its last cluster is put at the start of that
cluster, and it cannot be written at all without the option to write. -/
theorem append_overwrites :
    pairVolume.Fit smallHome ∧ (pairVolume.volume smallHome).Stores smallHome pairDetails [3, 4] ∧
    «open» 40 ['f'] appendOptions pairVolume = (.ok pairAppend.file, pairAppend.fs) ∧
    (∃ s', File.write [1] pairAppend = (.ok (), s') ∧ ¬ ∃ cs cs', Appended smallHome cs cs' [1] pairAppend s') ∧
    HandleOp.answers [.write [1]] pairAppend = [.done (.ok ())] ∧
    HandleOp.answers [.write [1]] (pairAppend.setWrite false) = [.done (.error (.error .writeNotEnabled))] := by
  have opens : «open» 40 ['f'] appendOptions pairVolume = (.ok pairAppend.file, pairAppend.fs) :=
    (open_found_state pairVolume_fit (by decide +kernel) pairVolume_stores rfl rfl).1
  refine ⟨pairVolume_fit, pairVolume_stores, opens, ⟨_, Exec.run_of_fst (by decide +kernel), ?_⟩, by decide +kernel,
    by decide +kernel⟩
  rintro ⟨cs, cs', appended⟩
  have held := appended.held.lists
  rw [show pairAppend.file.chain = .contiguous 3 2 from rfl] at held
  have flag : (File.write [1] pairAppend).2.file.details.flags.noFatChain = false := by decide +kernel
  have chain : (File.write [1] pairAppend).2.file.chain = .fat 3 6 3 := by decide +kernel
  have second : ((File.write [1] pairAppend).2.fs.volume smallHome).next 3 = some 4 := by decide +kernel
  have owns := appended.owns
  rw [flag, chain] at owns
  have kept := appended.kept 512 (by decide) (Or.inl (by decide))
  rw [owns_three owns second, held.2] at kept
  have before : File.contentByte (pairAppend.fs.volume smallHome) (List.range' 3 2) pairAppend.file 512 = 0 := by
    decide +kernel
  have after : File.contentByte ((File.write [1] pairAppend).2.fs.volume smallHome) [3, 4, 6]
      (File.write [1] pairAppend).2.file 512 = 1 := by decide +kernel
  rw [before, after] at kept
  cases kept

end FileSystem

end ExFatSlim
