import ExFatSlim.Fs
import ExFatSlim.Lib.Respects

namespace ExFatSlim

namespace Handles

variable {T : Type} {t t' u : Handles T} {h k : UInt32} {stored : Stored T}

@[simp] theorem get_clear : t.clear.get h = none := by
  simp [clear, get]

@[simp] theorem get_put : (t.put h stored).get k = if h = k then some stored else t.get k := by
  simp [put, get, Std.TreeMap.getElem?_insert]

@[simp] theorem get_remove : (t.remove h).get k = if h = k then none else t.get k := by
  simp [remove, get, Std.TreeMap.getElem?_erase]

theorem mem_handles : h ∈ t.handles ↔ ∃ stored, t.get h = some stored := by
  rw [get, ← Option.isSome_iff_exists, Std.TreeMap.isSome_getElem?_iff_mem]

/-- Every handle in the table has been given out before: it is not above the counter. -/
def Below (t : Handles T) : Prop := ∀ h stored, t.get h = some stored → 0 < h.toNat ∧ h.toNat ≤ t.nextHandle.toNat

/-- `t'` has no handle that `t` does not have, and the items that it has come
from the same requests. -/
structure Kept (t t' : Handles T) : Prop where
  next : t'.nextHandle = t.nextHandle
  come : ∀ h stored', t'.get h = some stored' → ∃ stored, t.get h = some stored ∧ stored.issue = stored'.issue

theorem Kept.refl (t : Handles T) : t.Kept t := ⟨rfl, fun _ stored found => ⟨stored, found, rfl⟩⟩

theorem Kept.trans (first : t.Kept u) (second : u.Kept t') : t.Kept t' := by
  refine ⟨second.next.trans first.next, ?_⟩
  intro h stored' found
  obtain ⟨stored, found, same⟩ := second.come h stored' found
  obtain ⟨old, found, same'⟩ := first.come h stored found
  exact ⟨old, found, same'.trans same⟩

theorem Kept.below (kept : t.Kept t') (below : t.Below) : t'.Below := by
  intro h stored' found
  obtain ⟨stored, found, _⟩ := kept.come h stored' found
  rw [kept.next]
  exact below h stored found

theorem clear_kept : t.Kept t.clear := ⟨rfl, by simp⟩

theorem remove_kept : t.Kept (t.remove h) := by
  refine ⟨rfl, fun k stored found => ⟨stored, ?_, rfl⟩⟩
  rw [get_remove] at found
  split at found
  · cases found
  · exact found

theorem put_kept (found : t.get h = some stored) (item : T) : t.Kept (t.put h { stored with item }) := by
  refine ⟨rfl, fun k stored' found' => ?_⟩
  rw [get_put] at found'
  split at found'
  · rename_i same
    cases found'
    exact ⟨stored, same ▸ found, rfl⟩
  · exact ⟨stored', found', rfl⟩

/-- The handle after the last one is never in use. -/
theorem Below.vacant (below : t.Below) : t.get (t.nextHandle + 1) = none := by
  cases found : t.get (t.nextHandle + 1) with
  | none => rfl
  | some stored =>
    obtain ⟨positive, bound⟩ := below _ _ found
    rw [UInt32.toNat_add, UInt32.toNat_one] at positive bound
    have range := t.nextHandle.toNat_lt
    omega

/-- So `add` takes it at once. -/
theorem add_eq (below : t.Below) (stored : Stored T) :
    t.add stored = (.ok (t.nextHandle + 1),
      ⟨t.handles.insert (t.nextHandle + 1) stored, t.nextHandle + 1⟩) := by
  have vacant : t.nextHandle + 1 ∉ t.handles := by
    simp [mem_handles, below.vacant]
  unfold add
  rw [show 2 ^ 32 - 1 = (2 ^ 32 - 2) + 1 from rfl, addIn]
  simp only [vacant, if_false]

/-- A turn of the table in a request with number `number`: it gives out the handle
that is issued, or none. -/
def Turn (number : Nat) (issued : Option UInt32) (t t' : Handles T) : Prop :=
  match issued with
  | none => t.Kept t'
  | some h => ∃ u item, t.Kept u ∧ u.add ⟨item, number⟩ = (.ok h, t')

/-- An item in the table after a turn was there before, unless it is the new one. -/
theorem Turn.come {number : Nat} {issued : Option UInt32} (turn : Turn number issued t t') (below : t.Below)
    (found : t'.get h = some stored) (older : stored.issue ≠ number) :
    ∃ old, t.get h = some old ∧ old.issue = stored.issue := by
  cases issued with
  | none =>
    have kept : t.Kept t' := turn
    exact kept.come h stored found
  | some new =>
    obtain ⟨u, item, kept, added⟩ := turn
    rw [add_eq (kept.below below)] at added
    cases added
    by_cases same : u.nextHandle + 1 = h
    · subst same
      have new : (⟨item, number⟩ : Stored T) = stored := by simpa [get] using found
      exact absurd (congrArg Stored.issue new).symm older
    · refine kept.come h stored ?_
      simpa [get, Std.TreeMap.getElem?_insert, same] using found

/-- A handle that is given out was not in use before, and it is in use then. -/
theorem Turn.fresh {number : Nat} (turn : Turn number (some h) t t') (below : t.Below) :
    t.get h = none ∧ (t'.get h).isSome := by
  obtain ⟨u, item, kept, added⟩ := turn
  rw [add_eq (kept.below below)] at added
  cases added
  exact ⟨kept.next ▸ below.vacant, by simp [get]⟩

/-- The table and the handles that it has given out, request by request. -/
structure Ledger (log : List (Option UInt32)) (t : Handles T) : Prop where
  counted : t.nextHandle.toNat = (log.filterMap id).length
  given : ∀ (i : Nat) (h : UInt32), log[i]? = some (some h) → 0 < h.toNat ∧ h.toNat ≤ t.nextHandle.toNat
  distinct : ∀ (i j : Nat) (h : UInt32), log[i]? = some (some h) → log[j]? = some (some h) → i = j
  entered : ∀ h stored, t.get h = some stored → log[stored.issue]? = some (some h)

namespace Ledger

variable {log : List (Option UInt32)}

theorem start : Ledger [] (Handles.new : Handles T) where
  counted := rfl
  given := by simp
  distinct := by simp
  entered := by simp [Handles.new, get]

theorem below (ledger : Ledger log t) : t.Below :=
  fun h stored found => ledger.given _ h (ledger.entered h stored found)

theorem keep (ledger : Ledger log t) (kept : t.Kept t') : Ledger (log ++ [none]) t' := by
  have old : ∀ (i : Nat) (h : UInt32), (log ++ [none])[i]? = some (some h) → log[i]? = some (some h) := by
    intro i h found
    rcases Nat.lt_or_ge i log.length with inside | outside
    · rwa [List.getElem?_append_left inside] at found
    · rw [List.getElem?_append_right outside] at found
      simp [List.getElem?_singleton] at found
  refine ⟨?_, ?_, ?_, ?_⟩
  · rw [kept.next, ledger.counted]
    simp
  · intro i h found
    rw [kept.next]
    exact ledger.given i h (old i h found)
  · intro i j h first second
    exact ledger.distinct i j h (old i h first) (old j h second)
  · intro h stored' found
    obtain ⟨stored, found, same⟩ := kept.come h stored' found
    have entered := ledger.entered h stored found
    rw [same] at entered
    rw [List.getElem?_append_left (List.getElem?_eq_some_iff.mp entered).1]
    exact entered

/-- While fewer than 2 ^ 32 handles have been given out, a new one is above all of them. -/
theorem issue (ledger : Ledger log t) (kept : t.Kept u) {item : T}
    (added : u.add ⟨item, log.length⟩ = (.ok h, t')) (few : (log.filterMap id).length + 1 < 2 ^ 32) :
    Ledger (log ++ [some h]) t' := by
  rw [add_eq (kept.below ledger.below)] at added
  cases added
  have counted := ledger.counted
  have next : (u.nextHandle + 1).toNat = t.nextHandle.toNat + 1 := by
    rw [UInt32.toNat_add, UInt32.toNat_one, kept.next]
    omega
  have cases_ : ∀ (i : Nat) (k : UInt32), (log ++ [some (u.nextHandle + 1)])[i]? = some (some k) →
      log[i]? = some (some k) ∨ i = log.length ∧ k = u.nextHandle + 1 := by
    intro i k found
    rcases Nat.lt_or_ge i log.length with inside | outside
    · rw [List.getElem?_append_left inside] at found
      exact Or.inl found
    · rw [List.getElem?_append_right outside, List.getElem?_singleton] at found
      split at found
      · cases found
        exact Or.inr ⟨by omega, rfl⟩
      · cases found
  refine ⟨?_, ?_, ?_, ?_⟩
  · simp only [next, counted]
    simp
  · intro i k found
    simp only [next]
    rcases cases_ i k found with old | ⟨_, rfl⟩
    · have := ledger.given i k old
      omega
    · omega
  · intro i j k first second
    rcases cases_ i k first with old | ⟨here, rfl⟩ <;> rcases cases_ j _ second with old' | ⟨here', same⟩
    · exact ledger.distinct i j k old old'
    · have := ledger.given i k old
      rw [same, next] at this
      omega
    · have := ledger.given j _ old'
      rw [next] at this
      omega
    · rw [here, here']
  · intro k stored found
    by_cases same : u.nextHandle + 1 = k
    · subst same
      have new : (⟨item, log.length⟩ : Stored T) = stored := by simpa [get] using found
      subst new
      simp
    · obtain ⟨old, found, equal⟩ := kept.come k stored (by
        simpa [get, Std.TreeMap.getElem?_insert, same] using found)
      have entered := ledger.entered k old found
      rw [equal] at entered
      rw [List.getElem?_append_left (List.getElem?_eq_some_iff.mp entered).1]
      exact entered

theorem turn {issued : Option UInt32} (ledger : Ledger log t) (turn : Turn log.length issued t t')
    (few : ((log ++ [issued]).filterMap id).length < 2 ^ 32) : Ledger (log ++ [issued]) t' := by
  cases issued with
  | none => exact ledger.keep turn
  | some h =>
    obtain ⟨u, item, kept, added⟩ := turn
    exact ledger.issue kept added (by simpa using few)

end Ledger

end Handles

/-- The file handle that a response gives out. -/
def FsResp.file : FsResp → Option UInt32
  | .fileOpen h => some h
  | _ => none

/-- The directory handle that a response gives out. -/
def FsResp.directory : FsResp → Option UInt32
  | .directoryOpen h => some h
  | _ => none

/-- What the answer gives out, of files or of directories. -/
def FsAnswer.issued (given : FsResp → Option UInt32) : FsAnswer → Option UInt32
  | some (.ok resp) => given resp
  | _ => none

namespace FsOp

variable {size n : Nat}

/-- What a request with a file handle is to do with the file, and its response. -/
def onFile : FsOp → ExFat (FileSession size n) FsResp
  | .readFile _ len => do
    let bytes := (← File.read len).getD []
    return .read (bytes ++ List.replicate (len - bytes.length) 0)
  | .readFileToEnd _ => do return .read (← File.readToEnd)
  | .readFileToString _ => do return .readToString (← File.readToString)
  | .writeFile _ buffer => do
    File.write buffer
    return .ok
  | .seekFile _ position => do
    File.seek position
    return .ok
  | .closeFile _ => do
    File.close
    return .ok
  | .flushFile _ => do
    File.flush
    return .ok
  | .metadata _ => do return .metadata (← get).file.details
  | _ => pure .ok

/-- What a request with a directory handle is to do with the directory, and its response. -/
def onDirectory (fuel : Nat) : FsOp → ExFat (Scan size n) FsResp
  | .directoryNextEntry _ => do return .directoryEntry (← DirectoryEntryChain.nextEntry fuel)
  | _ => pure .ok

/-- The requests that take their handle out of the table. -/
def closes : FsOp → Bool
  | .closeFile _ | .closeDirectory _ => true
  | _ => false

end FsOp

/-- The table once a request with the handle `h` has left `stored` of what was stored there. -/
def Handles.settle {T : Type} (t : Handles T) (op : FsOp) (h : UInt32) (stored : Stored T) : Handles T :=
  if op.closes then t.remove h else t.put h stored

namespace Mounted

open Exec

variable {size n : Nat} {α : Type} {s s' : Mounted size n} {cause : DeviceError} {h : UInt32}

/-- No handle is given out. -/
structure Kept (s s' : Mounted size n) : Prop where
  files : s.files.Kept s'.files
  directories : s.directories.Kept s'.directories

instance : Std.Refl (Kept : Mounted size n → Mounted size n → Prop) where
  refl _ := ⟨.refl _, .refl _⟩

/-- Only the file under one handle is acted on. -/
structure OnlyFile (h : UInt32) (s s' : Mounted size n) : Prop where
  files : ∀ k, k ≠ h → s'.files.get k = s.files.get k
  directories : s'.directories = s.directories

instance : Std.Refl (OnlyFile h : Mounted size n → Mounted size n → Prop) where
  refl _ := ⟨fun _ _ => rfl, rfl⟩

structure OnlyDirectory (h : UInt32) (s s' : Mounted size n) : Prop where
  directories : ∀ k, k ≠ h → s'.directories.get k = s.directories.get k
  files : s'.files = s.files

instance : Std.Refl (OnlyDirectory h : Mounted size n → Mounted size n → Prop) where
  refl _ := ⟨fun _ _ => rfl, rfl⟩

theorem onFs_kept (m : ExFat (FileSystem size n) α) : Respects Kept (onFs cause m) :=
  fun _ => ⟨.refl _, .refl _⟩

theorem onFile_kept (m : ExFat (FileSession size n) α) : Respects Kept (onFile cause h m) := by
  intro s
  unfold onFile
  split
  · rename_i stored found
    exact ⟨Handles.put_kept found _, .refl _⟩
  · exact Std.Refl.refl s

theorem onFile_only (m : ExFat (FileSession size n) α) : Respects (OnlyFile h) (onFile cause h m) := by
  intro s
  unfold onFile
  split
  · refine ⟨fun k other => ?_, rfl⟩
    rw [Handles.get_put, if_neg other.symm]
  · exact Std.Refl.refl s

theorem onDirectory_kept (m : ExFat (Scan size n) α) : Respects Kept (onDirectory cause h m) := by
  intro s
  unfold onDirectory
  split
  · rename_i stored found
    exact ⟨.refl _, Handles.put_kept found _⟩
  · exact Std.Refl.refl s

theorem onDirectory_only (m : ExFat (Scan size n) α) :
    Respects (OnlyDirectory h) (onDirectory cause h m) := by
  intro s
  unfold onDirectory
  split
  · refine ⟨fun k other => ?_, rfl⟩
    rw [Handles.get_put, if_neg other.symm]
  · exact Std.Refl.refl s

theorem closeFile_kept : Respects Kept (closeFile cause h : Exec FsError (Mounted size n) Unit) := by
  intro s
  unfold closeFile
  split
  · exact ⟨Handles.remove_kept, .refl _⟩
  · exact Std.Refl.refl s

theorem closeFile_only :
    Respects (OnlyFile h) (closeFile cause h : Exec FsError (Mounted size n) Unit) := by
  intro s
  unfold closeFile
  split
  · refine ⟨fun k other => ?_, rfl⟩
    rw [Handles.get_remove, if_neg other.symm]
  · exact Std.Refl.refl s

theorem closeDirectory_kept :
    Respects Kept (closeDirectory h : Exec FsError (Mounted size n) Unit) := by
  intro s
  unfold closeDirectory
  split
  · exact ⟨.refl _, Handles.remove_kept⟩
  · exact Std.Refl.refl s

theorem closeDirectory_only :
    Respects (OnlyDirectory h) (closeDirectory h : Exec FsError (Mounted size n) Unit) := by
  intro s
  unfold closeDirectory
  split
  · refine ⟨fun k other => ?_, rfl⟩
    rw [Handles.get_remove, if_neg other.symm]
  · exact Std.Refl.refl s

/-- The response is made from what a call returns. -/
theorem respects_map {R : Mounted size n → Mounted size n → Prop} {m : Exec FsError (Mounted size n) α}
    (respects : Respects R m) (f : α → FsResp) : Respects R (m >>= fun a => pure (f a)) := by
  intro s
  rw [bind_pure_state]
  exact respects s

/-- A request that gives no handle out. -/
structure Quiet (m : Exec FsError (Mounted size n) FsResp) : Prop where
  kept : Respects Kept m
  silent : ∀ s resp, (m s).1 = .ok resp → resp.file = none ∧ resp.directory = none

theorem Quiet.map {m : Exec FsError (Mounted size n) α} (kept : Respects Kept m) (f : α → FsResp)
    (silent : ∀ a, (f a).file = none ∧ (f a).directory = none) : Quiet (m >>= fun a => pure (f a)) := by
  refine ⟨respects_map kept f, fun s resp run => ?_⟩
  rw [bind_apply] at run
  split at run
  · cases run
    exact silent _
  · cases run

/-- The requests that open nothing. -/
theorem serve_quiet (fuel : Nat) {op : FsOp} (file : ∀ path options, op ≠ .openFile path options)
    (directory : ∀ path, op ≠ .openDirectory path) :
    Quiet (serve fuel cause op : Exec FsError (Mounted size n) FsResp) := by
  cases op with
  | openFile path options => exact absurd rfl (file path options)
  | openDirectory path => exact absurd rfl (directory path)
  | readToString path => exact .map (onFs_kept _) _ fun _ => ⟨rfl, rfl⟩
  | read path => exact .map (onFs_kept _) _ fun _ => ⟨rfl, rfl⟩
  | readFile handle len => exact .map (onFile_kept _) _ fun _ => ⟨rfl, rfl⟩
  | readFileToEnd handle => exact .map (onFile_kept _) _ fun _ => ⟨rfl, rfl⟩
  | readFileToString handle => exact .map (onFile_kept _) _ fun _ => ⟨rfl, rfl⟩
  | writeFile handle buffer => exact .map (onFile_kept _) _ fun _ => ⟨rfl, rfl⟩
  | seekFile handle position => exact .map (onFile_kept _) _ fun _ => ⟨rfl, rfl⟩
  | closeFile handle => exact .map closeFile_kept _ fun _ => ⟨rfl, rfl⟩
  | flushFile handle => exact .map (onFile_kept _) _ fun _ => ⟨rfl, rfl⟩
  | metadata handle => exact .map (onFile_kept _) _ fun _ => ⟨rfl, rfl⟩
  | directoryNextEntry handle => exact .map (onDirectory_kept _) _ fun _ => ⟨rfl, rfl⟩
  | «exists» path => exact .map (onFs_kept _) _ fun _ => ⟨rfl, rfl⟩
  | removeFile path => exact .map (onFs_kept _) _ fun _ => ⟨rfl, rfl⟩
  | createDirectory path => exact .map (onFs_kept _) _ fun _ => ⟨rfl, rfl⟩
  | copy fromPath toPath => exact .map (onFs_kept _) _ fun _ => ⟨rfl, rfl⟩
  | rename fromPath toPath => exact .map (onFs_kept _) _ fun _ => ⟨rfl, rfl⟩
  | removeDir path => exact .map (onFs_kept _) _ fun _ => ⟨rfl, rfl⟩
  | write path buffer => exact .map (onFs_kept _) _ fun _ => ⟨rfl, rfl⟩
  | closeDirectory handle => exact .map closeDirectory_kept _ fun _ => ⟨rfl, rfl⟩
  | shutdown => exact ⟨.pure _, fun _ _ run => by cases run; exact ⟨rfl, rfl⟩⟩

/-- What a response gives out, if there is one. -/
def given (give : FsResp → Option UInt32) : Except (Fault FsError) FsResp → Option UInt32
  | .ok resp => give resp
  | .error _ => none

theorem addFile_apply (file : File) (below : s.files.Below) :
    ∃ t, s.files.add ⟨file, s.served⟩ = (.ok (s.files.nextHandle + 1), t) ∧
      addFile file s = (.ok (s.files.nextHandle + 1), { s with files := t }) := by
  have added := Handles.add_eq below ⟨file, s.served⟩
  refine ⟨_, added, ?_⟩
  simp only [addFile, added]
  rfl

theorem addDirectory_apply (chain : DirectoryEntryChain size) (below : s.directories.Below) :
    ∃ t, s.directories.add ⟨chain, s.served⟩ = (.ok (s.directories.nextHandle + 1), t) ∧
      addDirectory chain s = (.ok (s.directories.nextHandle + 1), { s with directories := t }) := by
  have added := Handles.add_eq below ⟨chain, s.served⟩
  refine ⟨_, added, ?_⟩
  simp only [addDirectory, added]
  rfl

/-- Each table gives out the handle of the response, or none. -/
theorem serve_turn (cause : DeviceError) (fuel : Nat) (op : FsOp) (files : s.files.Below)
    (directories : s.directories.Below) :
    Handles.Turn s.served (given FsResp.file (serve fuel cause op s).1) s.files (serve fuel cause op s).2.files ∧
      Handles.Turn s.served (given FsResp.directory (serve fuel cause op s).1) s.directories
        (serve fuel cause op s).2.directories := by
  by_cases opens : (∃ path options, op = .openFile path options) ∨ ∃ path, op = .openDirectory path
  · rcases opens with ⟨path, options, rfl⟩ | ⟨path, rfl⟩
    · simp only [serve]
      rw [bind_apply]
      split
      · rename_i file s' run
        obtain ⟨_, next⟩ := Prod.mk.inj run
        obtain ⟨t, added, run⟩ := addFile_apply (s := s') file (next ▸ files)
        rw [bind_of_ok run]
        subst next
        exact ⟨⟨s.files, file, .refl _, added⟩, .refl _⟩
      · rename_i e s' run
        obtain ⟨_, rfl⟩ := Prod.mk.inj run
        exact ⟨.refl _, .refl _⟩
    · simp only [serve]
      rw [bind_apply]
      split
      · rename_i chain s' run
        obtain ⟨_, next⟩ := Prod.mk.inj run
        obtain ⟨t, added, run⟩ := addDirectory_apply (s := s') chain (next ▸ directories)
        rw [bind_of_ok run]
        subst next
        exact ⟨.refl _, ⟨s.directories, chain, .refl _, added⟩⟩
      · rename_i e s' run
        obtain ⟨_, rfl⟩ := Prod.mk.inj run
        exact ⟨.refl _, .refl _⟩
  · rw [not_or] at opens
    have quiet : Quiet (serve fuel cause op : Exec FsError (Mounted size n) FsResp) :=
      serve_quiet fuel (fun path options same => opens.1 ⟨path, options, same⟩)
        fun path same => opens.2 ⟨path, same⟩
    have kept := quiet.kept s
    cases outcome : (serve fuel cause op s).1 with
    | ok resp =>
      obtain ⟨file, directory⟩ := quiet.silent s resp outcome
      simp only [given, file, directory]
      exact ⟨kept.files, kept.directories⟩
    | error => exact ⟨kept.files, kept.directories⟩

theorem onFile_stale {m : ExFat (FileSession size n) α} (absent : s.files.get h = none) :
    onFile cause h m s = (.error (.error .invalidFileHandle), s) := by
  rw [onFile, absent]

theorem onDirectory_stale {m : ExFat (Scan size n) α} (absent : s.directories.get h = none) :
    onDirectory cause h m s = (.error (.error .invalidFileHandle), s) := by
  rw [onDirectory, absent]

/-- A request with a file handle that is not in the table touches nothing. -/
theorem serve_stale_file (fuel : Nat) {op : FsOp} (carries : op.fileHandle = some h)
    (absent : s.files.get h = none) :
    serve fuel cause op s = (.error (.error .invalidFileHandle), s) := by
  cases op <;> cases carries
  case closeFile =>
    refine bind_of_error ?_
    rw [closeFile, absent]
  all_goals exact bind_of_error (onFile_stale absent)

theorem serve_stale_directory (fuel : Nat) {op : FsOp} (carries : op.directoryHandle = some h)
    (absent : s.directories.get h = none) :
    serve fuel cause op s = (.error (.error .invalidFileHandle), s) := by
  cases op <;> cases carries
  case closeDirectory =>
    refine bind_of_error ?_
    rw [closeDirectory, absent]
  all_goals exact bind_of_error (onDirectory_stale absent)

/-- The outcome of a call on the file under `h`, from what the call does to that file. -/
theorem onFile_map {m : ExFat (FileSession size n) α} (f : α → FsResp) {stored : Stored File}
    (found : s.files.get h = some stored) :
    (onFile cause h m >>= fun a => pure (f a)) s =
      (convert cause ((m >>= fun a => pure (f a)) ⟨s.fileSystem, stored.item⟩).1, { s with
        fileSystem := (m ⟨s.fileSystem, stored.item⟩).2.fs
        files := s.files.put h { stored with item := (m ⟨s.fileSystem, stored.item⟩).2.file } }) := by
  rw [bind_apply, bind_apply, onFile, found]
  dsimp only
  rcases m ⟨s.fileSystem, stored.item⟩ with ⟨(e | _ | _) | a, called⟩ <;> rfl

theorem onDirectory_map {m : ExFat (Scan size n) α} (f : α → FsResp) {stored : Stored (DirectoryEntryChain size)}
    (found : s.directories.get h = some stored) :
    (onDirectory cause h m >>= fun a => pure (f a)) s =
      (convert cause ((m >>= fun a => pure (f a)) ⟨s.fileSystem, stored.item⟩).1, { s with
        fileSystem := (m ⟨s.fileSystem, stored.item⟩).2.fs
        directories := s.directories.put h { stored with item := (m ⟨s.fileSystem, stored.item⟩).2.chain } }) := by
  rw [bind_apply, bind_apply, onDirectory, found]
  dsimp only
  rcases m ⟨s.fileSystem, stored.item⟩ with ⟨(e | _ | _) | a, called⟩ <;> rfl

theorem closeFile_map {stored : Stored File} (found : s.files.get h = some stored) :
    (closeFile cause h >>= fun _ => pure FsResp.ok) s =
      (convert cause ((File.close >>= fun _ => pure FsResp.ok :
          ExFat (FileSession size n) FsResp) ⟨s.fileSystem, stored.item⟩).1, { s with
        fileSystem := ((File.close : ExFat (FileSession size n) Unit) ⟨s.fileSystem, stored.item⟩).2.fs
        files := s.files.remove h }) := by
  rw [bind_apply, bind_apply, closeFile, found]
  dsimp only
  rcases (File.close : ExFat (FileSession size n) Unit) ⟨s.fileSystem, stored.item⟩ with
    ⟨(e | _ | _) | a, called⟩ <;> rfl

/-- A request with a file handle is a call on the file stored under it: its
answer, what becomes of the file system and what becomes of the file are those
of the call, and nothing else changes. -/
theorem serve_onFile (cause : DeviceError) (fuel : Nat) {op : FsOp} {stored : Stored File}
    (carries : op.fileHandle = some h) (found : s.files.get h = some stored) :
    serve fuel cause op s = (convert cause (op.onFile ⟨s.fileSystem, stored.item⟩).1, { s with
      fileSystem := (op.onFile ⟨s.fileSystem, stored.item⟩).2.fs
      files := s.files.settle op h { stored with item := (op.onFile ⟨s.fileSystem, stored.item⟩).2.file } }) := by
  have called : ∀ {α : Type} (m : ExFat (FileSession size n) α) (f : α → FsResp),
      op.onFile = (m >>= fun a => pure (f a)) → op.closes = false →
      serve fuel cause op = (onFile cause h m >>= fun a => pure (f a)) →
      serve fuel cause op s = (convert cause (op.onFile ⟨s.fileSystem, stored.item⟩).1, { s with
        fileSystem := (op.onFile ⟨s.fileSystem, stored.item⟩).2.fs
        files := s.files.settle op h { stored with item := (op.onFile ⟨s.fileSystem, stored.item⟩).2.file } }) := by
    intro α m f call stays body
    rw [body, onFile_map f found, Handles.settle, stays, call, bind_pure_state]
    rfl
  cases op <;> cases carries
  case readFile len => exact called (File.read len) _ rfl rfl rfl
  case readFileToEnd => exact called File.readToEnd _ rfl rfl rfl
  case readFileToString => exact called File.readToString _ rfl rfl rfl
  case writeFile buffer => exact called (File.write buffer) _ rfl rfl rfl
  case seekFile position => exact called (File.seek position) _ rfl rfl rfl
  case flushFile => exact called File.flush _ rfl rfl rfl
  case metadata => exact called get _ rfl rfl rfl
  case closeFile =>
    refine (closeFile_map found).trans ?_
    rw [← bind_pure_state (File.close : ExFat (FileSession size n) Unit) fun _ => FsResp.ok]
    rfl

/-- A request with a directory handle is a call on the iterator stored under it. -/
theorem serve_onDirectory (cause : DeviceError) (fuel : Nat) {op : FsOp} {stored : Stored (DirectoryEntryChain size)}
    (carries : op.directoryHandle = some h) (found : s.directories.get h = some stored) :
    serve fuel cause op s = (convert cause (op.onDirectory fuel ⟨s.fileSystem, stored.item⟩).1, { s with
      fileSystem := (op.onDirectory fuel ⟨s.fileSystem, stored.item⟩).2.fs
      directories := s.directories.settle op h
        { stored with item := (op.onDirectory fuel ⟨s.fileSystem, stored.item⟩).2.chain } }) := by
  cases op <;> cases carries
  case directoryNextEntry =>
    refine (onDirectory_map .directoryEntry found).trans ?_
    rw [← bind_pure_state (DirectoryEntryChain.nextEntry fuel : ExFat (Scan size n) _) FsResp.directoryEntry]
    rfl
  case closeDirectory =>
    rw [serve, bind_apply, closeDirectory, found]
    rfl

/-- A request with a file handle leaves every other open file and directory alone. -/
theorem serve_only_file (cause : DeviceError) (fuel : Nat) {op : FsOp} (carries : op.fileHandle = some h) :
    Respects (OnlyFile h) (serve fuel cause op : Exec FsError (Mounted size n) FsResp) := by
  cases op <;> cases carries
  case closeFile => exact respects_map closeFile_only _
  all_goals exact respects_map (onFile_only _) _

theorem serve_only_directory (cause : DeviceError) (fuel : Nat) {op : FsOp} (carries : op.directoryHandle = some h) :
    Respects (OnlyDirectory h) (serve fuel cause op : Exec FsError (Mounted size n) FsResp) := by
  cases op <;> cases carries
  case closeDirectory => exact respects_map closeDirectory_only _
  all_goals exact respects_map (onDirectory_only _) _

/-- The requests about no open file and no path to one leave the table of files as it is. -/
theorem serve_files (cause : DeviceError) (fuel : Nat) {op : FsOp} (carries : op.fileHandle = none)
    (opens : ∀ path options, op ≠ .openFile path options) : (serve fuel cause op s).2.files = s.files := by
  cases op <;> cases carries
  case openFile path options => exact absurd rfl (opens path options)
  case directoryNextEntry h =>
    rw [serve, bind_pure_state]
    exact (onDirectory_only (h := h) _ s).files
  case closeDirectory h =>
    rw [serve, bind_pure_state]
    exact (closeDirectory_only (h := h) s).files
  case openDirectory path =>
    rw [serve, bind_apply]
    split
    · rename_i chain s' run
      rw [bind_pure_state]
      exact (Prod.mk.inj run).2 ▸ rfl
    · rename_i run
      exact (Prod.mk.inj run).2 ▸ rfl
  case shutdown => rfl
  all_goals
    rw [serve, bind_pure_state]
    rfl

theorem serve_directories (cause : DeviceError) (fuel : Nat) {op : FsOp} (carries : op.directoryHandle = none)
    (opens : ∀ path, op ≠ .openDirectory path) : (serve fuel cause op s).2.directories = s.directories := by
  cases file : op.fileHandle with
  | some h => exact (serve_only_file cause fuel file s).directories
  | none =>
    cases op <;> cases file
    case none.openDirectory.refl path => exact absurd rfl (opens path)
    case none.directoryNextEntry.refl => cases carries
    case none.closeDirectory.refl => cases carries
    case none.openFile.refl path options =>
      rw [serve, bind_apply]
      split
      · rename_i file s' run
        rw [bind_pure_state]
        exact (Prod.mk.inj run).2 ▸ rfl
      · rename_i run
        exact (Prod.mk.inj run).2 ▸ rfl
    case none.shutdown.refl => rfl
    all_goals
      rw [serve, bind_pure_state]
      rfl

/-- A successful open stores the file that `FileSystem::open` returns, and nothing else. -/
theorem serve_openFile {k : UInt32} {stored : Stored File} {path : List Char} {options : OpenOptions} {fuel : Nat}
    (below : s.files.Below) (found : (serve fuel cause (.openFile path options) s).2.files.get k = some stored) :
    s.files.get k = some stored ∨ (serve fuel cause (.openFile path options) s).1 = .ok (.fileOpen k) ∧
      FileSystem.open fuel path options s.fileSystem =
        (.ok stored.item, (serve fuel cause (.openFile path options) s).2.fileSystem) ∧ stored.issue = s.served := by
  rcases run : FileSystem.open fuel path options s.fileSystem with ⟨e | file, fs'⟩
  · have failed : serve fuel cause (.openFile path options) s =
        (match convert cause (.error e : Except (Fault ExFatError) File) with
          | .error fault => .error fault
          | .ok _ => .ok .ok, { s with fileSystem := fs' }) := by
      rw [serve, bind_apply, onFs, run]
      rcases e with _ | _ | _ <;> rfl
    rw [failed] at found
    exact Or.inl found
  · obtain ⟨t, added, ran⟩ := addFile_apply (s := { s with fileSystem := fs' }) file below
    have done : serve fuel cause (.openFile path options) s =
        (.ok (.fileOpen (s.files.nextHandle + 1)), { s with fileSystem := fs', files := t }) := by
      have opened : onFs cause (FileSystem.open fuel path options) s = (.ok file, { s with fileSystem := fs' }) := by
        rw [onFs, run]
        rfl
      exact (bind_of_ok opened).trans (bind_of_ok ran)
    rw [done] at found ⊢
    rw [Handles.add_eq below] at added
    cases added
    by_cases same : s.files.nextHandle + 1 = k
    · subst same
      have new : (⟨file, s.served⟩ : Stored File) = stored := by simpa [Handles.get] using found
      subst new
      exact Or.inr ⟨rfl, rfl, rfl⟩
    · refine Or.inl ?_
      simpa [Handles.get, Std.TreeMap.getElem?_insert, same] using found

theorem serve_openDirectory {k : UInt32} {stored : Stored (DirectoryEntryChain size)} {path : List Char} {fuel : Nat}
    (below : s.directories.Below)
    (found : (serve fuel cause (.openDirectory path) s).2.directories.get k = some stored) :
    s.directories.get k = some stored ∨ (serve fuel cause (.openDirectory path) s).1 = .ok (.directoryOpen k) ∧
      FileSystem.readDir fuel path s.fileSystem =
        (.ok stored.item, (serve fuel cause (.openDirectory path) s).2.fileSystem) ∧ stored.issue = s.served := by
  rcases run : FileSystem.readDir fuel path s.fileSystem with ⟨e | chain, fs'⟩
  · have failed : serve fuel cause (.openDirectory path) s =
        (match convert cause (.error e : Except (Fault ExFatError) (DirectoryEntryChain size)) with
          | .error fault => .error fault
          | .ok _ => .ok .ok, { s with fileSystem := fs' }) := by
      rw [serve, bind_apply, onFs, run]
      rcases e with _ | _ | _ <;> rfl
    rw [failed] at found
    exact Or.inl found
  · obtain ⟨t, added, ran⟩ := addDirectory_apply (s := { s with fileSystem := fs' }) chain below
    have done : serve fuel cause (.openDirectory path) s =
        (.ok (.directoryOpen (s.directories.nextHandle + 1)), { s with fileSystem := fs', directories := t }) := by
      have opened : onFs cause (FileSystem.readDir fuel path) s = (.ok chain, { s with fileSystem := fs' }) := by
        rw [onFs, run]
        rfl
      exact (bind_of_ok opened).trans (bind_of_ok ran)
    rw [done] at found ⊢
    rw [Handles.add_eq below] at added
    cases added
    by_cases same : s.directories.nextHandle + 1 = k
    · subst same
      have new : (⟨chain, s.served⟩ : Stored (DirectoryEntryChain size)) = stored := by
        simpa [Handles.get] using found
      subst new
      exact Or.inr ⟨rfl, rfl, rfl⟩
    · refine Or.inl ?_
      simpa [Handles.get, Std.TreeMap.getElem?_insert, same] using found

/-- What is stored under a handle that the request does not carry was there
before, or has been opened by the request. -/
theorem serve_opened {k : UInt32} {stored : Stored File} {fuel : Nat} {op : FsOp} (below : s.files.Below)
    (other : op.fileHandle ≠ some k) (found : (serve fuel cause op s).2.files.get k = some stored) :
    s.files.get k = some stored ∨ (serve fuel cause op s).1 = .ok (.fileOpen k) ∧
      ∃ path options, op = .openFile path options ∧ FileSystem.open fuel path options s.fileSystem =
        (.ok stored.item, (serve fuel cause op s).2.fileSystem) ∧ stored.issue = s.served := by
  cases carries : op.fileHandle with
  | some h =>
    have only := (serve_only_file cause fuel carries s).files k fun same => other (same ▸ carries)
    exact Or.inl (only ▸ found)
  | none =>
    by_cases opens : ∃ path options, op = .openFile path options
    · obtain ⟨path, options, rfl⟩ := opens
      exact (serve_openFile below found).imp_right fun opened => ⟨opened.1, path, options, rfl, opened.2⟩
    · rw [serve_files cause fuel carries fun path options same => opens ⟨path, options, same⟩] at found
      exact Or.inl found

theorem serve_listed {k : UInt32} {stored : Stored (DirectoryEntryChain size)} {fuel : Nat} {op : FsOp}
    (below : s.directories.Below) (other : op.directoryHandle ≠ some k)
    (found : (serve fuel cause op s).2.directories.get k = some stored) :
    s.directories.get k = some stored ∨ (serve fuel cause op s).1 = .ok (.directoryOpen k) ∧
      ∃ path, op = .openDirectory path ∧ FileSystem.readDir fuel path s.fileSystem =
        (.ok stored.item, (serve fuel cause op s).2.fileSystem) ∧ stored.issue = s.served := by
  cases carries : op.directoryHandle with
  | some h =>
    have only := (serve_only_directory cause fuel carries s).directories k fun same => other (same ▸ carries)
    exact Or.inl (only ▸ found)
  | none =>
    by_cases opens : ∃ path, op = .openDirectory path
    · obtain ⟨path, rfl⟩ := opens
      exact (serve_openDirectory below found).imp_right fun opened => ⟨opened.1, path, rfl, opened.2⟩
    · rw [serve_directories cause fuel carries fun path same => opens ⟨path, same⟩] at found
      exact Or.inl found

theorem serve_closeFile {fuel : Nat} {r : Except (Fault FsError) FsResp}
    (run : serve fuel cause (.closeFile h) s = (r, s')) : s'.files.get h = none := by
  have state : (serve fuel cause (.closeFile h) s).2.files.get h = none := by
    simp only [serve, bind_pure_state]
    unfold closeFile
    split
    · simp
    · assumption
  rwa [run] at state

theorem serve_closeDirectory {fuel : Nat} {r : Except (Fault FsError) FsResp}
    (run : serve fuel cause (.closeDirectory h) s = (r, s')) : s'.directories.get h = none := by
  have state : (serve fuel cause (.closeDirectory h) s).2.directories.get h = none := by
    simp only [serve, bind_pure_state]
    unfold closeDirectory
    split
    · simp
    · assumption
  rwa [run] at state

end Mounted

namespace FsManager

open Exec

variable {size n : Nat} {m m' : FsManager size n} {cause : DeviceError} {h : UInt32}

/-- Either the device or the file system is there, and without a file system
no handle is in use. -/
structure Held (m : FsManager size n) : Prop where
  one : m.dev.isSome = !m.fileSystem.isSome
  idle : m.fileSystem = none → m.files.handles = ∅ ∧ m.directories.handles = ∅

theorem new_held (dev : BlockDevice size) (timeProvider : Option (Nat → Timestamp)) (usizeBits : Nat) :
    (new dev timeProvider usizeBits : FsManager size n).Held :=
  ⟨rfl, fun _ => ⟨rfl, rfl⟩⟩

/-- A table with a handle in it belongs to a mounted volume. -/
theorem Held.mounted_of_file (held : m.Held) {stored : Stored File} (found : m.files.get h = some stored) :
    ∃ fs, m.fileSystem = some fs := by
  rw [← Option.isSome_iff_exists, Option.isSome_iff_ne_none]
  intro absent
  simp [Handles.get, (held.idle absent).1] at found

theorem Held.mounted_of_directory (held : m.Held) {stored : Stored (DirectoryEntryChain size)}
    (found : m.directories.get h = some stored) : ∃ fs, m.fileSystem = some fs := by
  rw [← Option.isSome_iff_exists, Option.isSome_iff_ne_none]
  intro absent
  simp [Handles.get, (held.idle absent).2] at found

theorem unmount_held (held : m.Held) : m.unmount.Held := by
  have one := held.one
  unfold unmount
  split
  · exact ⟨rfl, fun _ => ⟨rfl, rfl⟩⟩
  · rename_i absent
    exact ⟨by simpa [absent] using one, fun _ => ⟨rfl, rfl⟩⟩

theorem unmount_fileSystem : m.unmount.fileSystem = none := by
  unfold unmount
  split
  · rfl
  · assumption

theorem unmount_files : m.unmount.files = m.files.clear := by
  unfold unmount
  split <;> rfl

theorem unmount_directories : m.unmount.directories = m.directories.clear := by
  unfold unmount
  split <;> rfl

theorem unmount_served : m.unmount.served = m.served := by
  unfold unmount
  split <;> rfl

theorem insertCard_held (held : m.Held) (dev : BlockDevice size) : (m.insertCard dev).Held := by
  refine ⟨by simpa [insertCard] using held.one, fun absent => held.idle ?_⟩
  simpa [insertCard] using absent

theorem clear_of_empty {T : Type} {t : Handles T} (empty : t.handles = ∅) : t.clear = t := by
  cases t
  simp_all [Handles.clear]

/-- What `mount` does to a manager: the tables stay as they are, since they
are empty whenever something is mounted. -/
structure Mounts (m : FsManager size n) (r : Except (Fault FsError) Unit) (m' : FsManager size n) : Prop where
  files : m'.files = m.files
  directories : m'.directories = m.directories
  served : m'.served = m.served
  ok : r = .ok () → (∃ fs, m'.fileSystem = some fs) ∧ m'.dev = none
  failed : ∀ e, r = .error (.error e) → m.fileSystem = none ∧ m'.fileSystem = none ∧ m'.dev.isSome

theorem mount_spec [NeZero n] (cause : DeviceError) (held : m.Held) :
    Mounts m (mount cause m).1 (mount cause m).2 := by
  have one := held.one
  unfold mount
  split
  · rename_i dev present
    have absent : m.fileSystem = none := by simpa [present] using one
    obtain ⟨files, directories⟩ := held.idle absent
    dsimp only
    split
    · exact ⟨clear_of_empty files, clear_of_empty directories, rfl, fun _ => ⟨⟨_, rfl⟩, rfl⟩, by simp⟩
    · exact ⟨rfl, rfl, rfl, by simp, fun _ _ => ⟨absent, absent, rfl⟩⟩
    · exact ⟨rfl, rfl, rfl, by simp, by simp⟩
    · exact ⟨rfl, rfl, rfl, by simp, by simp⟩
  · rename_i missing
    split
    · rename_i fs present
      exact ⟨rfl, rfl, rfl, fun _ => ⟨⟨fs, present⟩, missing⟩, by simp⟩
    · rename_i absent
      simp [missing, absent] at one

/-- The outcome of one request that is not a shutdown: `mount` fails, or the
match of `handle_req` is run on the mounted file system. -/
theorem handleReq_cases [NeZero n] (cause : DeviceError) (fuel : Nat) {op : FsOp} (held : m.Held)
    (other : op ≠ .shutdown) :
    (∃ fault t, handleReq fuel cause op m = (.error fault, t) ∧ Mounts m (.error fault) t) ∨
      ∃ fs t, Mounts m (.ok ()) t ∧ (mount cause m).2.fileSystem = some fs ∧ handleReq fuel cause op m =
        ((Mounted.serve fuel cause op ⟨fs, m.files, m.directories, m.served⟩).1,
          { t with
            fileSystem := some (Mounted.serve fuel cause op ⟨fs, m.files, m.directories, m.served⟩).2.fileSystem
            files := (Mounted.serve fuel cause op ⟨fs, m.files, m.directories, m.served⟩).2.files
            directories := (Mounted.serve fuel cause op ⟨fs, m.files, m.directories, m.served⟩).2.directories }) := by
  have request : handleReq fuel cause op =
      (mount cause >>= fun _ =>
        onMounted (Mounted.serve fuel cause op) : Exec FsError (FsManager size n) FsResp) := by
    cases op <;> first | rfl | exact absurd rfl other
  have mounts := mount_spec cause held
  rw [request]
  rcases run : mount cause m with ⟨_ | ⟨⟩, t⟩
  · rename_i fault
    rw [run] at mounts
    exact Or.inl ⟨fault, t, bind_of_error run, mounts⟩
  · rw [run] at mounts
    obtain ⟨⟨fs, present⟩, _⟩ := mounts.ok rfl
    refine Or.inr ⟨fs, t, mounts, present, ?_⟩
    rw [bind_of_ok run, onMounted, present, mounts.files, mounts.directories, mounts.served]

/-- The tables that a round leaves behind. -/
structure Leaves (m m' : FsManager size n) (files : Handles File)
    (directories : Handles (DirectoryEntryChain size)) : Prop where
  held : m'.Held
  served : m'.served = m.served
  files : m'.files = files
  directories : m'.directories = directories

/-- What one request can come to. -/
inductive Handled (fuel : Nat) (cause : DeviceError) (m : FsManager size n) :
    FsOp → FsAnswer → FsManager size n → Prop
  | shutdown {outcome m'} : (∀ resp, outcome = .ok resp → resp = .ok) → m'.fileSystem = none →
      Leaves m m' m.files.clear m.directories.clear → Handled fuel cause m .shutdown (some outcome) m'
  | unmounted {op e m'} : m.fileSystem = none → m'.fileSystem = none →
      Leaves m m' m.files m.directories → Handled fuel cause m op (some (.error e)) m'
  | replied {op} {fs : FileSystem size n} {resp s m'} : op ≠ .shutdown →
      Mounted.serve fuel cause op ⟨fs, m.files, m.directories, m.served⟩ = (.ok resp, s) →
      Leaves m m' s.files s.directories → Handled fuel cause m op (some (.ok resp)) m'
  | failed {op} {fs : FileSystem size n} {e s m'} :
      Mounted.serve fuel cause op ⟨fs, m.files, m.directories, m.served⟩ = (.error (.error e), s) →
      e ≠ .noCard → Leaves m m' s.files s.directories → Handled fuel cause m op (some (.error e)) m'
  | lost {op} {fs : FileSystem size n} {s m'} :
      Mounted.serve fuel cause op ⟨fs, m.files, m.directories, m.served⟩ = (.error (.error .noCard), s) →
      m'.fileSystem = none → Leaves m m' s.files.clear s.directories.clear →
      Handled fuel cause m op (some (.error .noCard)) m'

theorem shutdown_leaves (cause : DeviceError) (held : m.Held) : (shutdown cause m).2.fileSystem = none ∧
    Leaves m (shutdown cause m).2 m.files.clear m.directories.clear := by
  have one := held.one
  unfold shutdown
  split
  · rename_i fs present
    have missing : m.dev = none := by simpa [present] using one
    dsimp only
    refine ⟨unmount_fileSystem, unmount_held ⟨by simp [missing], by simp⟩, unmount_served, ?_, ?_⟩
    · rw [unmount_files]
      rfl
    · rw [unmount_directories]
      rfl
  · exact ⟨unmount_fileSystem, unmount_held held, unmount_served, unmount_files, unmount_directories⟩

variable [NeZero n]

/-- A round, by the outcome of the request. -/
theorem round_inversion {fuel : Nat} {op : FsOp} {answer : FsAnswer} {r : Except (Fault FsError) FsResp}
    {t : FsManager size n} (handled : handleReq fuel cause op m = (r, t))
    (run : m.round fuel (.request op cause) = some (answer, m')) :
    (∃ resp, r = .ok resp ∧ answer = some (.ok resp) ∧ m' = t) ∨
      (r = .error (.error .noCard) ∧ answer = some (.error .noCard) ∧ m' = t.unmount) ∨
      ∃ e, e ≠ .noCard ∧ r = .error (.error e) ∧ answer = some (.error e) ∧ m' = t := by
  simp only [round, handled] at run
  split at run
  · cases run
    exact Or.inl ⟨_, rfl, rfl, rfl⟩
  · cases run
    exact Or.inr (Or.inl ⟨rfl, rfl, rfl⟩)
  · rename_i other
    cases run
    exact Or.inr (Or.inr ⟨_, fun same => other (same ▸ rfl), rfl, rfl, rfl⟩)
  · cases run

omit [NeZero n] in
/-- The unmount after a lost card. -/
theorem Leaves.unmount {files : Handles File} {directories : Handles (DirectoryEntryChain size)}
    {t : FsManager size n} (leaves : Leaves m t files directories) :
    Leaves m t.unmount files.clear directories.clear where
  held := unmount_held leaves.held
  served := unmount_served.trans leaves.served
  files := by rw [unmount_files, leaves.files]
  directories := by rw [unmount_directories, leaves.directories]

theorem round_shutdown {fuel : Nat} {answer : FsAnswer} (held : m.Held)
    (run : m.round fuel (.request .shutdown cause) = some (answer, m')) :
    Handled fuel cause m .shutdown answer m' := by
  obtain ⟨gone, leaves⟩ := shutdown_leaves cause held
  rcases shut : shutdown cause m with ⟨_ | ⟨⟩, t⟩
  · rename_i fault
    rw [shut] at gone leaves
    rcases round_inversion (bind_of_error shut) run with ⟨_, ⟨⟩, _⟩ | ⟨_, rfl, rfl⟩ | ⟨e, _, _, rfl, rfl⟩
    · exact .shutdown (by simp) unmount_fileSystem leaves.unmount
    · exact .shutdown (by simp) gone leaves
  · rw [shut] at gone leaves
    rcases round_inversion (bind_of_ok shut) run with ⟨resp, ok, rfl, rfl⟩ | ⟨⟨⟩, _⟩ | ⟨e, _, ⟨⟩, _⟩
    cases ok
    exact .shutdown (by simp) gone leaves

theorem round_handled {fuel : Nat} {op : FsOp} {answer : FsAnswer} (held : m.Held)
    (run : m.round fuel (.request op cause) = some (answer, m')) : Handled fuel cause m op answer m' := by
  by_cases shut : op = .shutdown
  · subst shut
    exact round_shutdown held run
  rcases handleReq_cases cause fuel held shut with ⟨fault, t, handled, mounts⟩ | ⟨fs, t, mounts, _, handled⟩
  · rcases round_inversion handled run with ⟨_, ⟨⟩, _⟩ | ⟨⟨⟩, rfl, rfl⟩ | ⟨e, _, ⟨⟩, rfl, rfl⟩
    · obtain ⟨before, after, there⟩ := mounts.failed _ rfl
      obtain ⟨files, directories⟩ := held.idle before
      have leaves : Leaves m t m.files m.directories :=
        ⟨⟨by simp [after, there], fun _ => by rw [mounts.files, mounts.directories]; exact held.idle before⟩,
          mounts.served, mounts.files, mounts.directories⟩
      have gone := leaves.unmount
      rw [clear_of_empty files, clear_of_empty directories] at gone
      exact .unmounted before unmount_fileSystem gone
    · obtain ⟨before, after, there⟩ := mounts.failed _ rfl
      exact .unmounted before after
        ⟨⟨by simp [after, there], fun _ => by rw [mounts.files, mounts.directories]; exact held.idle before⟩,
          mounts.served, mounts.files, mounts.directories⟩
  · have missing := (mounts.ok rfl).2
    rcases served : Mounted.serve fuel cause op ⟨fs, m.files, m.directories, m.served⟩ with ⟨r, s⟩
    rw [served] at handled
    have leaves : Leaves m { t with fileSystem := some s.fileSystem, files := s.files, directories := s.directories }
        s.files s.directories := ⟨⟨by simp [missing], by simp⟩, mounts.served, rfl, rfl⟩
    rcases round_inversion handled run with ⟨resp, rfl, rfl, rfl⟩ | ⟨rfl, rfl, rfl⟩ | ⟨e, other, rfl, rfl, rfl⟩
    · exact .replied shut served leaves
    · exact .lost served unmount_fileSystem leaves.unmount
    · exact .failed served other leaves

namespace Handled

variable {fuel : Nat} {op : FsOp} {answer : FsAnswer}

omit [NeZero n]

theorem leaves (handled : Handled fuel cause m op answer m') :
    ∃ files directories, Leaves m m' files directories := by
  cases handled with
  | shutdown _ _ leaves => exact ⟨_, _, leaves⟩
  | unmounted _ _ leaves => exact ⟨_, _, leaves⟩
  | replied _ _ leaves => exact ⟨_, _, leaves⟩
  | failed _ _ leaves => exact ⟨_, _, leaves⟩
  | lost _ _ leaves => exact ⟨_, _, leaves⟩

theorem turns (handled : Handled fuel cause m op answer m') (files : m.files.Below)
    (directories : m.directories.Below) :
    Handles.Turn m.served (answer.issued FsResp.file) m.files m'.files ∧
      Handles.Turn m.served (answer.issued FsResp.directory) m.directories m'.directories := by
  cases handled with
  | @shutdown outcome _ plain _ leaves =>
    have none_ : ∀ give : FsResp → Option UInt32, give .ok = none →
        FsAnswer.issued give (some outcome) = none := by
      intro give nothing
      cases outcome with
      | ok resp => rw [plain resp rfl, FsAnswer.issued, nothing]
      | error => rfl
    rw [none_ _ rfl, none_ _ rfl, leaves.files, leaves.directories]
    exact ⟨Handles.clear_kept, Handles.clear_kept⟩
  | unmounted _ _ leaves =>
    rw [leaves.files, leaves.directories]
    exact ⟨.refl _, .refl _⟩
  | @replied _ fs resp s _ _ served leaves =>
    have turn := Mounted.serve_turn (s := ⟨fs, m.files, m.directories, m.served⟩) cause fuel op
      files directories
    rw [served] at turn
    rw [leaves.files, leaves.directories]
    exact turn
  | @failed _ fs e s _ served _ leaves =>
    have turn := Mounted.serve_turn (s := ⟨fs, m.files, m.directories, m.served⟩) cause fuel op
      files directories
    rw [served] at turn
    rw [leaves.files, leaves.directories]
    exact turn
  | @lost _ fs s _ served _ leaves =>
    have turn := Mounted.serve_turn (s := ⟨fs, m.files, m.directories, m.served⟩) cause fuel op
      files directories
    rw [served] at turn
    obtain ⟨file, directory⟩ : m.files.Kept s.files ∧ m.directories.Kept s.directories := turn
    rw [leaves.files, leaves.directories]
    exact ⟨file.trans Handles.clear_kept, directory.trans Handles.clear_kept⟩

/-- Without a file system no handle is in the tables. -/
theorem absent_of_unmounted (held : m.Held) (unmounted : m.fileSystem = none) (h : UInt32) :
    m.files.get h = none ∧ m.directories.get h = none := by
  obtain ⟨files, directories⟩ := held.idle unmounted
  simp [Handles.get, files, directories]

theorem closed (handled : Handled fuel cause m op answer m') (held : m.Held) :
    (op = .closeFile h → m'.files.get h = none) ∧ (op = .closeDirectory h → m'.directories.get h = none) := by
  cases handled with
  | shutdown => exact ⟨nofun, nofun⟩
  | unmounted before _ leaves =>
    rw [leaves.files, leaves.directories]
    have absent := absent_of_unmounted held before h
    exact ⟨fun _ => absent.1, fun _ => absent.2⟩
  | @replied _ fs resp s _ _ served leaves =>
    rw [leaves.files, leaves.directories]
    refine ⟨?_, ?_⟩ <;> rintro rfl
    · exact Mounted.serve_closeFile served
    · exact Mounted.serve_closeDirectory served
  | @failed _ fs e s _ served _ leaves =>
    rw [leaves.files, leaves.directories]
    refine ⟨?_, ?_⟩ <;> rintro rfl
    · exact Mounted.serve_closeFile served
    · exact Mounted.serve_closeDirectory served
  | lost _ _ leaves =>
    rw [leaves.files, leaves.directories]
    simp

/-- A shutdown and a lost card leave no handle behind. -/
theorem gone (handled : Handled fuel cause m op answer m')
    (finished : op = .shutdown ∨ answer = some (.error .noCard)) (held : m.Held) :
    m'.files.get h = none ∧ m'.directories.get h = none := by
  cases handled with
  | shutdown _ _ leaves => simp [leaves.files, leaves.directories]
  | unmounted before _ leaves =>
    rw [leaves.files, leaves.directories]
    exact absent_of_unmounted held before h
  | replied plain =>
    rcases finished with shut | finished
    · exact absurd shut plain
    · cases finished
  | failed served other =>
    rcases finished with rfl | finished
    · cases served
    · cases finished
      exact absurd rfl other
  | lost _ _ leaves => simp [leaves.files, leaves.directories]

/-- A request with a handle that is not in use is refused and touches no open file. -/
theorem stale (handled : Handled fuel cause m op answer m')
    (absent : (op.fileHandle = some h ∧ m.files.get h = none) ∨
      (op.directoryHandle = some h ∧ m.directories.get h = none)) :
    (∃ e, answer = some (.error e) ∧ (m'.fileSystem.isSome → e = .invalidFileHandle)) ∧
      m'.files = m.files ∧ m'.directories = m.directories := by
  have refused : ∀ fs : FileSystem size n, Mounted.serve fuel cause op ⟨fs, m.files, m.directories, m.served⟩ =
      (.error (.error .invalidFileHandle), ⟨fs, m.files, m.directories, m.served⟩) := by
    intro fs
    rcases absent with ⟨carries, absent⟩ | ⟨carries, absent⟩
    · exact Mounted.serve_stale_file fuel carries absent
    · exact Mounted.serve_stale_directory fuel carries absent
  cases handled with
  | shutdown =>
    rcases absent with absent | absent
    · cases absent.1
    · cases absent.1
  | unmounted _ after leaves =>
    exact ⟨⟨_, rfl, by simp [after]⟩, leaves.files, leaves.directories⟩
  | replied _ served =>
    rw [refused] at served
    cases served
  | failed served _ leaves =>
    rw [refused] at served
    cases served
    exact ⟨⟨_, rfl, fun _ => rfl⟩, leaves.files, leaves.directories⟩
  | lost served =>
    rw [refused] at served
    cases served

/-- A request with a file handle acts on no other open file, and on no
directory; only a lost card closes them all. -/
theorem only_file (handled : Handled fuel cause m op answer m') (carries : op.fileHandle = some h) :
    m'.fileSystem = none ∨ (∀ k, k ≠ h → m'.files.get k = m.files.get k) ∧ m'.directories = m.directories := by
  cases handled with
  | shutdown => cases carries
  | unmounted _ after => exact Or.inl after
  | @replied _ fs _ _ _ _ served leaves =>
    have only := Mounted.serve_only_file cause fuel carries ⟨fs, m.files, m.directories, m.served⟩
    rw [served] at only
    rw [leaves.files, leaves.directories]
    exact Or.inr ⟨only.files, only.directories⟩
  | @failed _ fs _ _ _ served _ leaves =>
    have only := Mounted.serve_only_file cause fuel carries ⟨fs, m.files, m.directories, m.served⟩
    rw [served] at only
    rw [leaves.files, leaves.directories]
    exact Or.inr ⟨only.files, only.directories⟩
  | lost _ after => exact Or.inl after

theorem only_directory (handled : Handled fuel cause m op answer m') (carries : op.directoryHandle = some h) :
    m'.fileSystem = none ∨
      (∀ k, k ≠ h → m'.directories.get k = m.directories.get k) ∧ m'.files = m.files := by
  cases handled with
  | shutdown => cases carries
  | unmounted _ after => exact Or.inl after
  | @replied _ fs _ _ _ _ served leaves =>
    have only := Mounted.serve_only_directory cause fuel carries ⟨fs, m.files, m.directories, m.served⟩
    rw [served] at only
    rw [leaves.files, leaves.directories]
    exact Or.inr ⟨only.directories, only.files⟩
  | @failed _ fs _ _ _ served _ leaves =>
    have only := Mounted.serve_only_directory cause fuel carries ⟨fs, m.files, m.directories, m.served⟩
    rw [served] at only
    rw [leaves.files, leaves.directories]
    exact Or.inr ⟨only.directories, only.files⟩
  | lost _ after => exact Or.inl after

end Handled

/-- A round whose request came to `r` and left the manager `left`: that is what
is answered, and only a missing card unmounts the volume after it. -/
def Ends (cause : DeviceError) (r : Except (Fault ExFatError) FsResp) (left : FsManager size n)
    (answer : FsAnswer) (m' : FsManager size n) : Prop :=
  (∃ resp, r = .ok resp ∧ answer = some (.ok resp) ∧ m' = left) ∨
    ∃ e, r = .error (.error e) ∧ answer = some (.error (.ofExFat cause e)) ∧
      m' = if FsError.ofExFat cause e = .noCard then left.unmount else left

/-- What the round of a request has to do with the items in the tables. -/
structure ActsOnOwn (fuel : Nat) (cause : DeviceError) (op : FsOp) (m : FsManager size n) (answer : FsAnswer)
    (m' : FsManager size n) : Prop where
  /-- A request with a file handle is a call on the file stored under that handle. -/
  file : ∀ h stored, op.fileHandle = some h → m.files.get h = some stored → ∃ fs, m.fileSystem = some fs ∧
    let called := op.onFile ⟨fs, stored.item⟩
    Ends cause called.1 { m with
      fileSystem := some called.2.fs
      files := m.files.settle op h { stored with item := called.2.file } } answer m'
  /-- A request with a directory handle is a call on the iterator stored under that handle. -/
  directory : ∀ h stored, op.directoryHandle = some h → m.directories.get h = some stored →
    ∃ fs, m.fileSystem = some fs ∧
      let called := op.onDirectory fuel ⟨fs, stored.item⟩
      Ends cause called.1 { m with
        fileSystem := some called.2.fs
        directories := m.directories.settle op h { stored with item := called.2.chain } } answer m'
  /-- A file under another handle is as it was, or it is the one that the request has opened. -/
  opened : ∀ k stored, op.fileHandle ≠ some k → m'.files.get k = some stored →
    m.files.get k = some stored ∨ answer = some (.ok (.fileOpen k)) ∧ ∃ path options fs fs',
      op = .openFile path options ∧ (mount cause m).2.fileSystem = some fs ∧ m'.fileSystem = some fs' ∧
        FileSystem.open fuel path options fs = (.ok stored.item, fs') ∧ stored.issue = m.served
  /-- A handle that is given out was not in use before. -/
  fresh : (∀ k, answer = some (.ok (.fileOpen k)) → m.files.get k = none ∧ (m'.files.get k).isSome) ∧
    ∀ k, answer = some (.ok (.directoryOpen k)) → m.directories.get k = none ∧ (m'.directories.get k).isSome
  /-- An iterator under another handle is as it was, or it is the one that the request has opened. -/
  listed : ∀ k stored, op.directoryHandle ≠ some k → m'.directories.get k = some stored →
    m.directories.get k = some stored ∨ answer = some (.ok (.directoryOpen k)) ∧ ∃ path fs fs',
      op = .openDirectory path ∧ (mount cause m).2.fileSystem = some fs ∧ m'.fileSystem = some fs' ∧
        FileSystem.readDir fuel path fs = (.ok stored.item, fs') ∧ stored.issue = m.served

/-- A round with a handle that is in use runs the request on the mounted file system. -/
theorem round_ends {fuel : Nat} {op : FsOp} {answer : FsAnswer} {fs : FileSystem size n} {s : Mounted size n}
    {r : Except (Fault ExFatError) FsResp} (held : m.Held) (mounted : m.fileSystem = some fs) (other : op ≠ .shutdown)
    (served : Mounted.serve fuel cause op ⟨fs, m.files, m.directories, m.served⟩ = (Mounted.convert cause r, s))
    (run : m.round fuel (.request op cause) = some (answer, m')) :
    Ends cause r { m with fileSystem := some s.fileSystem, files := s.files, directories := s.directories }
      answer m' := by
  have missing : m.dev = none := by
    have one := held.one
    simpa [mounted] using one
  have mounts : mount cause m = (.ok (), m) := by
    unfold mount
    rw [missing, mounted]
  have handled : handleReq fuel cause op m = (Mounted.convert cause r,
      { m with fileSystem := some s.fileSystem, files := s.files, directories := s.directories }) := by
    have request : handleReq fuel cause op =
        (mount cause >>= fun _ =>
          onMounted (Mounted.serve fuel cause op) : Exec FsError (FsManager size n) FsResp) := by
      cases op <;> first | rfl | exact absurd rfl other
    rw [request, bind_of_ok mounts, onMounted, mounted]
    simp only [served]
  rcases round_inversion handled run with ⟨resp, ok, rfl, rfl⟩ | ⟨lost, rfl, rfl⟩ | ⟨e, card, failed, rfl, rfl⟩
  · rcases r with (e | _ | _) | resp' <;> cases ok
    exact Or.inl ⟨_, rfl, rfl, rfl⟩
  · rcases r with (e | _ | _) |
      resp' <;> simp only [Mounted.convert, Except.error.injEq, Fault.error.injEq, reduceCtorEq] at lost
    exact Or.inr ⟨e, rfl, by rw [lost], by rw [if_pos lost]⟩
  · rcases r with (e' | _ | _) |
      resp' <;> simp only [Mounted.convert, Except.error.injEq, Fault.error.injEq, reduceCtorEq] at failed
    exact Or.inr ⟨e', rfl, by rw [failed], by rw [if_neg (failed ▸ card)]⟩

/-- What a round leaves in the tables, unless it unmounts the volume, is what `serve` leaves there. -/
theorem round_served {fuel : Nat} {op : FsOp} {answer : FsAnswer} (held : m.Held)
    (run : m.round fuel (.request op cause) = some (answer, m')) :
    (∀ h, m'.files.get h = none ∧ m'.directories.get h = none) ∨
      (m'.files = m.files ∧ m'.directories = m.directories) ∨
      ∃ fs resp s, (mount cause m).2.fileSystem = some fs ∧
        Mounted.serve fuel cause op ⟨fs, m.files, m.directories, m.served⟩ = (resp, s) ∧
        (∀ r, resp = .ok r → answer = some (.ok r)) ∧
        m'.fileSystem = some s.fileSystem ∧ m'.files = s.files ∧ m'.directories = s.directories := by
  by_cases shut : op = .shutdown
  · exact Or.inl fun h => (round_handled held run).gone (Or.inl shut) held
  rcases handleReq_cases cause fuel held shut with ⟨fault, t, handled, mounts⟩ | ⟨fs, t, mounts, present, handled⟩
  · rcases round_inversion handled run with ⟨_, ⟨⟩, _⟩ | ⟨_, rfl, _⟩ | ⟨e, _, _, _, rfl⟩
    · exact Or.inl fun h => (round_handled held run).gone (Or.inr rfl) held
    · exact Or.inr (Or.inl ⟨mounts.files, mounts.directories⟩)
  · rcases round_inversion handled run with ⟨resp, served, rfl, rfl⟩ | ⟨_, rfl, _⟩ | ⟨e, _, served, rfl, rfl⟩
    · exact Or.inr (Or.inr ⟨fs, _, _, present, Prod.ext served rfl, fun r same => by cases same; rfl, rfl, rfl, rfl⟩)
    · exact Or.inl fun h => (round_handled held run).gone (Or.inr rfl) held
    · exact Or.inr (Or.inr ⟨fs, _, _, present, Prod.ext served rfl, nofun, rfl, rfl, rfl⟩)

theorem round_acts {fuel : Nat} {op : FsOp} {answer : FsAnswer} (held : m.Held) (files : m.files.Below)
    (directories : m.directories.Below) (run : m.round fuel (.request op cause) = some (answer, m')) :
    ActsOnOwn fuel cause op m answer m' where
  file h stored carries found := by
    obtain ⟨fs, mounted⟩ := held.mounted_of_file found
    have served := Mounted.serve_onFile (s := ⟨fs, m.files, m.directories, m.served⟩) cause fuel carries found
    exact ⟨fs, mounted, round_ends held mounted (by rintro rfl; cases carries) served run⟩
  directory h stored carries found := by
    obtain ⟨fs, mounted⟩ := held.mounted_of_directory found
    have served := Mounted.serve_onDirectory (s := ⟨fs, m.files, m.directories, m.served⟩) cause fuel carries found
    exact ⟨fs, mounted, round_ends held mounted (by rintro rfl; cases carries) served run⟩
  opened k stored other found := by
    rcases round_served held run with gone | same | ⟨fs, resp, s, present, served, answered, fileSystem, files', _⟩
    · simp [(gone k).1] at found
    · exact Or.inl (same.1 ▸ found)
    · have there : (Mounted.serve fuel cause op ⟨fs, m.files, m.directories, m.served⟩).2.files.get k =
          some stored := by
        rw [served, ← files', found]
      have opened := Mounted.serve_opened files other there
      rw [served] at opened
      refine opened.imp_right ?_
      rintro ⟨rfl, path, options, rfl, ran, issue⟩
      exact ⟨answered _ rfl, path, options, fs, s.fileSystem, rfl, present, fileSystem, ran, issue⟩
  fresh := by
    obtain ⟨file, directory⟩ := (round_handled held run).turns files directories
    refine ⟨?_, ?_⟩ <;> rintro k rfl
    · exact file.fresh files
    · exact directory.fresh directories
  listed k stored other found := by
    rcases round_served held run with gone | same | ⟨fs, resp, s, present, served, answered, fileSystem, _, dirs⟩
    · simp [(gone k).2] at found
    · exact Or.inl (same.2 ▸ found)
    · have there : (Mounted.serve fuel cause op
          ⟨fs, m.files, m.directories, m.served⟩).2.directories.get k = some stored := by
        rw [served, ← dirs, found]
      have listed := Mounted.serve_listed directories other there
      rw [served] at listed
      refine listed.imp_right ?_
      rintro ⟨rfl, path, rfl, ran, issue⟩
      exact ⟨answered _ rfl, path, fs, s.fileSystem, rfl, present, fileSystem, ran, issue⟩

/-- How many opens were successful. -/
def opens (answers : List FsAnswer) : Nat :=
  answers.countP fun a => (a.issued FsResp.file).isSome || (a.issued FsResp.directory).isSome

/-- The manager after the answers so far. -/
structure Tracked (answers : List FsAnswer) (m : FsManager size n) : Prop where
  held : m.Held
  files : Handles.Ledger (answers.map (FsAnswer.issued FsResp.file)) m.files
  directories : Handles.Ledger (answers.map (FsAnswer.issued FsResp.directory)) m.directories
  served : m.served = answers.length

theorem issued_le_opens {answers : List FsAnswer} {give : FsResp → Option UInt32}
    (some_ : ∀ a, (FsAnswer.issued give a).isSome →
      (a.issued FsResp.file).isSome || (a.issued FsResp.directory).isSome) :
    ((answers.map (FsAnswer.issued give)).filterMap id).length ≤ opens answers := by
  rw [List.filterMap_map, List.length_filterMap_eq_countP]
  exact List.countP_mono_left fun a _ => some_ a

theorem files_le_opens (answers : List FsAnswer) :
    ((answers.map (FsAnswer.issued FsResp.file)).filterMap id).length ≤ opens answers :=
  issued_le_opens fun _ given => by simp [given]

theorem directories_le_opens (answers : List FsAnswer) :
    ((answers.map (FsAnswer.issued FsResp.directory)).filterMap id).length ≤ opens answers :=
  issued_le_opens fun _ given => by simp [given]

/-- One round, whatever it is about. -/
theorem round_turns {fuel : Nat} {event : FsEvent size} {answer : FsAnswer} (held : m.Held)
    (files : m.files.Below) (directories : m.directories.Below)
    (run : m.round fuel event = some (answer, m')) :
    m'.Held ∧ m'.served = m.served ∧
      Handles.Turn m.served (answer.issued FsResp.file) m.files m'.files ∧
      Handles.Turn m.served (answer.issued FsResp.directory) m.directories m'.directories := by
  cases event with
  | card dev =>
    cases run
    exact ⟨insertCard_held held dev, rfl, .refl _, .refl _⟩
  | request op cause =>
    have handled := round_handled held run
    obtain ⟨_, _, leaves⟩ := handled.leaves
    exact ⟨leaves.held, leaves.served, handled.turns files directories⟩

theorem Tracked.round {fuel : Nat} {event : FsEvent size} {answer : FsAnswer} {answers : List FsAnswer}
    (tracked : Tracked answers m) (run : m.round fuel event = some (answer, m'))
    (few : opens (answers ++ [answer]) < 2 ^ 32) :
    Tracked (answers ++ [answer]) { m' with served := m'.served + 1 } := by
  obtain ⟨held, served, files, directories⟩ :=
    round_turns tracked.held tracked.files.below tracked.directories.below run
  have fewFiles := (files_le_opens (answers ++ [answer])).trans_lt few
  have fewDirectories := (directories_le_opens (answers ++ [answer])).trans_lt few
  simp only [List.map_append, List.map_cons, List.map_nil] at fewFiles fewDirectories
  refine ⟨⟨held.one, held.idle⟩, ?_, ?_, ?_⟩
  · rw [List.map_append]
    exact tracked.files.turn (by rwa [List.length_map, ← tracked.served]) fewFiles
  · rw [List.map_append]
    exact tracked.directories.turn (by rwa [List.length_map, ← tracked.served]) fewDirectories
  · simp [served, tracked.served]

/-- A round and the rounds after it. -/
theorem actor_cons {fuel : Nat} {event : FsEvent size} {rest : List (FsEvent size)} {answers : List FsAnswer}
    (run : actor fuel (event :: rest) m = some (answers, m')) :
    ∃ answer t others, m.round fuel event = some (answer, t) ∧
      actor fuel rest { t with served := t.served + 1 } = some (others, m') ∧ answers = answer :: others := by
  simp only [actor, Option.bind_eq_bind, Option.pure_def] at run
  obtain ⟨⟨answer, t⟩, first, run⟩ := Option.bind_eq_some_iff.mp run
  obtain ⟨⟨others, last⟩, second, run⟩ := Option.bind_eq_some_iff.mp run
  cases run
  exact ⟨answer, t, others, first, second, rfl⟩

theorem opens_append (one two : List FsAnswer) : opens (one ++ two) = opens one + opens two :=
  List.countP_append

/-- What a run keeps, and that an item of the tables at its end which is
older than the run was there at its beginning. -/
theorem Tracked.actor {fuel : Nat} {events : List (FsEvent size)} {answers past : List FsAnswer}
    (tracked : Tracked past m) (run : FsManager.actor fuel events m = some (answers, m'))
    (few : opens (past ++ answers) < 2 ^ 32) :
    Tracked (past ++ answers) m' ∧ answers.length = events.length ∧
      (∀ h stored, m'.files.get h = some stored → stored.issue < past.length →
        ∃ old, m.files.get h = some old ∧ old.issue = stored.issue) ∧
      (∀ h stored, m'.directories.get h = some stored → stored.issue < past.length →
        ∃ old, m.directories.get h = some old ∧ old.issue = stored.issue) := by
  induction events generalizing m past answers with
  | nil =>
    cases run
    exact ⟨by simpa using tracked, rfl, fun h stored found _ => ⟨stored, found, rfl⟩,
      fun h stored found _ => ⟨stored, found, rfl⟩⟩
  | cons event rest ih =>
    obtain ⟨answer, t, others, first, second, rfl⟩ := actor_cons run
    have split : past ++ answer :: others = (past ++ [answer]) ++ others := by simp
    rw [split] at few ⊢
    have fewer : opens (past ++ [answer]) < 2 ^ 32 := by
      rw [opens_append] at few
      omega
    obtain ⟨last, length, files, directories⟩ := ih (tracked.round first fewer) second few
    obtain ⟨_, _, file, directory⟩ := round_turns tracked.held tracked.files.below tracked.directories.below first
    refine ⟨last, by simp [length], ?_, ?_⟩
    · intro h stored found older
      obtain ⟨old, found, same⟩ := files h stored found (by simp; omega)
      obtain ⟨oldest, found, same'⟩ := file.come tracked.files.below found (by rw [tracked.served]; omega)
      exact ⟨oldest, found, same'.trans same⟩
    · intro h stored found older
      obtain ⟨old, found, same⟩ := directories h stored found (by simp; omega)
      obtain ⟨oldest, found, same'⟩ :=
        directory.come tracked.directories.below found (by rw [tracked.served]; omega)
      exact ⟨oldest, found, same'.trans same⟩

theorem actor_append {fuel : Nat} {before after : List (FsEvent size)} {answers : List FsAnswer}
    (run : FsManager.actor fuel (before ++ after) m = some (answers, m')) :
    ∃ first t second, FsManager.actor fuel before m = some (first, t) ∧
      FsManager.actor fuel after t = some (second, m') ∧ answers = first ++ second := by
  induction before generalizing m answers with
  | nil => exact ⟨[], m, answers, rfl, run, rfl⟩
  | cons event before ih =>
    obtain ⟨answer, t, others, round, rest, rfl⟩ := actor_cons run
    obtain ⟨first, u, second, head, tail, rfl⟩ := ih rest
    refine ⟨answer :: first, u, second, ?_, tail, rfl⟩
    simp only [FsManager.actor, round, Option.bind_eq_bind, Option.bind_some, head, Option.pure_def]

/-- The event at `j` takes a handle back: it closes it, it shuts the file
system down, or the card is found missing. -/
def Retires (events : List (FsEvent size)) (answers : List FsAnswer) (close : FsOp) (j : Nat) : Prop :=
  (∃ cause, events[j]? = some (.request close cause) ∨ events[j]? = some (.request .shutdown cause)) ∨
    answers[j]? = some (some (.error .noCard))

theorem round_retires {fuel : Nat} {event : FsEvent size} {answer : FsAnswer} {close : FsOp} (held : m.Held)
    (run : m.round fuel event = some (answer, m'))
    (retires : (∃ cause, event = .request close cause ∨ event = .request .shutdown cause) ∨
      answer = some (.error .noCard)) :
    (close = .closeFile h → m'.files.get h = none) ∧ (close = .closeDirectory h → m'.directories.get h = none) := by
  cases event with
  | card dev =>
    cases run
    rcases retires with ⟨_, same | same⟩ | same <;> cases same
  | request op cause =>
    have handled := round_handled held run
    rcases retires with ⟨_, same | same⟩ | same
    · cases same
      exact handled.closed held
    · cases same
      have gone := handled.gone (h := h) (Or.inl rfl) held
      exact ⟨fun _ => gone.1, fun _ => gone.2⟩
    · have gone := handled.gone (h := h) (Or.inr same) held
      exact ⟨fun _ => gone.1, fun _ => gone.2⟩

/-- A handle given out before it was taken back is in no table any more. -/
theorem Tracked.retired {fuel i j : Nat} {events : List (FsEvent size)} {answers : List FsAnswer} {close : FsOp}
    (tracked : Tracked [] m) (run : FsManager.actor fuel events m = some (answers, m'))
    (few : opens answers < 2 ^ 32) (later : i < j) (retires : Retires events answers close j) :
    (close = .closeFile h → ∀ stored, m'.files.get h = some stored → stored.issue ≠ i) ∧
      (close = .closeDirectory h → ∀ stored, m'.directories.get h = some stored → stored.issue ≠ i) := by
  have length := (tracked.actor run few).2.1
  have inside : j < events.length := by
    rcases retires with ⟨_, found | found⟩ | found
    · exact (List.getElem?_eq_some_iff.mp found).1
    · exact (List.getElem?_eq_some_iff.mp found).1
    · exact length ▸ (List.getElem?_eq_some_iff.mp found).1
  have split : events = events.take j ++ events[j] :: events.drop (j + 1) := by
    rw [List.getElem_cons_drop, List.take_append_drop]
  rw [split] at run
  obtain ⟨first, t, second, head, tail, rfl⟩ := actor_append run
  obtain ⟨answer, u, others, round, rest, rfl⟩ := actor_cons tail
  have count : opens (([] : List FsAnswer) ++ first) < 2 ^ 32 := by
    rw [opens_append] at few
    simpa using Nat.lt_of_le_of_lt (Nat.le_add_right _ _) few
  obtain ⟨middle, short, _⟩ := tracked.actor head count
  simp only [List.nil_append] at middle
  have size : first.length = j := by simpa [inside.le] using short
  have here : (first ++ answer :: others)[j]? = some answer := by simp [← size]
  have gone := round_retires (h := h) middle.held round (by
    rcases retires with ⟨cause, found | found⟩ | found
    · exact Or.inl ⟨cause, Or.inl (List.getElem?_eq_some_iff.mp found).2⟩
    · exact Or.inl ⟨cause, Or.inr (List.getElem?_eq_some_iff.mp found).2⟩
    · exact Or.inr (Option.some.inj (here.symm.trans found)))
  have cut : first ++ answer :: others = (first ++ [answer]) ++ others := by simp
  have fewer : opens (first ++ [answer]) < 2 ^ 32 := by
    rw [cut, opens_append] at few
    omega
  obtain ⟨_, _, files, directories⟩ := (middle.round round fewer).actor rest (cut ▸ few)
  -- what is left from before the event was there right after it
  refine ⟨fun close stored found issue => ?_, fun close stored found issue => ?_⟩
  · obtain ⟨old, there, _⟩ := files h stored found (by simp; omega)
    exact absurd (gone.1 close) (by simp [there])
  · obtain ⟨old, there, _⟩ := directories h stored found (by simp; omega)
    exact absurd (gone.2 close) (by simp [there])

/-- Handles are never reused: in every run of the actor with fewer than 2 ^ 32
successful opens, what is stored under a handle is what the request that gave
it out has stored; nothing is stored there once the handle is closed or the
volume unmounted; a request with such a handle is refused and leaves all open
files alone; and any other request with a handle is a call on the item that is
stored under it: its answer, what it does to the file system and what it leaves
of the item are those of the call, and no other item changes. -/
theorem handles_never_alias (dev : BlockDevice size) (timeProvider : Option (Nat → Timestamp))
    (usizeBits fuel : Nat) (events : List (FsEvent size)) {answers : List FsAnswer}
    (run : FsManager.actor fuel events (new dev timeProvider usizeBits) = some (answers, m))
    (few : opens answers < 2 ^ 32) :
    m.dev.isSome = !m.fileSystem.isSome ∧
      (∀ (i : Nat) (h : UInt32), answers[i]? = some (some (.ok (.fileOpen h))) →
        (∀ stored, m.files.get h = some stored → stored.issue = i) ∧
        ∀ j, i < j → Retires events answers (.closeFile h) j → m.files.get h = none) ∧
      (∀ (i : Nat) (h : UInt32), answers[i]? = some (some (.ok (.directoryOpen h))) →
        (∀ stored, m.directories.get h = some stored → stored.issue = i) ∧
        ∀ j, i < j → Retires events answers (.closeDirectory h) j → m.directories.get h = none) ∧
      m.served = answers.length ∧
      ∀ op cause answer m', m.round fuel (.request op cause) = some (answer, m') →
        ActsOnOwn fuel cause op m answer m' ∧ ∀ h,
        ((op.fileHandle = some h ∧ m.files.get h = none) ∨
            (op.directoryHandle = some h ∧ m.directories.get h = none) →
          (∃ e, answer = some (.error e) ∧ (m'.fileSystem.isSome → e = .invalidFileHandle)) ∧
            m'.files = m.files ∧ m'.directories = m.directories) ∧
        (op.fileHandle = some h → m'.fileSystem = none ∨
          (∀ k, k ≠ h → m'.files.get k = m.files.get k) ∧ m'.directories = m.directories) ∧
        (op.directoryHandle = some h → m'.fileSystem = none ∨
          (∀ k, k ≠ h → m'.directories.get k = m.directories.get k) ∧ m'.files = m.files) := by
  have start : Tracked [] (new dev timeProvider usizeBits : FsManager size n) :=
    ⟨new_held dev timeProvider usizeBits, .start, .start, rfl⟩
  have tracked : Tracked answers m := (start.actor run (by simpa using few)).1
  refine ⟨tracked.held.one, ?_, ?_, tracked.served, ?_⟩
  · intro i h issued
    have own : ∀ stored, m.files.get h = some stored → stored.issue = i := fun stored found =>
      tracked.files.distinct _ _ h (tracked.files.entered h stored found)
        (by simp [issued, FsAnswer.issued, FsResp.file])
    refine ⟨own, fun j later retires => ?_⟩
    cases found : m.files.get h with
    | none => rfl
    | some stored => exact absurd (own stored found) ((start.retired run few later retires).1 rfl stored found)
  · intro i h issued
    have own : ∀ stored, m.directories.get h = some stored → stored.issue = i := fun stored found =>
      tracked.directories.distinct _ _ h (tracked.directories.entered h stored found)
        (by simp [issued, FsAnswer.issued, FsResp.directory])
    refine ⟨own, fun j later retires => ?_⟩
    cases found : m.directories.get h with
    | none => rfl
    | some stored => exact absurd (own stored found) ((start.retired run few later retires).2 rfl stored found)
  · intro op cause answer m' round
    have handled := round_handled tracked.held round
    exact ⟨round_acts tracked.held tracked.files.below tracked.directories.below round,
      fun h => ⟨handled.stale, handled.only_file, handled.only_directory⟩⟩

/-- A card of 512 byte sectors that mounts: the root directory in sector 2
names a bitmap, an up-case table and a volume label. -/
def tinyCard : BlockDevice 512 where
  blocks sector :=
    let blank : Block 512 := fun _ => 0
    if sector = 0 then
      blank.patch 0 [0xeb, 0x76, 0x90, 0x45, 0x58, 0x46, 0x41, 0x54, 0x20, 0x20, 0x20] |>.patch 80 [1]
        |>.patch 88 [2] |>.patch 92 [4] |>.patch 96 [2] |>.patch 108 [9] |>.patch 510 [0x55, 0xaa]
    else if sector = 2 then
      blank.patch 0 [0x81] |>.patch 20 [3] |>.patch 24 [1] |>.patch 32 [0x82] |>.patch 52 [4] |>.patch 64 [0x83]
    else blank
  script := []
  writes := []

/-- What a run answers is known once its issued handles are. -/
theorem fileOpen_of_issued {a : FsAnswer} (issued : a.issued FsResp.file = some h) :
    a = some (.ok (.fileOpen h)) := by
  rcases a with _ | _ | resp
  · cases issued
  · cases issued
  · cases resp <;> cases issued
    rfl

theorem opened_of_issued {answers : List FsAnswer} {rest : List (Option UInt32)}
    (issued : answers.map (FsAnswer.issued FsResp.file) = some h :: rest) (short : rest.length < 8) :
    opens answers < 2 ^ 32 ∧ answers[0]? = some (some (.ok (.fileOpen h))) := by
  have length : answers.length = rest.length + 1 := by simpa using congrArg List.length issued
  have most : opens answers ≤ answers.length := List.countP_le_length
  refine ⟨by omega, ?_⟩
  have given := congrArg (fun log => log[0]?) issued
  rw [List.getElem?_map] at given
  obtain ⟨a, found, issued⟩ := Option.map_eq_some_iff.mp given
  rw [found, fileOpen_of_issued issued]

/-- Two files are made, in the root directory of the card. -/
def opening : List (FsEvent 512) :=
  ['f', 'g'].map fun name => .request (.openFile [name] { create := true, read := true, write := true }) ⟨0, true⟩

/-- The first one is written and closed, twice as dropping it does. -/
def writing : List (FsEvent 512) :=
  [.request (.writeFile 1 [7]) ⟨0, true⟩, .request (.closeFile 1) ⟨0, true⟩, .request (.closeFile 1) ⟨0, true⟩]

/-- Both files are open; a write with the handle of the first one writes to the
file stored there and leaves the second one as it was; and once the handle is
closed, nothing is stored under it. -/
theorem handles_never_alias_written :
    (∃ answers m answer m' fs stored, FsManager.actor 40 opening (new tinyCard none 32 : FsManager 512 1) =
        some (answers, m) ∧ m.round 40 (.request (.writeFile 1 [7]) ⟨0, true⟩) = some (answer, m') ∧
      m.fileSystem = some fs ∧ m.files.get 1 = some stored ∧ stored.issue = 0 ∧
      m'.files.get 1 = some { stored with item := (File.write [7] ⟨fs, stored.item⟩).2.file } ∧
      m'.files.get 2 = m.files.get 2) ∧
    ∃ answers m, FsManager.actor 40 (opening ++ writing)
    (new tinyCard none 32 : FsManager 512 1) = some (answers, m) ∧
      m.files.get 1 = none := by
  refine ⟨?_, ?_⟩
  · have shown : (FsManager.actor 40 opening (new tinyCard none 32 : FsManager 512 1)).map (fun r =>
        (r.1.map (FsAnswer.issued FsResp.file), (r.2.files.get 1).isSome,
          (r.2.round 40 (.request (.writeFile 1 [7]) ⟨0, true⟩)).map fun p => p.1.map Except.isOk)) =
        some ([some 1, some 2], true, some (some true)) := by decide +kernel
    obtain ⟨⟨answers, m⟩, run, shown⟩ := Option.map_eq_some_iff.mp shown
    simp only [Prod.mk.injEq] at shown
    obtain ⟨issued, there, shown⟩ := shown
    obtain ⟨⟨answer, m'⟩, round, replied⟩ := Option.map_eq_some_iff.mp shown
    obtain ⟨stored, found⟩ := Option.isSome_iff_exists.mp there
    obtain ⟨few, first⟩ := opened_of_issued issued (by decide)
    obtain ⟨_, files, _, _, acts⟩ := handles_never_alias tinyCard none 32 40 _ run few
    obtain ⟨own, only⟩ := acts _ _ _ _ round
    obtain ⟨fs, mounted, ends⟩ := own.file 1 stored rfl found
    refine ⟨answers, m, answer, m', fs, stored, run, round, mounted, found, (files 0 1 first).1 stored found, ?_, ?_⟩
    · rcases ends with ⟨_, _, _, rfl⟩ | ⟨e, _, rfl, _⟩
      · have same : (FsOp.onFile (.writeFile 1 [7]) ⟨fs, stored.item⟩).2 = (File.write [7] ⟨fs, stored.item⟩).2 :=
          bind_pure_state _ _ _
        simp [Handles.settle, FsOp.closes, same]
      · cases replied
    · rcases ends with ⟨_, _, _, rfl⟩ | ⟨e, _, rfl, _⟩
      · simp [Handles.settle, FsOp.closes]
      · cases replied
  · have shown : (FsManager.actor 40 (opening ++ writing) (new tinyCard none 32 : FsManager 512 1)).map
        (fun r => r.1.map (FsAnswer.issued FsResp.file)) = some [some 1, some 2, none, none, none] := by
          decide +kernel
    obtain ⟨⟨answers, m⟩, run, issued⟩ := Option.map_eq_some_iff.mp shown
    obtain ⟨few, first⟩ := opened_of_issued issued (by decide)
    obtain ⟨_, files, _⟩ := handles_never_alias tinyCard none 32 40 _ run few
    exact ⟨answers, m, run, (files 0 1 first).2 3 (by omega) (Or.inl ⟨⟨0, true⟩, Or.inl rfl⟩)⟩

end FsManager

end ExFatSlim
