import ExFatSlim.Mount

namespace ExFatSlim

def maxNameLen : Nat := 765

def allPassFilter : DirectoryEntryFilter where
  hash _ _ := true
  fileNameLength _ := true
  fileName _ _ _ := true

/-- An `ExactNameFilter` for a name with the given hash and number of units. -/
def exactNameFilter (fileName : List Char) (fileNameHash : Nat) (fileAttributes : Option FileAttributes)
    (fileNameCount : Nat) : DirectoryEntryFilter where
  hash hash attributes := match fileAttributes with
    | some required => fileNameHash == hash && attributes.contains required
    | none => fileNameHash == hash
  fileNameLength length := fileNameCount == length
  fileName part ordinal upcaseTable :=
    (((encodeUtf16 fileName).drop ordinal).zip part).all fun (left, right) =>
      upcaseTable.upcase left == upcaseTable.upcase right

/-- `ExactNameFilter::new`. -/
def newExactNameFilter {σ : Type} (fileName : List Char) (upcaseTable : UpcaseTable)
    (fileAttributes : Option FileAttributes) : ExFat σ DirectoryEntryFilter := do
  let (hash, count) ← encodeUtf16UpcaseAndHash fileName upcaseTable
  pure (exactNameFilter fileName hash fileAttributes count)

def isSeparator (c : Char) : Bool := c == '/' || c == '\\'

/-- `char::is_whitespace`, the Unicode property White_Space. -/
def isWhitespace (c : Char) : Bool :=
  let v := c.toNat
  (9 ≤ v && v ≤ 13) || v == 0x20 || v == 0x85 || v == 0xA0 || v == 0x1680
    || (0x2000 ≤ v && v ≤ 0x200A) || v == 0x2028 || v == 0x2029 || v == 0x202F || v == 0x205F
    || v == 0x3000

/-- `str::trim`. -/
def trim (s : List Char) : List Char :=
  ((s.dropWhile isWhitespace).reverse.dropWhile isWhitespace).reverse

/-- `path_to_iter`: the non-empty parts of a path, trimmed. -/
def pathToIter (path : List Char) : List (List Char) :=
  ((path.splitOnP isSeparator).filter fun part => !part.isEmpty).map trim

/-- `split_path`: what is before the last separator, and what is after it. -/
def splitPath (path : List Char) : List Char × List Char :=
  let name := (path.reverse.takeWhile fun c => !isSeparator c).reverse
  (path.take (path.length - name.length - 1), name)

namespace FileSystem

variable {size n : Nat} {α : Type}

/-- Runs a directory reader of its own, and drops it. -/
def scanning (chain : DirectoryEntryChain size) (m : ExFat (Scan size n) α) :
    ExFat (FileSystem size n) α := fun fs =>
  ((m ⟨fs, chain⟩).1, (m ⟨fs, chain⟩).2.fs)

/-- The first entry of a directory that passes an exact name filter. -/
def lookupIn (fuel clusterId : Nat) (name : List Char) (attributes : Option FileAttributes) :
    ExFat (FileSystem size n) (Option FileDetails) := do
  let fs ← get
  let filter ← newExactNameFilter name fs.upcaseTable attributes
  let found ← scanning (.new clusterId fs.fs) (DirectoryEntryChain.nextFileEntry filter none fuel)
  pure (found.map Prod.fst)

/-- The loop of `get_leaf_file_entry` over the parts of the path. -/
def leafFrom (fuel : Nat) (fileAttributes : Option FileAttributes) :
    List (List Char) → Nat → ExFat (FileSystem size n) (Option FileDetails)
  | [], _ => pure none
  | [part], clusterId => lookupIn fuel clusterId part fileAttributes
  | part :: rest, clusterId => do
    match ← lookupIn fuel clusterId part (some attrDirectory) with
    | some details =>
      if details.attributes.contains attrDirectory then leafFrom fuel fileAttributes rest details.firstCluster
      else pure none
    | none => pure none

def getLeafFileEntry (fuel : Nat) (path : List Char) (fileAttributes : Option FileAttributes) :
    ExFat (FileSystem size n) (Option FileDetails) := do
  leafFrom fuel fileAttributes (pathToIter path) (← get).fs.firstClusterOfRootDir

/-- `find_file_inner`, and `find_file_or_directory`, which only calls it. -/
def findFileInner (fuel : Nat) (path : List Char) (fileAttributes : Option FileAttributes) :
    ExFat (FileSystem size n) FileDetails := do
  match ← getLeafFileEntry fuel path fileAttributes with
  | some details => pure details
  | none => Exec.raise .fileNotFound

/-- `directory_list`: the reader of a `DirectoryIterator`. -/
def directoryList (fuel : Nat) (path : List Char) :
    ExFat (FileSystem size n) (DirectoryEntryChain size) := do
  let fs ← get
  if (pathToIter path).isEmpty then return .new fs.fs.firstClusterOfRootDir fs.fs
  match ← getLeafFileEntry fuel path (some attrDirectory) with
  | some details =>
    if details.attributes.contains attrDirectory then pure (.new details.firstCluster fs.fs)
    else Exec.raise .directoryNotFound
  | none => Exec.raise .directoryNotFound

end FileSystem

end ExFatSlim
