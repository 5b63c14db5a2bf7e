import ExFatSlim.Lib.Exec

namespace ExFatSlim

/-- `boot_sector::Error`. -/
inductive BootSectorError where
  | invalidJumpBoot
  | invalidFileSystemName
  | invalidBootSignature
  | invalidBytesPerSectorShift (shift : Nat)
  | invalidSectorsPerClusterShift (shift : Nat)
  deriving DecidableEq, Repr

/-- `error::ExFatError`. The device's own error type is only carried along
by the source, so `io` has no payload here. -/
inductive ExFatError where
  | io
  | directoryEntry (reason : String)
  | notExFat (e : BootSectorError)
  | endOfFatChain
  | invalidUtf16String (reason : String)
  | invalidFileName (reason : String)
  | invalidFileSystem (reason : String)
  | fileNotFound
  | directoryNotFound
  | utf8Error
  | diskFull
  | invalidClusterId (cluster : Nat)
  | directoryNotEmpty
  | writeNotEnabled
  | readNotEnabled
  | alreadyExists
  | seekOutOfRange
  | unexpected (reason : String)
  | fileNameBufferTooSmall
  | directoryFull
  deriving DecidableEq, Repr

/-- What a source function of type `ExFatResult` does to the state `σ`. -/
abbrev ExFat (σ α : Type) := Exec ExFatError σ α

end ExFatSlim
