/-!
# What every file system returns

The error type of the `FileSystem` trait in `src/fs/vfs.rs`.
-/

namespace RustOs.Fs

/-- `VfsError`. -/
inductive VfsError where
  | fileNotFound
  | fileExists
  | noSpace
  | invalidName
  | fileTooLarge
  | tooManyFiles
  | permissionDenied
  | notADirectory
  | isADirectory
  | directoryNotEmpty
  | notAFile
  | alreadyExists
  | ioError
  deriving DecidableEq, Repr

end RustOs.Fs
