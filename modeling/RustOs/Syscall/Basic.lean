/-!
# Syscalls

What the syscall handlers share: the error numbers they answer with.
-/

namespace RustOs

/-- `SyscallError`. -/
inductive SyscallError where
  | badFileDescriptor
  | invalidArgument
  | permissionDenied
  | fileNotFound
  | outOfMemory
  | notImplemented
  deriving DecidableEq, Repr

/-- `as_isize`. -/
def SyscallError.asIsize : SyscallError → Int
  | badFileDescriptor => -9
  | invalidArgument => -22
  | permissionDenied => -13
  | fileNotFound => -2
  | outOfMemory => -12
  | notImplemented => -38

theorem SyscallError.asIsize_neg (e : SyscallError) : e.asIsize < 0 := by
  cases e <;> decide

end RustOs
