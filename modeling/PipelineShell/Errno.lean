/-!
# Causes of failed system calls

Each cause has its symbolic name, its number and two wordings: the one this shell has for a call of its own (`Errno.description`) and the
one of the programs it starts (`Errno.systemText`), which it has too where reading or writing fails. They differ for a few causes only.
-/

namespace PipelineShell

/-- Why a system call failed. -/
inductive Errno where
  | noEntry
  | badDescriptor
  | noChild
  | tryAgain
  | accessDenied
  | fileExists
  | notDirectory
  | isDirectory
  | invalid
  | tooManyOpen
  | noSpace
  | brokenPipe
  | argumentsTooLong
  | notExecutable
  | nameTooLong
  | notEmpty
  | tooManyLinks
  | crossDevice
  | busy
  | notSupported
  | textBusy
  deriving DecidableEq, Repr

namespace Errno

/-- The symbolic name. -/
def name : Errno → String
  | noEntry => "ENOENT"
  | badDescriptor => "EBADF"
  | noChild => "ECHILD"
  | tryAgain => "EAGAIN"
  | accessDenied => "EACCES"
  | fileExists => "EEXIST"
  | notDirectory => "ENOTDIR"
  | isDirectory => "EISDIR"
  | invalid => "EINVAL"
  | tooManyOpen => "EMFILE"
  | noSpace => "ENOSPC"
  | brokenPipe => "EPIPE"
  | argumentsTooLong => "E2BIG"
  | notExecutable => "ENOEXEC"
  | nameTooLong => "ENAMETOOLONG"
  | notEmpty => "ENOTEMPTY"
  | tooManyLinks => "ELOOP"
  | crossDevice => "EXDEV"
  | busy => "EBUSY"
  | notSupported => "EOPNOTSUPP"
  | textBusy => "ETXTBSY"

/-- The number that goes with the name. -/
def number : Errno → Nat
  | noEntry => 2
  | argumentsTooLong => 7
  | notExecutable => 8
  | badDescriptor => 9
  | noChild => 10
  | tryAgain => 11
  | accessDenied => 13
  | busy => 16
  | fileExists => 17
  | crossDevice => 18
  | notDirectory => 20
  | isDirectory => 21
  | invalid => 22
  | tooManyOpen => 24
  | textBusy => 26
  | noSpace => 28
  | brokenPipe => 32
  | nameTooLong => 36
  | notEmpty => 39
  | tooManyLinks => 40
  | notSupported => 95

/-- The wording of the standard programs. -/
def systemText : Errno → String
  | noEntry => "No such file or directory"
  | badDescriptor => "Bad file descriptor"
  | noChild => "No child processes"
  | tryAgain => "Resource temporarily unavailable"
  | accessDenied => "Permission denied"
  | fileExists => "File exists"
  | notDirectory => "Not a directory"
  | isDirectory => "Is a directory"
  | invalid => "Invalid argument"
  | tooManyOpen => "Too many open files"
  | noSpace => "No space left on device"
  | brokenPipe => "Broken pipe"
  | argumentsTooLong => "Argument list too long"
  | notExecutable => "Exec format error"
  | nameTooLong => "File name too long"
  | notEmpty => "Directory not empty"
  | tooManyLinks => "Too many levels of symbolic links"
  | crossDevice => "Invalid cross-device link"
  | busy => "Device or resource busy"
  | notSupported => "Operation not supported"
  | textBusy => "Text file busy"

/-- The wording of the shell. -/
def description : Errno → String
  | badDescriptor => "Bad file number"
  | tooManyLinks => "Too many symbolic links encountered"
  | tryAgain => "Try again"
  | crossDevice => "Cross-device link"
  | notSupported => "Operation not supported on transport endpoint"
  | e => e.systemText

/-- The name and the shell's wording together. -/
def message (e : Errno) : String := e.name ++ ": " ++ e.description

/-- What is said of text that cannot be read or written. -/
def streamMessage (e : Errno) : String := e.systemText ++ " (os error " ++ toString e.number ++ ")"

end Errno

end PipelineShell
