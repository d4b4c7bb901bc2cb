import PipelineShell.Errno
import PipelineShell.Signal
import PipelineShell.Pipeline

/-!
# The calls a shell makes

A `Host σ` is what the shell runs on, with `σ` its state: the system calls that wire and start processes, and the few services
the session needs besides. Nothing is assumed of a host here. `Machine` is the one that programs run on; a statement about
every outcome of the calls is a statement about every host.
-/

namespace PipelineShell

/-- A descriptor as a caller names it; a negative one refers to nothing. -/
abbrev Fd := Int

/-- A process number. -/
abbrev Pid := Nat

/-- A call on the host: it may change the state whether or not it succeeds. -/
abbrev Call (σ α : Type) := ExceptT Errno (StateM σ) α

/-- How an opened file may be used. -/
inductive Access where
  | read
  | write
  | readWrite
  /-- It may be neither read nor written, though whoever opens it must be allowed to do both. -/
  | neither
  deriving DecidableEq, Repr

namespace Access

/-- Reading is allowed. -/
def canRead : Access → Bool
  | read | readWrite => true
  | write | neither => false

/-- Writing is allowed. -/
def canWrite : Access → Bool
  | write | readWrite => true
  | read | neither => false

/-- Whoever opens a file for this must be allowed to write to it. -/
def asksToWrite : Access → Bool
  | read => false
  | write | readWrite | neither => true

end Access

/-- How a file is opened. -/
structure OpenFlags where
  access : Access
  /-- Make the file if there is none. -/
  create : Bool := false
  /-- Together with `create`: refuse a file that exists. -/
  exclusive : Bool := false
  truncate : Bool := false
  /-- Every write goes to the end of the file. -/
  append : Bool := false
  /-- Refuse anything but a directory. -/
  directory : Bool := false
  /-- Refuse a symbolic link at the end of the path. -/
  noFollow : Bool := false
  /-- Only find what the path leads to. It cannot be read or written then, and nothing is made or changed. -/
  pathOnly : Bool := false
  /-- Make a file without a name, in the directory the path leads to. -/
  unnamed : Bool := false
  /-- Move data between the disk and the caller directly, in whole sectors. -/
  direct : Bool := false
  deriving DecidableEq, Repr

/-- The flags that count: few of them do where a path is only to be found. -/
def OpenFlags.effective (flags : OpenFlags) : OpenFlags :=
  if flags.pathOnly then
    { access := .neither, pathOnly := true, directory := flags.directory, noFollow := flags.noFollow }
  else flags

/-- Flags that contradict each other: a directory is not made by opening it, and a file without a name is made to be written. -/
def OpenFlags.contradict (flags : OpenFlags) : Bool :=
  (flags.create && flags.directory) || (flags.unnamed && (!flags.directory || !flags.access.asksToWrite))

/-- How long a call waits for a child. -/
inductive WaitOption where
  /-- Until it ends or is stopped. -/
  | untilChange
  /-- Not at all; a stopped child counts as running. -/
  | poll
  deriving DecidableEq, Repr

/-- How the child's side of a fork leaves the code of its parent. -/
inductive Departure where
  /-- It became the program it was told to run. -/
  | replaced
  /-- It ended first, with this status. -/
  | exited (status : Nat)
  deriving DecidableEq, Repr

/-- Why there is no line where one was asked for. -/
inductive InputError where
  /-- Its bytes are not the UTF-8 form of a text. -/
  | notText
  /-- Whoever types it has given it up. Only a terminal says so. -/
  | interrupted
  /-- Asking for it has failed. -/
  | failed (e : Errno)
  deriving DecidableEq, Repr

/-- The reason as it is shown. -/
def InputError.message : InputError → String
  | notText => "stream did not contain valid UTF-8"
  | interrupted => "Interrupted"
  | failed e => e.streamMessage

/-- The host of a shell. -/
structure Host (σ : Type) where
  /-- Opens a file, creating it with the given permission bits if asked to. -/
  openFile : String → OpenFlags → Nat → Call σ Fd
  /-- Makes the second descriptor refer to what the first one refers to. -/
  dup2 : Fd → Fd → Call σ Unit
  close : Fd → Call σ Unit
  /-- Makes a pipe: its read end and its write end. -/
  pipe : Call σ (Fd × Fd)
  /-- Starts a child, which begins by running the given code on a copy of the caller's descriptors. -/
  fork : StateM σ Departure → Call σ Pid
  /-- Replaces the calling process by the program of this argument vector, looked up in the search path. -/
  exec : List String → Call σ Unit
  /-- Waits for a child. -/
  wait : Pid → WaitOption → Call σ WaitStatus
  /-- Writes a line to standard error. -/
  complain : String → StateM σ Unit
  /-- Writes to standard output, without keeping anything back. -/
  print : String → Call σ Unit
  /-- The absolute path of a file that exists, free of links, `.` and `..`. -/
  canonicalize : String → Call σ String
  /-- Moves the process to a directory. -/
  changeDirectory : String → Call σ Unit
  /-- The path of the process's directory. -/
  currentDirectory : Call σ String
  /-- The environment of the process. -/
  environment : StateM σ (List (String × String))
  /-- Asks for the next line of standard input with a prompt, where one is shown: the line with its end if it has one, and none at the
  end of the input. -/
  readLine : String → StateM σ (Except InputError (Option String))
  /-- So many lines and interruptions come from standard input at most before its end. -/
  lineBound : StateM σ Nat

/-- Descriptor 0. -/
def standardInput : Fd := 0

/-- Descriptor 1. -/
def standardOutput : Fd := 1

end PipelineShell
