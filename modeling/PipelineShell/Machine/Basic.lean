import PipelineShell.Environment
import PipelineShell.Machine.Descriptors
import PipelineShell.Machine.Filesystem

/-!
# The machine

A `Machine` is a filesystem, the opened files and pipes, a clock, the processes that the shell and its children have started,
and the task whose code is running, which is the shell's unless a process has its turn. Opened files and pipes are numbered and
never reused, so descriptors of several tasks can share one. Nothing here waits: whether a read, a write or an awaited child
would make its caller wait is a question of its own, `hasHappened`.
-/

namespace PipelineShell

/-- A file as one call opened it. Descriptors copied from each other share it, its offset included. -/
structure OpenFile where
  node : Nat
  access : Access
  /-- Every write goes to the end of the file. -/
  append : Bool
  /-- Data is moved in whole sectors. -/
  direct : Bool := false
  offset : Nat := 0
  deriving DecidableEq, Repr

/-- What a descriptor refers to. -/
inductive Handle where
  | file (opened : Nat)
  | readEnd (pipe : Nat)
  | writeEnd (pipe : Nat)
  deriving DecidableEq, Repr

/-- A standard program with its argument vector, ready to run. -/
structure Image where
  program : String
  argv : List String
  deriving DecidableEq, Repr

/-- What belongs to one process. -/
structure Task where
  pid : Pid := 1
  descriptors : Descriptors Handle := {}
  directory : Nat := 0
  environment : Bindings := []
  /-- The permission bits taken away from new files. -/
  mask : Nat := 0
  /-- The program the process has become; the shell is none of them. -/
  image : Option Image := none
  /-- What is kept open beside the descriptors until the process becomes another program. -/
  aside : List Handle := []
  deriving DecidableEq, Repr

/-- How a process ended. -/
inductive Fate where
  | exited (status : Nat)
  | killed (signal : Signal)
  deriving DecidableEq, Repr

/-- Where a process stands. -/
inductive ProcessState where
  | running
  | stopped (signal : Signal)
  /-- It has ended, and its parent has not collected it. -/
  | ended (fate : Fate)
  deriving DecidableEq, Repr

/-- A process other than the shell. -/
structure Process where
  task : Task
  /-- The process that collects it; number 0 stands for none. -/
  parent : Pid
  state : ProcessState := .running
  /-- A signal that ends it as soon as it goes on. -/
  pending : Option Signal := none
  deriving DecidableEq, Repr

namespace Process

/-- The number of a process. -/
def pid (p : Process) : Pid := p.task.pid

/-- How a process ended, if it has. -/
def fate? (p : Process) : Option Fate :=
  match p.state with
  | .ended fate => some fate
  | _ => none

/-- A process has ended and has no parent. -/
def isForgotten (p : Process) : Bool := p.parent = 0 && p.fate?.isSome

end Process

/-- Something that code may wait for. -/
inductive Event where
  | always
  /-- A read from the descriptor would not wait. -/
  | readable (fd : Fd)
  /-- A write of so many bytes to the descriptor would not wait. -/
  | writable (fd : Fd) (size : Nat)
  /-- The clock shows a time, in nanoseconds. -/
  | reached (time : Nat)
  /-- A child has ended. -/
  | ended (child : Pid)
  deriving DecidableEq, Repr

/-- The state of the host. -/
structure Machine where
  files : Filesystem
  opened : List OpenFile := []
  /-- What each pipe holds. -/
  pipes : List Bytes := []
  /-- The time, in nanoseconds. -/
  clock : Nat := 0
  processes : List Process := []
  /-- The number of the next process. -/
  nextPid : Pid := 2
  /-- The task whose code is running. -/
  self : Task := {}
  /-- The task of the shell while a process has its turn. -/
  suspended : Option Task := none
  deriving DecidableEq, Repr

namespace Task

/-- The task keeps `h` open. -/
def holds (t : Task) (h : Handle) : Bool := t.descriptors.slots.contains (some h) || t.aside.contains h

/-- Keeps open what the descriptors refer to, whatever becomes of them. -/
def setAside (t : Task) : Task := { t with aside := t.aside ++ t.descriptors.slots.filterMap id }

/-- The task of a process that becomes a program. -/
def withImage (t : Task) (image : Image) : Task := { t with image := some image, aside := [] }

end Task

namespace Machine

/-- Descriptors are below this number. -/
def descriptorLimit : Nat := 1048576

/-- What a descriptor of the running task refers to. -/
def handle? (m : Machine) (fd : Fd) : Option Handle := m.self.descriptors.get? fd

/-- Changes the running task. -/
def modifySelf (f : Task → Task) : StateM Machine Unit := modify fun m => { m with self := f m.self }

/-- Gives a handle the lowest free descriptor. -/
def install (h : Handle) : Call Machine Fd := do
  let m ← get
  let fd := m.self.descriptors.lowestFree
  if fd ≥ descriptorLimit then throw .tooManyOpen
  set { m with self := { m.self with descriptors := m.self.descriptors.put fd h } }
  return fd

/-- Notes that a node has been opened. -/
def register (files : Filesystem) (node : Nat) (flags : OpenFlags) : Call Machine Handle := do
  let m ← get
  let file : OpenFile := { node, access := flags.access, append := flags.append, direct := flags.direct }
  set { m with files, opened := m.opened ++ [file] }
  return .file m.opened.length

/-- Opens what descriptor `n` refers to once more, as the flags ask; `node` stands for the descriptor itself. -/
def reopen (node n : Nat) (flags : OpenFlags) : Call Machine Handle := do
  let m ← get
  match m.self.descriptors.slot? n with
  | none => throw .noEntry
  | some (.file k) =>
    let some old := m.opened[k]? | throw .noEntry
    let (node, files) ← m.files.openFound old.node { flags with exclusive := false }
    register files node flags
  | some (.readEnd p) | some (.writeEnd p) =>
    if flags.directory then throw .notDirectory
    match flags.access with
    | .read => return .readEnd p
    | .write | .readWrite => return .writeEnd p
    | .neither => register m.files node flags

/-- Opens a file. -/
def openFile (path : String) (flags : OpenFlags) (permissions : Nat) : Call Machine Fd := do
  let flags := flags.effective
  let m ← get
  if m.self.descriptors.lowestFree ≥ descriptorLimit then throw .tooManyOpen
  let (node, files) ← m.files.openFile m.self.directory m.self.mask path flags permissions
  match files.node? node, flags.noFollow with
  | some (.device (.descriptor n)), false => install (← reopen node n flags)
  | _, _ => install (← register files node flags)

/-- Makes `target` refer to what `fd` refers to. -/
def dup2 (fd target : Fd) : Call Machine Unit := do
  let m ← get
  match m.handle? fd, target with
  | some h, .ofNat n =>
    if n ≥ descriptorLimit then throw .badDescriptor
    set { m with self := { m.self with descriptors := m.self.descriptors.put n h } }
  | _, _ => throw .badDescriptor

/-- Closes a descriptor. -/
def close (fd : Fd) : Call Machine Unit := do
  let m ← get
  match m.handle? fd with
  | none => throw .badDescriptor
  | some _ => set { m with self := { m.self with descriptors := m.self.descriptors.erase fd.toNat } }

/-- Makes a pipe: its read end and its write end. -/
def pipe : Call Machine (Fd × Fd) := do
  let n := (← get).pipes.length
  modify fun m => { m with pipes := m.pipes ++ [[]] }
  let readEnd ← install (.readEnd n)
  let writeEnd ← install (.writeEnd n)
  return (readEnd, writeEnd)

/-- Some task has a descriptor that refers to `h`. -/
def isHeld (m : Machine) (h : Handle) : Bool :=
  m.self.holds h || m.suspended.any (·.holds h) ||
    m.processes.any fun p => p.pid ≠ m.self.pid && p.task.holds h

/-- Some task has a file open for writing. -/
def isBeingWritten (m : Machine) (node : Nat) : Bool :=
  m.opened.zipIdx.any fun (file, k) => file.node = node && file.access.canWrite && m.isHeld (.file k)

/-- Some task can still read from a pipe. -/
def hasReader (m : Machine) (pipe : Nat) : Bool := m.isHeld (.readEnd pipe)

/-- Some task can still write to a pipe. -/
def hasWriter (m : Machine) (pipe : Nat) : Bool := m.isHeld (.writeEnd pipe)

/-- What a pipe holds. -/
def pipeContents (m : Machine) (pipe : Nat) : Bytes := (m.pipes[pipe]?).getD []

/-- How much a pipe can hold, in bytes. -/
def pipeCapacity : Nat := 65536

/-- A write of no more bytes than this is done as a whole or not at all. -/
def atomicMax : Nat := 4096

/-- The room that is left in a pipe. -/
def pipeRoom (m : Machine) (pipe : Nat) : Nat := pipeCapacity - (m.pipeContents pipe).length

/-- The process of a number. -/
def process? (m : Machine) (pid : Pid) : Option Process := m.processes.find? (·.pid = pid)

/-- The running task need not wait for an event. A pipe can be read from when it holds something or nobody can write to it, and
written to when it has room or nobody can read from it. -/
def hasHappened (m : Machine) : Event → Bool
  | .always => true
  | .readable fd =>
    match m.handle? fd with
    | some (.readEnd p) => !(m.pipeContents p).isEmpty || !m.hasWriter p
    | _ => true
  | .writable fd size =>
    match m.handle? fd with
    | some (.writeEnd p) => !m.hasReader p || (if size ≤ atomicMax then size ≤ m.pipeRoom p else 0 < m.pipeRoom p)
    | _ => true
  | .reached time => time ≤ m.clock
  | .ended child => (m.process? child).all (·.fate?.isSome)

/-- What a node gives to a reader from an offset on, at most so many bytes. -/
def readNode (files : Filesystem) (node offset limit : Nat) : Except Errno Bytes :=
  match files.node? node with
  | some (.file _ data) => .ok ((data.drop offset).take limit)
  | some (.directory _) => .error .isDirectory
  | some (.device .zero) | some (.device .full) => .ok (List.replicate limit 0)
  | _ => .ok []

/-- The size of a sector. -/
def sectorSize : Nat := 512

/-- So much data can be moved at a place of an opened file. -/
def canMove (file : OpenFile) (offset size : Nat) : Bool :=
  !file.direct || size = 0 || (offset % sectorSize = 0 && size % sectorSize = 0)

/-- Reads from a descriptor what there is, at most as many bytes as a limit says. -/
def read (fd : Fd) (limit : Nat) : Call Machine Bytes := do
  let m ← get
  match m.handle? fd with
  | none | some (.writeEnd _) => throw .badDescriptor
  | some (.readEnd p) =>
    let held := m.pipeContents p
    set { m with pipes := m.pipes.set p (held.drop limit) }
    return held.take limit
  | some (.file k) =>
    let some file := m.opened[k]? | throw .badDescriptor
    if !file.access.canRead then throw .badDescriptor
    let data ← readNode m.files file.node file.offset limit
    if !canMove file file.offset data.length then throw .invalid
    set { m with opened := m.opened.set k { file with offset := file.offset + data.length } }
    return data

/-- Writes to an opened file: at its offset, or at the end if it appends. -/
def writeFile (m : Machine) (k : Nat) (file : OpenFile) (b : Bytes) : Except Errno Machine :=
  match m.files.node? file.node with
  | some (.device .full) => if b.isEmpty then .ok m else .error .noSpace
  | some (.file _ data) =>
    let offset := if file.append then data.length else file.offset
    if !canMove file offset b.length then .error .invalid
    else .ok { m with
      files := if b.isEmpty then m.files else m.files.setContents file.node (Bytes.splice data offset b)
      opened := m.opened.set k { file with offset := offset + b.length } }
  | _ => .ok m

/-- Writes to a descriptor as much as there is room for, and says how much that was. -/
def write (fd : Fd) (b : Bytes) : Call Machine Nat := do
  let m ← get
  match m.handle? fd with
  | none | some (.readEnd _) => throw .badDescriptor
  | some (.writeEnd p) =>
    if !m.hasReader p then throw .brokenPipe
    let part := b.take (m.pipeRoom p)
    set { m with pipes := m.pipes.set p (m.pipeContents p ++ part) }
    return part.length
  | some (.file k) =>
    let some file := m.opened[k]? | throw .badDescriptor
    if !file.access.canWrite then throw .badDescriptor
    set (← m.writeFile k file b)
    return b.length

/-- Writes a text to a descriptor; that it cannot be written goes unnoticed. -/
def say (fd : Fd) (text : String) : StateM Machine Unit := do
  let _ ← (write fd (Bytes.ofString text)).run

/-- Descriptor 2. -/
def standardError : Fd := 2

/-- Changes the filesystem. -/
def changeFiles (f : Machine → Except Errno Filesystem) : Call Machine Unit := do
  let m ← get
  set { m with files := ← f m }

/-- Moves the running task to a directory. -/
def changeDirectory (path : String) : Call Machine Unit := do
  let m ← get
  let n ← m.files.find m.self.directory path
  if (m.files.directory? n).isNone then throw .notDirectory
  set { m with self := { m.self with directory := n } }

/-- The path of the directory of the running task. -/
def currentDirectory : Call Machine String := do
  let m ← get
  m.files.pathTo m.self.directory

/-- The absolute path of a file that exists. -/
def canonicalize (path : String) : Call Machine String := do
  let m ← get
  m.files.canonicalize m.self.directory path

end Machine

end PipelineShell
