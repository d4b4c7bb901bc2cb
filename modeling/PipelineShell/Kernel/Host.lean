import PipelineShell.Kernel.Basic

/-!
# The kernel as a host

A child starts by running its setup at once, on a copy of the shell's task; if that turns it into a program, the program has its
turns while the shell waits for a child, or the kernel is told to settle.

The shell reads its standard input in large parts. A child that reads the same file finds there what the shell has not read yet.
-/

namespace PipelineShell

namespace Kernel

/-- Starts a child that first runs the given code. -/
def fork (code : StateM Kernel Departure) : Call Kernel Pid := do
  let (pid, machine) := (← get).machine.addProcess (← get).machine.self
  modify fun s => { s with machine := machine.enter { machine.self with pid } }
  let departure ← (code : StateM Kernel Departure)
  modify fun s =>
    let image? := s.machine.self.image
    let s := { s with machine := s.machine.leave }
    match departure, image? with
    | .exited status, _ => { s with machine := s.machine.conclude pid (.exited status) }
    | .replaced, none => s
    | .replaced, some image => { s with programs := s.programs ++ [(pid, image.code Image.nestingMax)] }
  return pid

/-- Forgets a child that has been collected. -/
def forget (pid : Pid) : StateM Kernel Unit := onMachine (modify (·.forget pid))

/-- What is known of a child now. A child that was killed by a signal without a name is collected, but the call fails. -/
def report (pid : Pid) (option : WaitOption) : Call Kernel WaitStatus := do
  let some p := (← get).machine.process? pid | throw .noChild
  match p.state, option with
  | .running, _ | .stopped _, .poll => return .stillAlive
  | .stopped signal, .untilChange => return .stopped signal
  | .ended (.exited status), _ =>
    forget pid
    return .exited status
  | .ended (.killed signal), _ =>
    forget pid
    if signal.name?.isSome then return .killed signal false else throw .invalid

/-- Waits for a child. -/
def wait (pid : Pid) (option : WaitOption) : Call Kernel WaitStatus := do
  if option = .untilChange then
    modify (runUntil (fun m => (m.process? pid).all (·.state ≠ .running)) Program.turnMax)
  report pid option

/-- How many bytes the shell reads at once. -/
def bufferSize : Nat := 8192

/-- How many bytes can still be read from standard input. -/
def inputSize (m : Machine) : Nat :=
  match m.handle? standardInput with
  | some (.file k) => ((m.opened[k]?).bind fun file =>
    (m.files.contents? file.node).map fun data => data.length - file.offset).getD 0
  | some (.readEnd p) => (m.pipeContents p).length
  | _ => 0

/-- Reads parts of standard input, at most so many, until there is all of a line. A descriptor that is closed has nothing to
give. -/
def fill : Nat → StateM Kernel Unit
  | 0 => return ()
  | parts + 1 => do
    if (← get).unread.contains Bytes.newline then return ()
    match ← (call (Machine.read standardInput bufferSize)).run with
    | .error _ | .ok [] => return ()
    | .ok data =>
      modify fun s => { s with unread := s.unread ++ data }
      fill parts

/-- Writes to standard output. What is written to a descriptor that is not open for it is lost. -/
def print (text : String) : Call Kernel Unit := ExceptT.mk do
  match ← (call (Machine.write standardOutput (Bytes.ofString text))).run with
  | .ok _ | .error .badDescriptor => return .ok ()
  | .error e => return .error e

/-- Terminals on which a line cannot be edited. -/
def plainTerminals : List String := ["dumb", "cons25", "emacs"]

/-- The environment names a terminal on which a line cannot be edited. A prompt is then written whatever standard input is. -/
def hasPlainTerminal (environment : Bindings) : Bool :=
  (environment.get? "TERM").any fun name => plainTerminals.contains name.toLower

/-- The next line of standard input, with its end. -/
def nextLine : StateM Kernel (Except InputError (Option String)) := do
  fill (inputSize (← get).machine + 1)
  let unread := (← get).unread
  let length := (unread.takeWhile (· ≠ Bytes.newline)).length + 1
  modify fun s => { s with unread := unread.drop length }
  if unread.isEmpty then return .ok none
  match Bytes.toString? (unread.take length) with
  | some line => return .ok line
  | none => return .error .notText

/-- Asks for a line. Standard input is no terminal, so the prompt is written only where lines cannot be edited. -/
def readLine (prompt : String) : StateM Kernel (Except InputError (Option String)) := do
  if hasPlainTerminal (← get).machine.self.environment then
    if let .error e ← (print prompt).run then return .error (.failed e)
  nextLine

/-- The kernel as a host of a shell. -/
def host : Host Kernel where
  openFile path flags permissions := call (Machine.openFile path flags permissions)
  dup2 fd target := call (Machine.dup2 fd target)
  close fd := call (Machine.close fd)
  pipe := call Machine.pipe
  fork := fork
  exec argv := call (Machine.exec argv)
  wait := wait
  complain text := onMachine (Machine.say Machine.standardError (text ++ "\n"))
  print := print
  canonicalize path := call (Machine.canonicalize path)
  changeDirectory path := call (Machine.changeDirectory path)
  currentDirectory := call Machine.currentDirectory
  environment := do return (← get).machine.self.environment
  readLine := readLine
  lineBound := do return inputSize (← get).machine + (← get).unread.length

end Kernel

end PipelineShell
