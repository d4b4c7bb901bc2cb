import PipelineShell.Script.Run

/-!
# Processes taking turns

A `Kernel` holds a machine and the code that each of its processes has still to run. A process goes on until it has to wait; then
it is the turn of the first one started of those that need not. The clock goes on only when nobody has a turn, and then to the
next time that somebody waits for; so what a process does takes no time, and one that waits for a time is overtaken by all others.
-/

namespace PipelineShell

namespace Image

/-- How deep programs may start programs. -/
def nestingMax : Nat := 100

/-- The code of an image; `depth` is how deep it may start others. -/
def code : Nat → Image → Code
  | 0, _ => .finished (.exited 126)
  | depth + 1, image =>
    if image.program = "sh" then (Script.run (code depth) image.argv).toCode
    else match Utility.find? (code depth) image.program with
      | some program => (program.run image.argv).toCode
      | none => .finished (.exited 127)

end Image

namespace Machine

/-- Hands the machine over to a process: its task is the one that runs. -/
def enter (m : Machine) (task : Task) : Machine := { m with self := task, suspended := some m.self }

/-- Hands the machine back to the shell, and keeps what the process has made of its task unless it has ended meanwhile. -/
def leave (m : Machine) : Machine :=
  match m.suspended with
  | none => m
  | some shell =>
    let kept := m.modifyProcess m.self.pid fun p => if p.fate?.isSome then p else { p with task := m.self }
    { kept with self := shell, suspended := none }

/-- Processes of this parent are running. -/
def hasRunningChild (m : Machine) (parent : Pid) : Bool :=
  m.processes.any fun p => p.parent = parent && p.state = .running

end Machine

namespace Code

/-- Code need not wait. -/
def isReady (m : Machine) (task : Task) : Code → Bool
  | act event _ => (m.enter task).hasHappened event
  | _ => true

/-- The time that code waits for. -/
def time? : Code → Option Nat
  | act (.reached time) _ => some time
  | _ => none

end Code

/-- A machine and the code its processes have still to run. -/
structure Kernel where
  machine : Machine
  /-- The processes with their code, those started first in front. -/
  programs : List (Pid × Code) := []
  /-- The process that acted last. -/
  last? : Option Pid := none
  /-- What the shell has read of its standard input and not used yet. -/
  unread : Bytes := []

namespace Kernel

/-- Acts on the machine. -/
def onMachine {α : Type} (action : StateM Machine α) : StateM Kernel α := fun s =>
  let (value, machine) := action s.machine
  (value, { s with machine })

/-- A call on the machine. -/
def call {α : Type} (c : Call Machine α) : Call Kernel α := ExceptT.mk (onMachine c.run)

/-- The process of a number, if it is running. -/
def running? (s : Kernel) (pid : Pid) : Option Process := (s.machine.process? pid).filter (·.state = .running)

/-- The process of some code, if it is running and need not wait. -/
def ready? (s : Kernel) (pid : Pid) (code : Code) : Option (Process × Code) :=
  (s.running? pid).bind fun p => if code.isReady s.machine p.task then some (p, code) else none

/-- The process whose turn it is, with its code. -/
def next? (s : Kernel) : Option (Process × Code) :=
  let lasting? := s.last?.bind fun pid => (s.programs.lookup pid).bind (s.ready? pid)
  lasting?.or (s.programs.findSome? fun (pid, code) => s.ready? pid code)

/-- Changes the code of a process. -/
def continueWith (s : Kernel) (pid : Pid) (code : Code) : Kernel :=
  { s with programs := s.programs.map fun entry => if entry.1 = pid then (pid, code) else entry }

/-- Gives up the code of processes that have ended. -/
def discard (s : Kernel) : Kernel :=
  { s with programs := s.programs.filter fun entry => (s.machine.process? entry.1).any (·.fate?.isNone) }

/-- Lets a process act once. -/
def turn (s : Kernel) (p : Process) : Code → Kernel
  | .finished fate => { s with machine := s.machine.conclude p.pid fate }.discard
  | .fork child next =>
    let (pid, machine) := s.machine.addProcess p.task
    let s := { s with machine }.continueWith p.pid (next pid)
    { s with programs := s.programs ++ [(pid, child)] }
  | .act _ step =>
    let (code, machine) := step (s.machine.enter p.task)
    ({ s with machine := machine.leave }.continueWith p.pid code).discard

/-- The next time that a running process waits for. -/
def nextTime? (s : Kernel) : Option Nat :=
  (s.programs.filterMap fun (pid, code) => (s.running? pid).bind fun _ => code.time?).min?

/-- Lets processes act until none of them has a turn, and then lets time pass, until what is waited for has come. -/
def runUntil (done : Machine → Bool) : Nat → Kernel → Kernel
  | 0, s => s
  | turns + 1, s =>
    match s.next? with
    | some (p, code) => runUntil done turns { s.turn p code with last? := some p.pid }
    | none =>
      if done s.machine then s
      else match s.nextTime? with
        | some clock => runUntil done turns { s with machine := { s.machine with clock } }
        | none => s

/-- Lets time pass until no child of the shell is running. -/
def settle : StateM Kernel Unit :=
  modify (runUntil (fun m => !m.hasRunningChild m.self.pid) Program.turnMax)

end Kernel

end PipelineShell
