import PipelineShell.Machine.Basic

/-!
# Starting and ending processes, and signals

A process that has ended gives up its descriptors and stays until its parent collects it. Its own children then have no parent,
and one that has none is forgotten as soon as it ends.
-/

namespace PipelineShell

namespace Machine

/-- Changes a process. -/
def modifyProcess (m : Machine) (pid : Pid) (f : Process → Process) : Machine :=
  { m with processes := m.processes.map fun p => if p.pid = pid then f p else p }

/-- Adds a process with a copy of a task under a number of its own. -/
def addProcess (m : Machine) (task : Task) : Pid × Machine :=
  let pid := m.nextPid
  (pid, { m with
    nextPid := pid + 1
    processes := m.processes ++ [{ task := { task with pid }, parent := task.pid }] })

/-- Notes how a process ended. -/
def conclude (m : Machine) (pid : Pid) (fate : Fate) : Machine :=
  let ended (p : Process) : Process := { p with state := .ended fate, task := { p.task with descriptors := {} } }
  let processes := m.processes.map fun p =>
    if p.pid = pid then ended p else if p.parent = pid then { p with parent := 0 } else p
  { m with processes := processes.filter fun p => !p.isForgotten }

/-- Forgets a process that has been collected. -/
def forget (m : Machine) (pid : Pid) : Machine := { m with processes := m.processes.filter (·.pid ≠ pid) }

/-- Does to a process what a signal does: all processes ignore the one for broken pipes. A stopped process is ended by the signal
to kill at once, and by another one when it goes on. -/
def deliver (m : Machine) (p : Process) (s : Signal) : Machine :=
  match p.state, s.effect with
  | .ended _, _ | _, .ignore => m
  | .running, .stop => m.modifyProcess p.pid fun p => { p with state := .stopped s }
  | .stopped _, .stop | .running, .resume => m
  | .stopped _, .resume =>
    match p.pending with
    | none => m.modifyProcess p.pid fun p => { p with state := .running }
    | some lethal => m.conclude p.pid (.killed lethal)
  | .running, .terminate => m.conclude p.pid (.killed s)
  | .stopped _, .terminate =>
    if s.isKill then m.conclude p.pid (.killed s)
    else m.modifyProcess p.pid fun p => { p with pending := p.pending.or s }

/-- Sends a signal to a process, if there is one of that number. -/
def signal (pid : Pid) (s : Signal) : StateM Machine Bool := do
  let m ← get
  match m.process? pid with
  | none => return false
  | some p =>
    set (m.deliver p s)
    return true

/-- Collects a child that has ended. -/
def collect (child : Pid) : StateM Machine (Option Fate) := do
  let m ← get
  match (m.process? child).bind Process.fate? with
  | none => return none
  | some fate =>
    set (m.forget child)
    return fate

end Machine

end PipelineShell
