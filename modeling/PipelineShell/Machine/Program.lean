import PipelineShell.Machine.Process

/-!
# Programs

The `Code` of a process is the tree of what it does: it acts on the machine, perhaps after waiting for an event, starts another
process, or ends. A `Program α` is code that goes on with a value; programs are put together as a monad. Every path through code
is finite, so a loop is bounded by a number of turns.
-/

namespace PipelineShell

/-- What a process does until its end. -/
inductive Code where
  | finished (fate : Fate)
  /-- Waits for the event, then acts on the machine and goes on. -/
  | act (event : Event) (step : Machine → Code × Machine)
  /-- Starts a process that runs the child's code on a copy of the task, and goes on with its number. -/
  | fork (child : Code) (next : Pid → Code)

/-- Code that goes on with a value. -/
def Program (α : Type) : Type := (α → Code) → Code

namespace Program

variable {α β : Type}

instance : Monad Program where
  pure a := fun next => next a
  bind p f := fun next => p fun a => f a next

/-- Acts on the machine once an event has happened. -/
def after (event : Event) (action : StateM Machine α) : Program α := fun next =>
  .act event fun m =>
    let (a, m) := action m
    (next a, m)

instance : MonadLift (StateM Machine) Program := ⟨after .always⟩

/-- The machine as it is. -/
def machine : Program Machine := after .always get

/-- Ends the process. -/
def finish (fate : Fate) : Program α := fun _ => .finished fate

/-- Goes on with other code. -/
def become (code : Code) : Program α := fun _ => code

/-- Starts a process. -/
def fork (child : Code) : Program Pid := fun next => .fork child next

/-- The code that runs a program and ends with a status. -/
def toCode (p : Program Nat) : Code := p fun status => .finished (.exited status)

/-- Waits for the end of a child and collects it. -/
def await (child : Pid) : Program (Option Fate) := after (.ended child) (Machine.collect child)

/-- Lets some nanoseconds pass. -/
def pause (time : Nat) : Program Unit := do
  let m ← machine
  after (.reached (m.clock + time)) (pure ())

/-- How often a loop is repeated at most. -/
def turnMax : Nat := 1000000000000

/-- Reads what there is, at most so many bytes. Where there is nothing yet, it waits; nothing is read at the end only. -/
def read (fd : Fd) (limit : Nat) : Program (Except Errno Bytes) := after (.readable fd) (Machine.read fd limit).run

/-- How many bytes are read at once. -/
def chunkSize : Nat := 131072

/-- Reads to the end, at most so many times; `before` is what has been read, the last part first. -/
def readOn (fd : Fd) : Nat → List Bytes → Program (Except Errno Bytes)
  | 0, before => return .ok before.reverse.flatten
  | turns + 1, before => do
    match ← read fd chunkSize with
    | .error e => return .error e
    | .ok [] => return .ok before.reverse.flatten
    | .ok data => readOn fd turns (data :: before)

/-- Reads to the end. -/
def readAll (fd : Fd) : Program (Except Errno Bytes) := readOn fd turnMax []

/-- Writes on, at most so many times. -/
def writeOn (fd : Fd) : Nat → Bytes → Program (Except Errno Unit)
  | 0, _ => return .ok ()
  | turns + 1, b => do
    match ← after (.writable fd b.length) (Machine.write fd b).run with
    | .error e => return .error e
    | .ok n => if b.length ≤ n then return .ok () else writeOn fd turns (b.drop n)

/-- Writes everything, waiting for room where there is none. -/
def write (fd : Fd) (b : Bytes) : Program (Except Errno Unit) :=
  if b.isEmpty then return .ok () else writeOn fd (b.length + 1) b

/-- Writes a text; that it cannot be written goes unnoticed. -/
def say (fd : Fd) (text : String) : Program Unit := do
  let _ ← write fd (Bytes.ofString text)

end Program

end PipelineShell
