import PipelineShell.Redirect

/-!
# Running a pipeline

Every stage is a process of its own; neighbours are joined by pipes. `runPipeline` launches all stages before it waits for
any, then waits for them in order. The result is that of the last stage, unless a stage is killed or stopped: then the call
fails at once and does not wait for the stages after it. A child that was launched and not collected is left to the
stragglers, which `reap` goes through later.
-/

namespace PipelineShell

/-- How long the shell waits for the processes of a pipeline. -/
inductive WaitMode where
  /-- Until every stage has ended. -/
  | block
  /-- Each stage is looked at once; one that is still running counts as a success and becomes a straggler. -/
  | poll
  deriving DecidableEq, Repr

/-- The option that goes with a mode. -/
def WaitMode.option : WaitMode → WaitOption
  | .block => .untilChange
  | .poll => .poll

/-- What the launching process sees fail. -/
inductive ExecError where
  | pipe (e : Errno)
  | fork (e : Errno)
  | close (e : Errno)
  | wait (e : Errno)
  /-- An argument of the program holds a NUL character, at this byte. -/
  | invalidArgument (program : String) (position : Nat)
  | abnormalExit (program reason : String)
  deriving DecidableEq, Repr

/-- The report of a failed call. -/
def failedCall (call : String) (e : Errno) : String := call ++ "() failed: " ++ e.message

/-- The report of a pipeline that failed. -/
def ExecError.message : ExecError → String
  | .pipe e => failedCall "pipe" e
  | .fork e => failedCall "fork" e
  | .close e => failedCall "close" e
  | .wait e => failedCall "waitpid" e
  | .invalidArgument program position =>
    "invalid argument for [" ++ program ++ "]: nul byte found in provided data at position: " ++ toString position
  | .abnormalExit program reason => "[" ++ program ++ "] " ++ reason

/-- A system call that failed in a child. -/
structure SetupFailure where
  call : String
  cause : Errno
  deriving DecidableEq, Repr

/-- The report of a failed child. -/
def SetupFailure.message (f : SetupFailure) : String := failedCall f.call f.cause

/-- The code of a child before it becomes its program. -/
abbrev Setup (σ α : Type) := ExceptT SetupFailure (StateM σ) α

/-- A call whose failure is reported under a name. -/
def during {σ α : Type} (call : String) (c : Call σ α) : Setup σ α := ExceptT.adapt (fun cause => ⟨call, cause⟩) c

/-- The two ends of a pipe between neighbours. -/
structure StagePipe where
  readEnd : Fd
  writeEnd : Fd
  deriving DecidableEq, Repr

/-- Closes both ends; the first failure is reported once both have been tried. -/
def StagePipe.close {σ : Type} (host : Host σ) (p : StagePipe) : Call σ Unit := ExceptT.mk do
  let readEnd ← (host.close p.readEnd).run
  let writeEnd ← (host.close p.writeEnd).run
  return readEnd.bind fun () => writeEnd

/-- The ends of a pipe, if there is one. -/
def StagePipe.ends : Option StagePipe → List Fd
  | none => []
  | some p => [p.readEnd, p.writeEnd]

/-- Closes descriptors that are given up, one after the other. It does not matter whether they can be closed. -/
def abandon {σ : Type} (host : Host σ) (held : List Fd) : StateM σ Unit :=
  held.forM fun fd => do let _ ← (host.close fd).run

/-- Runs a part of a setup that holds descriptors. It gives them up if it fails. -/
def holding {σ : Type} (host : Host σ) (held : List Fd) (c : Setup σ Unit) : Setup σ Unit := ExceptT.mk do
  match ← c.run with
  | .ok () => return .ok ()
  | .error failure =>
    abandon host held
    return .error failure

/-- What a child needs to become a stage. -/
structure Stage where
  pipeline : Pipeline
  index : Nat
  argv : List String
  /-- The pipe from the stage before. -/
  inlet : Option StagePipe
  /-- The pipe to the stage after. -/
  outlet : Option StagePipe
  deriving DecidableEq, Repr

namespace Stage

/-- The input file of the stage: only the first has one. -/
def input? (s : Stage) : Option String := if s.index = 0 then s.pipeline.input else none

/-- The output file of the stage: only the last has one. -/
def output? (s : Stage) : Option OutputTarget :=
  if s.index + 1 = s.pipeline.commands.length then s.pipeline.output else none

/-- Moves a pipe end onto a standard descriptor; the descriptor that it had is closed. -/
def moveOnto {σ : Type} (host : Host σ) (fd target : Fd) : Setup σ Unit := do
  holding host [fd] (during "dup2" (host.dup2 fd target))
  during "close" (host.close fd)

/-- Takes one end of a pipe as a standard descriptor, and closes the other. The end that is taken is held until it has been moved. -/
def takeEnd {σ : Type} (host : Host σ) (unused taken target : Fd) : Setup σ Unit := do
  holding host [taken] (during "close" (host.close unused))
  moveOnto host taken target

/-- Rewires the standard descriptors: the input file, the pipe to the stage after, the output file, the pipe from the stage
before, each where there is one. The pipes are held until it is their turn. -/
def setup {σ : Type} (host : Host σ) (s : Stage) : Setup σ Unit := do
  let inlet := StagePipe.ends s.inlet
  if let some path := s.input? then
    holding host (inlet ++ StagePipe.ends s.outlet) (during "redirect_input" (Redirect.input host path))
  if let some p := s.outlet then
    holding host inlet (takeEnd host p.readEnd p.writeEnd standardOutput)
  if let some target := s.output? then
    holding host inlet (during "redirect_output" (Redirect.output host target.path target.mode))
  if let some p := s.inlet then
    takeEnd host p.writeEnd p.readEnd standardInput

/-- The child's side of the fork: it becomes its program, or gives up the pipe ends it holds, reports the first call that failed
and ends with status 1. -/
def start {σ : Type} (host : Host σ) (s : Stage) : StateM σ Departure := do
  let outcome ← (do s.setup host; during "execvp" (host.exec s.argv) : Setup σ Unit).run
  match outcome with
  | .ok () => return .replaced
  | .error failure =>
    host.complain failure.message
    return .exited 1

end Stage

/-- The byte position of the first NUL character. -/
def nulPosition? (text : List Char) : Option Nat :=
  match text with
  | [] => none
  | c :: rest => if c = Char.ofNat 0 then some 0 else (nulPosition? rest).map (c.utf8Size + ·)

/-- The first argument of a command that cannot be passed on, as an error. -/
def Command.invalid? (c : Command) : Option ExecError :=
  (c.argv.findSome? fun arg => nulPosition? arg.toList).map (.invalidArgument c.name)

/-- What a launch came to: the children started, in stage order, and the call that stopped it, if one did. -/
structure Launch where
  children : List Pid
  failure : Option ExecError
  deriving DecidableEq, Repr

/-- A launch with one more child in front. -/
def Launch.cons (child : Pid) (l : Launch) : Launch := { l with children := child :: l.children }

/-- Starts the stages from `index` on. A failing call stops the launch, and the pipes held then are closed; the children
started before are left alone. -/
def launchFrom {σ : Type} (host : Host σ) (pipeline : Pipeline) (index : Nat) (inlet : Option StagePipe) :
    List (List String) → StateM σ Launch
  | [] => return ⟨[], none⟩
  | argv :: rest => do
    let opened ← if rest.isEmpty then pure (.ok none) else
      (return (← host.pipe.run).map fun ends => some (⟨ends.1, ends.2⟩ : StagePipe))
    match opened with
    | .error e =>
      abandon host (StagePipe.ends inlet)
      return ⟨[], some (.pipe e)⟩
    | .ok outlet =>
      match ← (host.fork (Stage.start host ⟨pipeline, index, argv, inlet, outlet⟩)).run with
      | .error e =>
        abandon host (StagePipe.ends outlet)
        abandon host (StagePipe.ends inlet)
        return ⟨[], some (.fork e)⟩
      | .ok child =>
        let closed ← match inlet with
          | none => pure (.ok ())
          | some p => (p.close host).run
        match closed with
        | .error e =>
          abandon host (StagePipe.ends outlet)
          return ⟨[child], some (.close e)⟩
        | .ok () => return (← launchFrom host pipeline (index + 1) outlet rest).cons child

/-- Starts every stage of a pipeline. -/
def launch {σ : Type} (host : Host σ) (pipeline : Pipeline) : StateM σ Launch :=
  launchFrom host pipeline 0 none (pipeline.commands.map Command.argv)

/-- Says how a child ended that neither exited nor is running. -/
def describe (child : Pid) : WaitStatus → String
  | .killed signal dumpedCore =>
    "killed by " ++ signal.name?.getD "" ++ (if dumpedCore then " (core dumped)" else "")
  | .stopped signal => "stopped by " ++ signal.name?.getD ""
  | .continued => "ended unexpectedly: Continued(Pid(" ++ toString child ++ "))"
  | .exited code => "ended unexpectedly: Exited(Pid(" ++ toString child ++ "), " ++ toString code ++ ")"
  | .stillAlive => "ended unexpectedly: StillAlive"

/-- Children launched and not collected, oldest first. -/
abbrev Stragglers := List Pid

namespace Stragglers

/-- Collects every straggler that has ended, without waiting; those still running are kept in their order. -/
def reap {σ : Type} (host : Host σ) : Stragglers → StateM σ Stragglers
  | [] => return []
  | pid :: rest => do
    match ← (host.wait pid .poll).run with
    | .ok .stillAlive => return pid :: (← reap host rest)
    | _ => reap host rest

end Stragglers

/-- What running a pipeline came to, with the stragglers there are afterwards. -/
structure PipelineResult where
  outcome : Except ExecError ExitCode
  stragglers : Stragglers

/-- Waits for children in order. `code` is the result so far. -/
def collect {σ : Type} (host : Host σ) (mode : WaitMode) (stragglers : Stragglers) (code : ExitCode) :
    List (Pid × Command) → StateM σ PipelineResult
  | [] => return ⟨.ok code, stragglers⟩
  | (child, command) :: pending => do
    match ← (host.wait child mode.option).run with
    | .error e => return ⟨.error (.wait e), stragglers ++ pending.map Prod.fst⟩
    | .ok (.exited code) => collect host mode stragglers code pending
    | .ok .stillAlive => collect host mode (stragglers ++ [child]) 0 pending
    | .ok status =>
      return ⟨.error (.abnormalExit command.name (describe child status)), stragglers ++ pending.map Prod.fst⟩

/-- Runs every command of a pipeline as its own process. An argument that cannot be passed on is found before anything is
started. -/
def runPipeline {σ : Type} (host : Host σ) (mode : WaitMode) (pipeline : Pipeline) (stragglers : Stragglers) :
    StateM σ PipelineResult :=
  match pipeline.commands.findSome? Command.invalid? with
  | some e => return ⟨.error e, stragglers⟩
  | none => do
    let launched ← launch host pipeline
    match launched.failure with
    | some e => return ⟨.error e, stragglers ++ launched.children⟩
    | none => collect host mode stragglers 0 (launched.children.zip pipeline.commands)

end PipelineShell
