import PipelineShell.Builtin.Standard
import PipelineShell.Executor
import PipelineShell.Line.Edit
import PipelineShell.Line.Scan

/-!
# A session

A `Shell` reads lines into statements and runs them one by one. A statement of a single command is offered to the table of
builtins first; everything else is run as a pipeline. `executeLine` runs one line and `readEvalLoop` the lines of standard
input, until they end or a builtin asks to leave.
-/

namespace PipelineShell

/-- The state of a session, apart from its host. -/
structure Shell (σ : Type) where
  env : Environment
  builtins : List (Builtin σ)
  limits : Limits := {}
  wait : WaitMode := .block
  stragglers : Stragglers := []

/-- A session on its host. -/
structure Session (σ : Type) where
  shell : Shell σ
  host : σ

/-- The code of a session. -/
abbrev ShellM (σ α : Type) := StateM (Session σ) α

/-- What came of offering a command to the builtins. -/
inductive Dispatch where
  | ranAsBuiltin (code : ExitCode)
  | notABuiltin
  deriving DecidableEq, Repr

namespace Shell

variable {σ α : Type}

/-- A shell in the present environment of the host. -/
def new (host : Host σ) (builtins : List (Builtin σ)) (limits : Limits) (wait : WaitMode) : StateM σ (Shell σ) := do
  return { env := ← Environment.capture host, builtins, limits, wait }

/-- Acts on the host. -/
def onHost (action : StateM σ α) : ShellM σ α := fun session =>
  let (value, host) := action session.host
  (value, { session with host })

/-- Changes the shell. -/
def modifyShell (f : Shell σ → Shell σ) : ShellM σ Unit :=
  modify fun session => { session with shell := f session.shell }

/-- Some builtin asked to leave. -/
def shouldExit : ShellM σ Bool := do return (← get).shell.env.shouldExit

/-- The first builtin of the table that recognises a command. -/
def findBuiltin? (builtins : List (Builtin σ)) (c : Command) : Option (BuiltinM σ ExitCode) :=
  builtins.findSome? fun b => b.create? c.name c.args

/-- Runs a builtin on the session. -/
def runBuiltin (code : BuiltinM σ ExitCode) (writer : Writer σ) : ShellM σ (Except Failure ExitCode × Writer σ) :=
  fun session =>
    let (outcome, state) := code.run { env := session.shell.env, writer, host := session.host }
    ((outcome, state.writer),
      { shell := { session.shell with env := state.env }, host := state.host })

/-- Offers a command to the builtins. What the builtin writes goes to the writer; its failure is reported, with status 1. -/
def tryBuiltin (host : Host σ) (c : Command) (writer : Writer σ) : ShellM σ (Dispatch × Writer σ) := do
  match findBuiltin? (← get).shell.builtins c with
  | none => return (.notABuiltin, writer)
  | some code =>
    let (outcome, writer) ← runBuiltin code writer
    match outcome with
    | .ok code => return (.ranAsBuiltin code, writer)
    | .error failure =>
      onHost (host.complain (c.name ++ ": " ++ failure.message))
      return (.ranAsBuiltin 1, writer)

/-- Runs a pipeline as processes; a failure is reported, with status 1. -/
def runProcesses (host : Host σ) (pipeline : Pipeline) : ShellM σ ExitCode := do
  let shell := (← get).shell
  let result ← onHost (runPipeline host shell.wait pipeline shell.stragglers)
  modifyShell fun shell => { shell with stragglers := result.stragglers }
  match result.outcome with
  | .ok code => return code
  | .error e =>
    onHost (host.complain e.message)
    return 1

/-- Runs a pipeline: as a builtin on standard output, whose redirections then mean nothing, or else as processes. -/
def runReady (host : Host σ) (pipeline : Pipeline) : ShellM σ ExitCode := do
  match pipeline.single? with
  | none => runProcesses host pipeline
  | some c =>
    match ← tryBuiltin host c (.stream host.print) with
    | (.ranAsBuiltin code, _) => return code
    | (.notABuiltin, _) => runProcesses host pipeline

/-- Runs a statement; one that broke a limit is reported, with status 1. -/
def runStatement (host : Host σ) : Statement → ShellM σ ExitCode
  | .ready pipeline => runReady host pipeline
  | .discarded e => do
    onHost (host.complain e.message)
    return 1

/-- Runs statements in order, up to the one after which the session is to end. `status` is the result so far. -/
def runStatements (host : Host σ) (status : ExitCode) : List Statement → ShellM σ ExitCode
  | [] => return status
  | statement :: rest => do
    let status ← runStatement host statement
    if ← shouldExit then return status
    runStatements host status rest

/-- Goes through the stragglers. -/
def reap (host : Host σ) : ShellM σ Unit := do
  let stragglers ← onHost (Stragglers.reap host (← get).shell.stragglers)
  modifyShell fun shell => { shell with stragglers }

/-- A line without the line breaks at its end. -/
def trimLine (line : String) : String :=
  String.ofList (line.toList.reverse.dropWhile fun c => c = '\n' ∨ c = '\r').reverse

/-- Runs one line and returns the status of the last statement run. -/
def executeLine (host : Host σ) (line : String) : ShellM σ ExitCode := do
  reap host
  match parseLine (← get).shell.limits (trimLine line) with
  | .error e =>
    onHost (host.complain e.message)
    return 1
  | .ok statements => runStatements host 0 statements

/-- The prompt that a line is asked for with. -/
def prompt (shell : Shell σ) : String :=
  "\x1b[0;33m" ++ Builtin.programName ++ "\x1b[0m@\x1b[0;35m" ++ shell.env.currentDirectory ++ "\x1b[0m$ "

/-- Asks for lines and runs them in order, until there are no more or the session is to end, and asks at most so many times. After an
interruption it asks again. `status` is the result so far. -/
def runLines (host : Host σ) : Nat → ExitCode → ShellM σ (Except InputError ExitCode)
  | 0, status => return .ok status
  | asks + 1, status => do
    if ← shouldExit then return .ok status
    match ← onHost (host.readLine (prompt (← get).shell)) with
    | .ok (some line) => runLines host asks (← executeLine host (Line.ofInput line))
    | .error .interrupted => runLines host asks status
    | .ok none => return .ok status
    | .error e => return .error e

/-- Runs the lines of standard input. Returns the status asked to leave with, or else that of the last line. -/
def readEvalLoop (host : Host σ) : ShellM σ (Except InputError ExitCode) := do
  let result ← runLines host ((← onHost host.lineBound) + 1) 0
  let shell := (← get).shell
  return result.map shell.env.exitRequested.getD

end Shell

end PipelineShell
