import PipelineShell.Script.Builtin

/-!
# Running scripts

The stages of a pipeline, and jobs in the background, are processes of their own. A process that is there for one command only
becomes the program of that command.
-/

namespace PipelineShell

namespace Script

/-- Runs a command that is no builtin. `replaces` says that the process is there for it only. -/
def runProgram (launch : Image → Code) (replaces : Bool) (argv : List String) : ScriptM Nat := do
  if replaces then become launch true argv else await (← fork (become launch true argv))

/-- Runs a command under its redirections, which last only as long as it runs; those of `exec` remain. -/
def runCommand (launch : Image → Code) (replaces : Bool) (c : ScriptCommand) : ScriptM Nat := do
  modify fun state => { state with line := c.line }
  let fields ← expandAll c.words
  let before ← task
  let restore : ScriptM Unit :=
    Machine.modifySelf fun t => { t with descriptors := before.descriptors, aside := before.aside }
  if fields.head? ≠ some "exec" ∧ !c.redirections.isEmpty then Machine.modifySelf Task.setAside
  if !(← redirectAll c.redirections) then
    if fields.head?.any specialBuiltins.contains then finish (.exited 2)
    restore
    return 2
  let status ← match fields with
    | [] => do
      bindAll assign c.assignments
      pure 0
    | name :: args =>
      let code := (builtin? launch name args).getD (runProgram launch replaces (name :: args))
      if specialBuiltins.contains name ∧ (name ≠ "exec" ∨ args = []) then
        bindAll assign c.assignments
        code
      else withVariables c.assignments code
  if fields ≠ ["exec"] then restore
  return status

/-- Moves a pipe end of a new process to a standard descriptor. One that took the place of a closed descriptor stays there. -/
def wire (fd target : Fd) : ScriptM Unit := do
  if fd > target then
    let _ ← (Machine.dup2 fd target).run
    let _ ← (Machine.close fd).run

/-- Starts the stages of a pipeline, of which the first reads from `inlet?`, if that is a descriptor. -/
def startStages (launch : Image → Code) (inlet? : Option Fd) : List ScriptCommand → ScriptM (List Pid)
  | [] => return []
  | c :: rest => do
    let outlet? ← if rest.isEmpty then pure none else
      match ← Machine.pipe.run with
      | .ok ends => pure (some ends)
      | .error _ => do
        complain "Pipe call failed"
        finish (.exited 2)
    let child ← fork do
      if let some (readEnd, writeEnd) := outlet? then
        let _ ← (Machine.close readEnd).run
        wire writeEnd standardOutput
      if let some fd := inlet? then wire fd standardInput
      runCommand launch true c
    if let some fd := inlet? then
      let _ ← (Machine.close fd).run
    if let some (_, writeEnd) := outlet? then
      let _ ← (Machine.close writeEnd).run
    return child :: (← startStages launch (outlet?.map Prod.fst) rest)

/-- Runs the stages of a pipeline to their ends; the status is that of the last one. -/
def runStages (launch : Image → Code) (replaces : Bool) (stages : List ScriptCommand) : ScriptM Nat := do
  match stages with
  | [c] => runCommand launch replaces c
  | stages =>
    let statuses ← (← startStages launch none stages).mapM await
    return (statuses.getLast?).getD 0

/-- Runs the steps of a job that are due. -/
def runSteps (launch : Image → Code) (replaces : Bool) : List Step → ScriptM Unit
  | [] => return ()
  | step :: rest => do
    let succeeded := (← get).status = 0
    let due := match step.condition with
      | .always => true
      | .afterSuccess => succeeded
      | .afterFailure => !succeeded
    if due then
      let status ← runStages launch (replaces && rest.isEmpty && !step.negated) step.stages
      modify fun state =>
        { state with status := if !step.negated then status else if status = 0 then 1 else 0 }
      if status ≠ 0 ∧ !step.negated ∧ rest.isEmpty ∧ (← get).endsOnFailure then finish (.exited status)
    runSteps launch replaces rest

/-- Runs a job, or starts it in the background, where it has nothing to read. -/
def runJob (launch : Image → Code) (job : Job) : ScriptM Unit := do
  if job.inBackground then
    let child ← fork do
      let _ ← (Machine.close standardInput).run
      let _ ← (Machine.openFile "/dev/null" { access := .read } 0).run
      runSteps launch true job.steps
      return (← get).status
    modify fun state => { state with status := 0, background? := some child, children := state.children ++ [child] }
  else runSteps launch false job.steps

/-- The path of the working directory: the one in the environment, if it leads there, or else the one without links. -/
def workingPath (m : Machine) : Except Errno String :=
  match m.self.environment.get? "PWD" with
  | some path =>
    if Filesystem.isAbsolute path ∧ (m.files.find m.self.directory path).toOption = some m.self.directory then .ok path
    else m.files.pathTo m.self.directory
  | none => m.files.pathTo m.self.directory

/-- Notes the working directory; one that has lost its name is complained of. -/
def noteDirectory (name : String) : ScriptM Unit := do
  let directory ← match workingPath (← Program.machine) with
    | .ok path => pure path
    | .error e => do
      perform (Program.say Machine.standardError (name ++ ": 0: getcwd() failed: " ++ e.systemText ++ "\n"))
      pure ""
  modify fun state => { state with directory }
  exportVariable "PWD" (some directory)

/-- Runs the text of a script to its end. `name` is that of the interpreter. -/
def runText (launch : Image → Code) (name : String) (start : Interpreter) (text : String) : Program Nat := do
  let code : ScriptM Nat := do
    noteDirectory name
    let environment := (← task).environment
    let locals := initialVariables.filter fun entry => entry.1 = "IFS" || (environment.get? entry.1).isNone
    modify fun state => { state with locals }
    let (jobs, fault?) := read text
    jobs.forM (runJob launch)
    match fault? with
    | none => return (← get).status
    | some fault =>
      modify fun state => { state with line := fault.line }
      complain fault.error.message
      return 2
  let (status, _) ← code.run { start with pid := (← Program.machine).self.pid }
  return status

/-- Where the interpreter finds a script, and how it runs it. -/
structure Invocation where
  /-- The first operand is the script itself. -/
  operandIsText : Bool := false
  /-- The script is read from standard input, whatever operands there are. -/
  readsInput : Bool := false
  endsOnFailure : Bool := false
  deriving DecidableEq, Repr

/-- Reads the letters of an option; the answer is the first that is none. -/
def Invocation.read (i : Invocation) : List Char → Except Char Invocation
  | [] => .ok i
  | 'c' :: rest => { i with operandIsText := true }.read rest
  | 'e' :: rest => { i with endsOnFailure := true }.read rest
  | 's' :: rest => { i with readsInput := true }.read rest
  | c :: _ => .error c

/-- Reads the options in front of the operands. One or two dashes alone end them. -/
def Invocation.readAll (i : Invocation) : List String → Except Char (Invocation × List String)
  | [] => .ok (i, [])
  | arg :: rest =>
    match arg.toList with
    | ['-'] | ['-', '-'] => .ok (i, rest)
    | '-' :: letters => do (← i.read letters).readAll rest
    | _ => .ok (i, arg :: rest)

/-- The interpreter as a program: `-c` says that the first operand is the script itself; otherwise it is the name of the file
that holds it, and without operands the script is what standard input holds. -/
def run (launch : Image → Code) (argv : List String) : Program Nat := do
  let name := argv.headD ""
  let quit (text : String) : Program Nat := do
    Program.say Machine.standardError (name ++ ": 0: " ++ text ++ "\n")
    return 2
  let runInput (start : Interpreter) : Program Nat := do
    match ← Program.readAll standardInput with
    | .ok data => runText launch name start (Bytes.toText data)
    | .error _ => return 0
  match Invocation.readAll {} (argv.drop 1) with
  | .error letter => quit ("Illegal option -" ++ letter.toString)
  | .ok (invocation, operands) =>
    let start : Interpreter := { title := name, endsOnFailure := invocation.endsOnFailure }
    if invocation.operandIsText then
      match operands with
      | [] => quit "-c requires an argument"
      | text :: args => runText launch name { start with title := args.headD name, arguments := args.drop 1 } text
    else if invocation.readsInput then runInput { start with arguments := operands }
    else match operands with
      | [] => runInput start
      | path :: args =>
        match ← (Machine.openFile path { access := .read } 0).run with
        | .error e => quit (openFailure false path e)
        | .ok fd =>
          let read ← Program.readAll fd
          let _ ← (Machine.close fd).run
          match read with
          | .ok data => runText launch name { start with title := path, arguments := args } (Bytes.toText data)
          | .error .isDirectory => return 0
          | .error e => quit (openFailure false path e)

end Script

end PipelineShell
