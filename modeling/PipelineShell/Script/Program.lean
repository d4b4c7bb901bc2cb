import PipelineShell.Machine.Image
import PipelineShell.Script.Interpreter

/-!
# Redirections and programs of a script

A script becomes other programs, and starts them, through `launch`, which is given to it: `Image.code` ties the knot.
-/

namespace PipelineShell

namespace Script

/-- The wording of a failure to open a file. -/
def openFailure (creating : Bool) (path : String) (e : Errno) : String :=
  (if creating then "cannot create " else "cannot open ") ++ path ++ ": " ++ match e with
    | .noEntry | .notDirectory => if creating then "Directory nonexistent" else "No such file"
    | e => e.systemText

/-- Makes a descriptor refer to a file. -/
def openOnto (fd : Nat) (path : String) (flags : OpenFlags) : ScriptM Bool := do
  let call : Call Machine Unit := do
    let opened ← Machine.openFile path flags 0o666
    if opened ≠ fd then
      Machine.dup2 opened fd
      Machine.close opened
  match ← call.run with
  | .ok () => return true
  | .error e =>
    complain (openFailure flags.create path e)
    return false

/-- Makes a descriptor refer to what the one named refers to; a dash closes it. -/
def duplicateOnto (fd : Nat) (source : String) : ScriptM Bool := do
  if source = "-" then
    let _ ← (Machine.close fd).run
    return true
  else
    let outcome ← match Decimal.natural? source with
      | some n => (Machine.dup2 n fd).run
      | none => pure (.error .badDescriptor)
    match outcome with
    | .ok () => return true
    | .error e =>
      complain (source ++ ": " ++ e.systemText)
      return false

/-- Makes a redirection. A failure is complained of, and the command is not run. -/
def redirect (r : Redirection) : ScriptM Bool := do
  let target ← expandText r.target
  match r.kind with
  | .input => openOnto r.fd target { access := .read }
  | .output mode =>
    openOnto r.fd target { access := .write, create := true, truncate := mode = .truncate, append := mode = .append }
  | .duplicate => duplicateOnto r.fd target

/-- Makes redirections in order, as long as they succeed. -/
def redirectAll : List Redirection → ScriptM Bool
  | [] => return true
  | r :: rest => do if ← redirect r then redirectAll rest else return false

/-- The status a fate stands for. -/
def statusOf : Fate → Nat
  | .exited status => status
  | .killed signal => 128 + signal.number

/-- The status and the wording of a program that cannot be run. -/
def notRun : Errno → Nat × String
  | .noEntry | .notDirectory => (127, "not found")
  | .tooManyLinks => (127, Errno.tooManyLinks.systemText)
  | .nameTooLong => (127, Errno.nameTooLong.systemText)
  | e => (126, e.systemText)

/-- Says how a program ended that was killed, unless everyone knows. -/
def announce (fate : Fate) : ScriptM Unit := do
  match fate with
  | .killed signal =>
    if signal.name? ≠ some "SIGINT" ∧ signal.name? ≠ some "SIGPIPE" then
      perform (Program.say Machine.standardError (signal.description ++ "\n"))
  | _ => return ()

/-- Starts a process that runs code with a copy of the interpreter's state. -/
def fork (code : ScriptM Nat) : ScriptM Pid := do
  let state ← get
  let child : Program Nat := do
    let (status, _) ← code.run state
    return status
  perform (Program.fork child.toCode)

/-- Waits for a child and announces how it ended. -/
def await (child : Pid) : ScriptM Nat := do
  match ← perform (Program.await child) with
  | none => return 0
  | some fate =>
    announce fate
    return statusOf fate

/-- Variables that the table of the interpreter holds from the beginning. -/
def firstVariables : List String := ["MAIL", "MAILPATH", "PATH", "PS1", "PS2", "PS4", "TERM", "HISTSIZE"]

/-- The place of a variable in the table of the interpreter, which has 39 rows. In a row those that were there first stand in
front. -/
def tablePlace (name : String) : Nat :=
  let bytes := (Bytes.ofString name).map UInt8.toNat
  bytes.foldl (· + ·) (bytes.headD 0 * 16) % 39 * 2 + (if firstVariables.contains name then 0 else 1)

/-- The environment that the interpreter hands on: the variables that have proper names, as they stand in its table. -/
def handedOn (environment : Bindings) : Bindings :=
  (environment.filter fun entry => isName entry.1.toList).mergeSort fun a b => tablePlace a.1 ≤ tablePlace b.1

/-- The status and the wording of a command that cannot be run. One that the interpreter has sought is not found unless some
file of its name may be run. -/
def commandNotRun (m : Machine) (search : Machine.Search) (name : String) (e : Errno) : Nat × String :=
  let (status, wording) := notRun e
  let found := name.toList.contains '/' || (m.candidates search name).any m.mayRun
  (if found then status else 127, wording)

/-- Becomes the program of an argument vector. One that cannot be run is complained of, which ends the process. -/
def become (launch : Image → Code) (sought : Bool) (argv : List String) : ScriptM Nat := do
  let search : Machine.Search := .interpreter ((← parameterValue "PATH").getD "") sought
  let m ← Program.machine
  match m.lookUp search argv with
  | .error e =>
    let name := argv.headD ""
    let (status, wording) := if sought then commandNotRun m search name e else notRun e
    complain ((if sought then "" else "exec: ") ++ name ++ ": " ++ wording)
    finish (.exited status)
  | .ok image =>
    Machine.modifySelf fun t => { t.withImage image with environment := handedOn t.environment }
    perform (Program.become (launch image))

end Script

end PipelineShell
