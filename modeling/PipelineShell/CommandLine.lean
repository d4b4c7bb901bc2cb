import PipelineShell.Shell

/-!
# The command line

The shell is started with limits to read lines under, and either runs the one line it is given or the lines of standard
input.
-/

namespace PipelineShell

namespace CommandLine

/-- What the words of a command line say. -/
structure Arguments where
  command : Option String := none
  maxStatements : Option Nat := none
  maxStages : Option Nat := none
  maxArgs : Option Nat := none
  maxTokenLength : Option Nat := none
  maxPathLength : Option Nat := none
  maxLineLength : Option Nat := none
  deriving DecidableEq, Repr

/-- The reason an option given twice is refused for. -/
def duplicate : String := "duplicate values provided"

/-- A limit: a number of 64 bits. -/
def readLimit (text : String) : Except String Nat :=
  match Decimal.read 0 Decimal.wordMax text with
  | .ok n => .ok n.toNat
  | .error e => .error e.message

/-- The option of one limit. -/
def limitOption (spelling : String) (get : Arguments → Option Nat) (set : Arguments → Nat → Arguments) :
    Options.ValueOption Arguments where
  spellings := [spelling]
  fill text args := if (get args).isSome then .error duplicate else (readLimit text).map (set args)

/-- What the command line accepts. -/
def spec : Options.Spec Arguments where
  options := [
    ⟨["--command", "-c"], fun text args =>
      if args.command.isSome then .error duplicate else .ok { args with command := some text }⟩,
    limitOption "--max-statements" (·.maxStatements) fun args n => { args with maxStatements := some n },
    limitOption "--max-stages" (·.maxStages) fun args n => { args with maxStages := some n },
    limitOption "--max-args" (·.maxArgs) fun args n => { args with maxArgs := some n },
    limitOption "--max-token-len" (·.maxTokenLength) fun args n => { args with maxTokenLength := some n },
    limitOption "--max-path-len" (·.maxPathLength) fun args n => { args with maxPathLength := some n },
    limitOption "--max-line-len" (·.maxLineLength) fun args n => { args with maxLineLength := some n }]
  usage := "Usage: " ++ Builtin.programName ++ " [-c <command>] [--max-statements <max-statements>] " ++
    "[--max-stages <max-stages>] [--max-args <max-args>] [--max-token-len <max-token-len>] " ++
    "[--max-path-len <max-path-len>] [--max-line-len <max-line-len>]\n\n" ++
    "A tiny shell with pipes, redirection and `;`-separated statements.\n\nOptions:\n" ++
    "  -c, --command     run a single line and exit with its status\n" ++
    "  --max-statements  maximum number of statements per line\n" ++
    "  --max-stages      maximum number of commands per pipeline\n" ++
    "  --max-args        maximum number of tokens per command, program name included\n" ++
    "  --max-token-len   maximum length of one argument, in bytes\n" ++
    "  --max-path-len    maximum length of a redirection path, in bytes\n" ++
    "  --max-line-len    maximum length of an input line, in bytes\n" ++ Builtin.helpLine

/-- The limits asked for, those not named having their usual values. -/
def Arguments.limits (args : Arguments) : Limits :=
  let usual : Limits := {}
  { maxStatements := args.maxStatements.getD usual.maxStatements
    maxStages := args.maxStages.getD usual.maxStages
    maxArgs := args.maxArgs.getD usual.maxArgs
    maxTokenLength := args.maxTokenLength.getD usual.maxTokenLength
    maxPathLength := args.maxPathLength.getD usual.maxPathLength
    maxLineLength := args.maxLineLength.getD usual.maxLineLength }

/-- The spelling of the first limit that is zero, which the command line refuses. -/
def zeroLimit? (l : Limits) : Option String :=
  ([("--max-statements", l.maxStatements), ("--max-stages", l.maxStages), ("--max-args", l.maxArgs),
    ("--max-token-len", l.maxTokenLength), ("--max-path-len", l.maxPathLength),
    ("--max-line-len", l.maxLineLength)].find? fun limit => limit.2 = 0).map Prod.fst

/-- The status a process with this code ends with. -/
def exitStatus (code : ExitCode) : Nat := (code % 256).toNat

variable {σ : Type}

/-- Runs the session that was asked for. -/
def runSession (host : Host σ) (args : Arguments) : StateM σ (Except InputError ExitCode) := do
  let shell ← Shell.new host (Builtin.standard host) args.limits .block
  let session : ShellM σ (Except InputError ExitCode) := match args.command with
    | some line => return .ok (← Shell.executeLine host line)
    | none => Shell.readEvalLoop host
  fun state =>
    let (code, after) := session { shell, host := state }
    (code, after.host)

/-- The status of a program that gives up. -/
def crashStatus : Nat := 101

/-- Runs the program: the status it ends with. It gives up where its usage text cannot be written. -/
def run (host : Host σ) (words : List String) : StateM σ Nat := do
  match spec.read {} words with
  | .help text =>
    match ← (host.print (text ++ "\n")).run with
    | .ok () => return 0
    | .error e =>
      host.complain ("failed printing to stdout: " ++ e.streamMessage)
      return crashStatus
  | .refused text =>
    host.complain text
    host.complain ("Run " ++ Builtin.programName ++ " --help for more information.")
    return 1
  | .accepted args =>
    match zeroLimit? args.limits with
    | some spelling =>
      host.complain (Builtin.programName ++ ": " ++ spelling ++ " must be at least 1")
      return 1
    | none =>
      match ← runSession host args with
      | .ok code => return exitStatus code
      | .error e =>
        host.complain (Builtin.programName ++ ": failed to read input line\n\nCaused by:\n    " ++ e.message)
        return 1

end CommandLine

end PipelineShell
