/-!
# Commands, pipelines and statements

What a line means: a list of statements, each a pipeline ready to run or the report of a limit it broke. A command has a name
by construction, so no stage of a pipeline is empty.
-/

namespace PipelineShell

/-- The status a command ends with: zero for success. -/
abbrev ExitCode := Int

/-- One stage of a pipeline: a program and its arguments. -/
structure Command where
  name : String
  args : List String
  deriving DecidableEq, Repr

namespace Command

/-- The argument vector: the program name, then the arguments. -/
def argv (c : Command) : List String := c.name :: c.args

/-- The command an argument vector stands for; an empty vector stands for none. -/
def ofArgv? : List String → Option Command
  | [] => none
  | name :: args => some ⟨name, args⟩

@[simp] theorem ofArgv?_argv (c : Command) : ofArgv? c.argv = some c := rfl

theorem ofArgv?_eq_none_iff (argv : List String) : ofArgv? argv = none ↔ argv = [] := by
  cases argv <;> simp [ofArgv?]

end Command

/-- How an output redirection treats a file that exists. -/
inductive OutputMode where
  /-- The old contents are dropped. -/
  | truncate
  /-- Writing goes on after the old contents. -/
  | append
  deriving DecidableEq, Repr

/-- Where the last stage of a pipeline writes. -/
structure OutputTarget where
  path : String
  mode : OutputMode
  deriving DecidableEq, Repr

/-- Commands that feed one another, with a file at either end. `input` is for the first command, `output` for the last. -/
structure Pipeline where
  commands : List Command
  input : Option String := none
  output : Option OutputTarget := none
  deriving DecidableEq, Repr

/-- The only command of a pipeline of one stage. -/
def Pipeline.single? (p : Pipeline) : Option Command :=
  match p.commands with
  | [c] => some c
  | _ => none

/-- Why a statement was set aside. Each cause names the limit and, where text was cut short, how that text begins. -/
inductive LimitError where
  | tooManyStatements
  | tooManyStages (first second : String)
  | tooManyArguments (command : String)
  | argumentTooLong (start : String)
  | pathTooLong (start : String)
  deriving DecidableEq, Repr

/-- The report of a broken limit. -/
def LimitError.message : LimitError → String
  | .tooManyStatements => "Too many pipelines passed to pipeline sequence"
  | .tooManyStages first second =>
    "Too many commands passed in pipeline [" ++ first ++ " ... | " ++ second ++ " ... | ... ]"
  | .tooManyArguments command => "Too many arguments passed to command [" ++ command ++ "]"
  | .argumentTooLong start => "Too many characters passed to argument [" ++ start ++ "...]"
  | .pathTooLong start => "Too many characters passed to file path [" ++ start ++ "...]"

/-- One `;`-separated piece of a line. -/
inductive Statement where
  /-- A pipeline to run. -/
  | ready (pipeline : Pipeline)
  /-- A piece that broke a limit: it is reported in its place and never run. -/
  | discarded (error : LimitError)
  deriving DecidableEq, Repr

end PipelineShell
