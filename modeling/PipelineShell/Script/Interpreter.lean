import PipelineShell.Machine.Program
import PipelineShell.Script.Basic

/-!
# The interpreter of scripts and its words

The interpreter is a program with a state of its own. Here is how it replaces the parameters of a word and
takes a word apart into fields.
-/

namespace PipelineShell

namespace Script

/-- The state of the interpreter, apart from the machine. -/
structure Interpreter where
  /-- What stands for parameter zero and begins every complaint. -/
  title : String
  arguments : List String := []
  /-- The path by which the working directory was reached. -/
  directory : String := ""
  /-- Variables that are not in the environment. -/
  locals : Bindings := []
  /-- The status of the last command. -/
  status : Nat := 0
  /-- A job that fails ends the script. -/
  endsOnFailure : Bool := false
  line : Nat := 1
  /-- The number of the process that began the script. -/
  pid : Pid := 0
  /-- The last process started in the background. -/
  background? : Option Pid := none
  /-- The processes in the background that have not been waited for. -/
  children : List Pid := []
  deriving DecidableEq, Repr

/-- The code of the interpreter. -/
abbrev ScriptM (α : Type) := StateT Interpreter Program α

/-- Runs a part of the code of every process. -/
def perform {α : Type} (p : Program α) : ScriptM α := p

/-- Ends the process. -/
def finish {α : Type} (fate : Fate) : ScriptM α := perform (Program.finish fate)

/-- The task of the interpreter. -/
def task : ScriptM Task := do return (← Program.machine).self

/-- Complains of something. -/
def complain (text : String) : ScriptM Unit := do
  let state ← get
  perform (Program.say Machine.standardError (state.title ++ ": " ++ toString state.line ++ ": " ++ text ++ "\n"))

/-- The value of a parameter, if it is set. -/
def parameterValue (name : String) : ScriptM (Option String) := do
  let state ← get
  match name with
  | "#" => return some (toString state.arguments.length)
  | "?" => return some (toString state.status)
  | "$" => return some (toString state.pid)
  | "!" => return state.background?.map toString
  | "@" | "*" => return if state.arguments.isEmpty then none else some (" ".intercalate state.arguments)
  | "0" => return some state.title
  | name =>
    match Decimal.natural? name with
    | some n => return state.arguments[n - 1]?
    | none => return (state.locals.get? name).or ((← task).environment.get? name)

/-- What replaces a parameter. -/
def expandParameter (p : Parameter) : ScriptM String := do
  let value? ← parameterValue p.name
  match p.fallback?, value? with
  | some word, some value => return if p.orEmpty ∧ value.isEmpty then word else value
  | some word, none => return word
  | none, value? => return value?.getD ""

/-- A word with a tilde at its beginning replaced by HOME. -/
def expandTilde (w : Word) : ScriptM Word := do
  match w with
  | .text value false :: rest =>
    match value.toList with
    | '~' :: cs =>
      if cs.head? = some '/' ∨ (cs = [] ∧ rest = []) then
        match ← parameterValue "HOME" with
        | some home => return .text home true :: .text (String.ofList cs) false :: rest
        | none => return w
      else return w
    | _ => return w
  | _ => return w

/-- The text of fragments. -/
def expandFragments : Word → ScriptM String
  | [] => return ""
  | .text value _ :: rest => return value ++ (← expandFragments rest)
  | .parameter p _ :: rest => return (← expandParameter p) ++ (← expandFragments rest)

/-- A word as one text. -/
def expandText (w : Word) : ScriptM String := do expandFragments (← expandTilde w)

/-- Fields that are being put together: those that are complete, and the one that has begun. -/
structure Fields where
  complete : List String := []
  open? : Option String := none
  deriving DecidableEq, Repr

namespace Fields

/-- Adds text to the field that has begun, or begins one. -/
def add (f : Fields) (text : String) : Fields := { f with open? := some (f.open?.getD "" ++ text) }

/-- Completes the field that has begun. -/
def close (f : Fields) : Fields := ⟨f.complete ++ f.open?.toList, none⟩

/-- Adds a text whose blanks separate fields. -/
def addSplit (f : Fields) (text : String) : Fields :=
  text.toList.foldl (fun f c => if c = ' ' ∨ c = '\t' ∨ c = '\n' then f.close else f.add c.toString) f

/-- Adds texts of which all but the first begin a field. -/
def addEach (f : Fields) : List String → Fields
  | [] => f
  | first :: others => others.foldl (fun f text => f.close.add text) (f.add first)

end Fields

/-- The fields a word comes to. All arguments between quotes come to a field each. -/
def expandFields (f : Fields) : Word → ScriptM Fields
  | [] => return f
  | .text value _ :: rest => expandFields (f.add value) rest
  | .parameter ⟨"@", none, _⟩ true :: rest => do expandFields (f.addEach (← get).arguments) rest
  | .parameter p true :: rest => do expandFields (f.add (← expandParameter p)) rest
  | .parameter p false :: rest => do expandFields (f.addSplit (← expandParameter p)) rest

/-- The fields of one word. No arguments between quotes come to no field. -/
def expandWord (w : Word) : ScriptM (List String) := do
  match w, (← get).arguments with
  | [.text "" true, .parameter ⟨"@", none, _⟩ true], [] => return []
  | w, _ => return (← expandFields {} (← expandTilde w)).close.complete

/-- The fields of all words. -/
def expandAll (words : List Word) : ScriptM (List String) := do return (← words.mapM expandWord).flatten

/-- Binds a variable, in the environment if it is there. -/
def assign (name value : String) : ScriptM Unit := do
  if ((← task).environment.get? name).isSome then
    Machine.modifySelf fun t => { t with environment := t.environment.set name value }
  else modify fun state => { state with locals := state.locals.set name value }

/-- Puts a variable into the environment. -/
def exportVariable (name : String) (value? : Option String) : ScriptM Unit := do
  let value := value?.or ((← get).locals.get? name)
  if let some value := value then
    modify fun state => { state with locals := state.locals.erase name }
    Machine.modifySelf fun t => { t with environment := t.environment.set name value }

/-- Binds variables in turn, in the way given; a value may come from the variables before it. -/
def bindAll (bind : String → String → ScriptM Unit) (assignments : List (String × Word)) : ScriptM Unit :=
  assignments.forM fun (name, w) => do bind name (← expandText w)

/-- Puts bindings back in which some names are bound as they were before. -/
def putBack (before now : Bindings) (names : List String) : Bindings :=
  names.foldl (fun now name => match before.get? name with
    | some value => now.set name value
    | none => now.erase name) now

/-- Runs code with variables in the environment that are put back afterwards. -/
def withVariables {α : Type} (assignments : List (String × Word)) (code : ScriptM α) : ScriptM α := do
  let names := assignments.map Prod.fst
  let locals := (← get).locals
  let environment := (← task).environment
  bindAll (fun name value => exportVariable name (some value)) assignments
  let result ← code
  modify fun state => { state with locals := putBack locals state.locals names }
  Machine.modifySelf fun t => { t with environment := putBack environment t.environment names }
  return result

/-- Variables that every interpreter has. -/
def initialVariables : Bindings :=
  [("IFS", " \t\n"), ("OPTIND", "1"), ("PATH", "/usr/local/sbin:/usr/local/bin:/usr/sbin:/usr/bin:/sbin:/bin"), ("PS1", "# "),
    ("PS2", "> "), ("PS4", "+ ")]

end Script

end PipelineShell
