import PipelineShell.Script.Token

/-!
# Scripts

A script is a sequence of jobs, of which some are in the background. A job is a sequence of pipelines, each of which is run always,
or only after a success or a failure. `Script.read` puts the tokens of a text together.
-/

namespace PipelineShell

namespace Script

/-- A redirection within a script. -/
structure Redirection where
  fd : Nat
  kind : RedirectionKind
  target : Word
  deriving DecidableEq, Repr

/-- A command of a script. -/
structure ScriptCommand where
  /-- The line it stands in, counted from one. -/
  line : Nat := 1
  assignments : List (String × Word) := []
  words : List Word := []
  redirections : List Redirection := []
  deriving DecidableEq, Repr

/-- When a pipeline is run. -/
inductive Condition where
  | always
  | afterSuccess
  | afterFailure
  deriving DecidableEq, Repr

/-- A pipeline of a script. -/
structure Step where
  condition : Condition
  /-- Its status is turned round. -/
  negated : Bool
  stages : List ScriptCommand
  deriving DecidableEq, Repr

namespace ScriptCommand

/-- Nothing has been said yet. -/
def isBlank (c : ScriptCommand) : Bool := c.assignments.isEmpty && c.words.isEmpty && c.redirections.isEmpty

/-- The name and the value of a word that is an assignment. -/
def assignment? : Word → Option (String × Word)
  | .text value false :: rest =>
    let name := value.toList.takeWhile (· ≠ '=')
    match value.toList.drop name.length with
    | '=' :: after =>
      if isName name then
        some (String.ofList name, if after.isEmpty then rest else .text (String.ofList after) false :: rest)
      else none
    | _ => none
  | _ => none

/-- A command with one more word. Assignments come before all other words. -/
def addWord (c : ScriptCommand) (w : Word) : ScriptCommand :=
  match (if c.words.isEmpty then assignment? w else none) with
  | some entry => { c with assignments := c.assignments ++ [entry] }
  | none => { c with words := c.words ++ [w] }

end ScriptCommand

/-- Pipelines of which each may depend on the one before it. -/
structure Job where
  steps : List Step
  /-- The script does not wait for it. -/
  inBackground : Bool
  deriving DecidableEq, Repr

/-- A script that has been read in part. -/
structure Draft where
  /-- The jobs of the lines that are complete. -/
  complete : List Job := []
  /-- The jobs of this line. -/
  jobs : List Job := []
  /-- The steps of this job. -/
  steps : List Step := []
  condition : Condition := .always
  negated : Bool := false
  stages : List ScriptCommand := []
  command : ScriptCommand := {}
  /-- A redirection that waits for its target. -/
  pending? : Option (Nat × RedirectionKind) := none
  deriving DecidableEq, Repr

namespace Draft

/-- The command has come to its end at a token. -/
def endCommand (d : Draft) (token : String) : Except ScriptError Draft :=
  if d.pending?.isSome ∨ d.command.isBlank then .error (.unexpected token)
  else .ok { d with stages := d.stages ++ [d.command], command := { line := d.command.line } }

/-- The pipeline has come to its end at a token. -/
def endStep (d : Draft) (token : String) (next : Condition) : Except ScriptError Draft := do
  let d ← d.endCommand token
  return { d with
    steps := d.steps ++ [⟨d.condition, d.negated, d.stages⟩]
    stages := []
    negated := false
    condition := next }

/-- The job has come to its end at a token. -/
def endJob (d : Draft) (token : String) (inBackground : Bool) : Except ScriptError Draft := do
  let d ← d.endStep token .always
  return { d with jobs := d.jobs ++ [⟨d.steps, inBackground⟩], steps := [] }

/-- Nothing has been said since the last pipeline. -/
def isBlank (d : Draft) : Bool := d.command.isBlank && d.stages.isEmpty && d.pending?.isNone && !d.negated

/-- A line has come to its end. A job that still needs a command goes on in the next one. -/
def endLine (d : Draft) : Except ScriptError Draft := do
  let d ← if d.command.isBlank ∧ d.pending?.isNone then pure d else d.endJob "newline" false
  let d := if d.isBlank ∧ d.condition = .always then { d with complete := d.complete ++ d.jobs, jobs := [] } else d
  return { d with command := { d.command with line := d.command.line + 1 } }

/-- A draft with one more token. -/
def add (d : Draft) : Token → Except ScriptError Draft
  | .word w =>
    match d.pending? with
    | some (fd, kind) =>
      .ok { d with
        pending? := none
        command := { d.command with redirections := d.command.redirections ++ [⟨fd, kind, w⟩] } }
    | none =>
      if w.literal? = some "!" ∧ d.isBlank then .ok { d with negated := true }
      else .ok { d with command := d.command.addWord w }
  | .redirection fd kind =>
    if d.pending?.isSome then .error (.unexpected "redirection") else .ok { d with pending? := some (fd, kind) }
  | .pipe => d.endCommand "\"|\""
  | .and => d.endStep "\"&&\"" .afterSuccess
  | .or => d.endStep "\"||\"" .afterFailure
  | .semicolon => d.endJob "\";\"" false
  | .ampersand => d.endJob "\"&\"" true
  | .newline => d.endLine

/-- A draft with more tokens, and what is wrong with them, if anything is. -/
def addAll (d : Draft) : List Token → Draft × Option ScriptError
  | [] => (d, none)
  | token :: rest =>
    match d.add token with
    | .ok d => d.addAll rest
    | .error e => (d, some e)

/-- The draft of a text that has come to its end. -/
def finish (d : Draft) : Draft × Option ScriptError :=
  match d.endLine with
  | .error e => (d, some e)
  | .ok ended => if ended.condition ≠ .always ∨ !ended.isBlank then (d, some .unexpectedEnd) else (ended, none)

end Draft

/-- Why a text is no script, or no more of one, and the line where that is seen. -/
structure Fault where
  line : Nat
  error : ScriptError
  deriving DecidableEq, Repr

/-- The jobs of a text, up to the line with a fault, if there is one. -/
def read (text : String) : List Job × Option Fault :=
  let (tokens, broken?) := Token.readAll text
  let (draft, fault?) := Draft.addAll {} tokens
  let (draft, fault?) := match fault?.or broken? with
    | some e => (draft, some e)
    | none => draft.finish
  (draft.complete, fault?.map fun e => ⟨draft.command.line, e⟩)

end Script

end PipelineShell
