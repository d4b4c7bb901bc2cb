import PipelineShell.Builtin.Basic
import PipelineShell.Decimal

/-!
# The builtins every shell starts with: `exit`, `cd`, `cwd` and `ver`
-/

namespace PipelineShell

namespace Builtin

/-- The line that ends every usage text. -/
def helpLine : String := "  --help, help      display usage information\n"

/-- A status to leave with. -/
def readExitCode (text : String) : Except String ExitCode :=
  match Decimal.read (-2147483648) 2147483647 text with
  | .ok code => .ok code
  | .error e => .error e.message

/-- `exit` asks the session to end, with the status given or zero. -/
def exit {σ : Type} : DeclaredBuiltin σ (Option ExitCode) where
  name := "exit"
  initial := none
  arguments := {
    positionals := [⟨"code", fun text _ => (readExitCode text).map some⟩]
    usage := "Usage: exit [--] [<code>]\n\nLeave the shell once the current statement is done.\n\n" ++
      "Positional Arguments:\n  code              status to exit with; defaults to 0.\n\nOptions:\n" ++ helpLine }
  run code? := do
    let code := code?.getD 0
    BuiltinM.modifyEnvironment fun e => { e with exitRequested := some code }
    return code

/-- A path is absolute. -/
def isAbsolute (path : String) : Bool := path.toList.head? = some '/'

/-- A relative path taken from a directory. -/
def joinPath (directory path : String) : String :=
  if isAbsolute path then path
  else if directory.isEmpty ∨ directory.toList.getLast? = some '/' then directory ++ path
  else directory ++ "/" ++ path

/-- `cd` moves the session and the process to a directory: the one named, or that of HOME for no name, an empty one or `~`. -/
def cd {σ : Type} (host : Host σ) : DeclaredBuiltin σ (Option String) where
  name := "cd"
  initial := none
  arguments := {
    positionals := [⟨"target", fun text _ => .ok (some text)⟩]
    usage := "Usage: cd [--] [<target>]\n\nChange the current working directory. Without a target, or with `~`, changes to " ++
      "the directory named by HOME.\n\nPositional Arguments:\n  target            directory to switch to; absolute or " ++
      "relative to the current\n                    directory.\n\nOptions:\n" ++ helpLine }
  run target? := do
    let env ← BuiltinM.environment
    let named := target?.filter fun target => target ≠ "" ∧ target ≠ "~"
    let some target ← (match named with
      | some target => pure (some target)
      | none => BuiltinM.onHost (env.getVar host "HOME")) | throw ⟨"cd: HOME not set", []⟩
    let path := joinPath env.currentDirectory target
    let moved ← BuiltinM.onHost (do
      let directory ← host.canonicalize path
      host.changeDirectory directory
      return directory : Call σ String).run
    match moved with
    | .error _ => throw ⟨"cd: " ++ target ++ ": No such file or directory", []⟩
    | .ok directory =>
      BuiltinM.modifyEnvironment fun e => { e with currentDirectory := directory }
      return 0

/-- `cwd` writes the directory of the session. -/
def cwd {σ : Type} : DeclaredBuiltin σ Unit where
  name := "cwd"
  initial := ()
  arguments := {
    usage := "Usage: cwd\n\nPrint the current working directory to standard output.\n\nOptions:\n" ++ helpLine }
  run _ := do
    BuiltinM.writeLine (← BuiltinM.environment).currentDirectory
    return 0

/-- The name and the version of the program. -/
def programName : String := "tiny_shell"

/-- The version of the program. -/
def programVersion : String := "0.1.0"

/-- The inner width of the banner. -/
def bannerWidth : Nat := 38

/-- A text repeated. -/
def repeated (n : Nat) (c : Char) : String := String.ofList (List.replicate n c)

/-- A text filled with blanks on the right. -/
def padRight (width : Nat) (text : String) : String := text ++ repeated (width - text.length) ' '

/-- A text filled with blanks on the left. -/
def padLeft (width : Nat) (text : String) : String := repeated (width - text.length) ' ' ++ text

/-- The lines of the banner. -/
def bannerLines : List String :=
  let yellow := "\x1b[0;33m"
  let plain := "\x1b[0m"
  let title := " TINY SHELL "
  let side := repeated ((bannerWidth - title.length - 2) / 2) '-'
  let row (label value : String) := "| " ++ padRight 18 label ++ padLeft 18 value ++ " |"
  let quote (text : String) := "|" ++ yellow ++ " " ++ padRight 37 text ++ plain ++ "|"
  ["@" ++ side ++ "@" ++ yellow ++ title ++ plain ++ "@" ++ side ++ "@",
    row "Name:" programName,
    row "Version:" programVersion,
    "|" ++ repeated bannerWidth ' ' ++ "|",
    quote "Pipes, redirection and ; sequences.",
    quote "Nothing more, nothing less.",
    "@" ++ repeated bannerWidth '-' ++ "@"]

/-- `ver` writes the banner. -/
def ver {σ : Type} : DeclaredBuiltin σ Unit where
  name := "ver"
  initial := ()
  arguments := { usage := "Usage: ver\n\nPrint the shell's name and version.\n\nOptions:\n" ++ helpLine }
  run _ := do
    bannerLines.forM BuiltinM.writeLine
    return 0

/-- The standard table. -/
def standard {σ : Type} (host : Host σ) : List (Builtin σ) :=
  [exit.toBuiltin host, (cd host).toBuiltin host, cwd.toBuiltin host, ver.toBuiltin host]

end Builtin

end PipelineShell
