import PipelineShell.Machine.Image
import PipelineShell.Utility.Arguments

/-!
# Programs about the environment

`env` changes the environment and becomes another program in it, which is started through `launch`. Without a program, `env`
and `printenv` write what the environment holds.
-/

namespace PipelineShell

namespace Utility

/-- Writes the environment, with an end after each variable. -/
def putEnvironment (ending : String) : UtilityM Nat := do
  (← Program.machine).self.environment.forM fun (name, value) => putText (name ++ "=" ++ value ++ ending)
  return 0

/-- What is said where an argument looks like several. -/
def shebangHint : String := "use -[v]S to pass options in shebang lines"

/-- Becomes the program of an argument vector. -/
def become (launch : Image → Code) (argv words : List String) : UtilityM Nat := do
  let name := words.headD ""
  match (← Program.machine).lookUp .system words with
  | .ok image =>
    Machine.modifySelf fun t => t.withImage image
    perform (Program.become (launch image))
  | .error e =>
    complain argv (cited name ++ ": " ++ e.systemText)
    if e = .noEntry ∧ name.toList.any Char.isWhitespace then complain argv shebangHint
    return if e = .noEntry then 127 else 126

/-- The bindings in front of a command, and the command. -/
def leadingBindings : List String → Bindings × List String
  | [] => ([], [])
  | word :: rest =>
    if word.toList.contains '=' then
      let name := word.toList.takeWhile (· ≠ '=')
      let (bindings, command) := leadingBindings rest
      ((String.ofList name, String.ofList (word.toList.drop (name.length + 1))) :: bindings, command)
    else ([], word :: rest)

/-- Changes the environment and becomes another program, or writes the environment. `-i` clears it before that, `-u` takes a
variable away, and `-0` ends the variables that are written with zeros. -/
def env (launch : Image → Code) : Utility := fun argv => do
  let args := Arguments.read ['i', '0'] ['u'] false (argv.drop 1)
  if let some fault := args.fault then
    let hint := match fault with
      | .unknownLetter letter => if letter.isWhitespace then "\n" ++ title argv ++ ": " ++ shebangHint else ""
      | _ => ""
    return ← misuse argv 125 (fault.message ++ hint)
  let dash := args.operands.head? = some "-"
  let clears := dash || args.options.any fun option => option.1 = 'i'
  let removed := args.options.filterMap fun option => if option.1 = 'u' then some option.2 else none
  let (bindings, command) := leadingBindings (if dash then args.operands.drop 1 else args.operands)
  if !clears then
    if let some name := removed.find? fun name => name.isEmpty || name.toList.contains '=' then
      return ← fail argv 125 ("cannot unset " ++ cited name ++ ": " ++ Errno.invalid.systemText)
  let change (b : Bindings) : Bindings :=
    bindings.foldl (fun b entry => b.set entry.1 entry.2) (if clears then [] else removed.foldl Bindings.erase b)
  Machine.modifySelf fun t => { t with environment := change t.environment }
  let zeros := args.options.any fun option => option.1 = '0'
  if command.isEmpty then putEnvironment (if zeros then "\x00" else "\n")
  else if zeros then misuse argv 125 "cannot specify --null (-0) with command"
  else become launch argv command

/-- Writes the values of variables, or the environment. -/
def printenv : Utility := fun argv => do
  match argv.drop 1 with
  | [] => putEnvironment "\n"
  | names =>
    let environment := (← Program.machine).self.environment
    let values := names.filterMap environment.get?
    values.forM fun value => putText (value ++ "\n")
    return if values.length = names.length then 0 else 1

end Utility

end PipelineShell
