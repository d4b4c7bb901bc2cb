import PipelineShell.Script.Program
import PipelineShell.Utility.Standard

/-!
# Commands of the interpreter itself

Some of them cannot be programs of their own, since they act on the interpreter: `cd`, `exec`, `exit`, `export`, `read`, `set`,
`shift`, `umask`, `unset` and `wait`. The others are there because they are short.
-/

namespace PipelineShell

namespace Script

/-- The signal that the first arguments of `kill` name, and the other arguments. -/
def readSignal? : List String → Option (Signal × List String)
  | "-s" :: name :: rest => if name.startsWith "SIG" then none else (Signal.ofName? name).map (·, rest)
  | arg :: rest =>
    match arg.toList with
    | '-' :: text =>
      let text := String.ofList text
      match Decimal.natural? text with
      | some n => if n ≤ 64 then some (⟨n⟩, rest) else none
      | none => if text.startsWith "SIG" then none else (Signal.ofName? text).map (·, rest)
    | _ => some (⟨15⟩, arg :: rest)
  | [] => some (⟨15⟩, [])

/-- Runs code that writes to standard output, which is complained of when it fails. -/
def withOutput (name : String) (code : UtilityM Nat) : ScriptM Nat := do
  let whole : UtilityM Nat := do
    let status ← tryCatch code pure
    let _ ← Utility.flush
    return status
  let (status, buffer) ← perform (Utility.runWith { buffering := .whole } whole)
  if buffer.failed then
    complain (name ++ ": " ++ name ++ ": I/O error")
    return status ||| 1
  else return status

/-- Sends a signal to a process. -/
def sendSignal (signal : Signal) (target : String) : ScriptM Nat := do
  match Decimal.natural? target with
  | some pid =>
    if ← Machine.signal pid signal then return 0
    else
      complain "kill: No such process\n"
      return 1
  | none =>
    complain ("kill: Illegal number: " ++ target)
    return 2

/-- Sends a signal to processes. -/
def kill (args : List String) : ScriptM Nat := do
  match readSignal? args with
  | none =>
    complain ("kill: Illegal option -" ++ String.ofList (((args.headD "").toList.drop 1).take 1))
    return 2
  | some (_, []) =>
    complain "kill: Usage: kill [-s sigspec | -signum | -sigspec] [pid | job]... or\nkill -l [exitstatus]"
    return 2
  | some (signal, targets) => return (← targets.mapM (sendSignal signal)).foldl max 0

/-- A path from a directory, without `.` and with every `..` taken back, whatever the names stand for. -/
def logicalPath (directory path : String) : String :=
  let start := if Filesystem.isAbsolute path then [] else Filesystem.components directory
  Filesystem.absolutePath ((Filesystem.components path).foldl
    (fun names name => if name = "." then names else if name = ".." then names.dropLast else names ++ [name]) start)

/-- Moves to a directory, named by its path from the present one. -/
def moveTo (path : String) : ScriptM Bool := do
  let before := (← get).directory
  let directory := logicalPath before path
  match ← (Machine.changeDirectory (if before = "" then path else directory)).run with
  | .ok () =>
    modify fun state => { state with directory }
    exportVariable "OLDPWD" (some before)
    exportVariable "PWD" (some directory)
    return true
  | .error _ => return false

/-- Changes the working directory. A dash names the one before. -/
def changeDirectory (args : List String) : ScriptM Nat := do
  match args.head?.or (← parameterValue "HOME") with
  | none | some "" => return 0
  | some target =>
    let path ← if target = "-" then pure ((← parameterValue "OLDPWD").getD (← get).directory) else pure target
    if ← moveTo path then
      if target = "-" then withOutput "cd" (Utility.finishText 0 (path ++ "\n")) else return 0
    else
      complain ("cd: can't cd to " ++ target)
      return 2

/-- Writes the path by which the working directory was reached. -/
def printDirectory : ScriptM Nat := do withOutput "pwd" (Utility.finishText 0 ((← get).directory ++ "\n"))

/-- A byte of a line, and whether a backslash took its meaning. -/
structure LineByte where
  value : UInt8
  literal : Bool
  deriving DecidableEq, Repr

namespace LineByte

/-- Blanks separate fields. -/
def isBlank (b : LineByte) : Bool := !b.literal && (b.value = 32 || b.value = 9)

/-- The text of a line. -/
def toText (line : List LineByte) : String := Bytes.toText (line.map value)

/-- The fields of a line for so many variables; the last takes what is left. -/
def fields (count : Nat) (line : List LineByte) : List String :=
  let line := line.dropWhile isBlank
  match count with
  | 0 => []
  | 1 => [toText (line.reverse.dropWhile isBlank).reverse]
  | count + 1 => toText (line.takeWhile (!isBlank ·)) :: fields count (line.dropWhile (!isBlank ·))

end LineByte

/-- Reads on to the end of a line, byte by byte. `before` is what has been read of it, the last byte first. The answer says
whether there was all of a line. A backslash joins lines, and takes the meaning of any other byte, unless all is `raw`. -/
def readBytes (raw : Bool) : Nat → Bool → List LineByte → Program (List LineByte × Bool)
  | 0, _, before => return (before.reverse, false)
  | turns + 1, escaped, before => do
    match ← Program.read standardInput 1 with
    | .ok (b :: _) =>
      if escaped then
        if b = Bytes.newline then readBytes raw turns false before else readBytes raw turns false (⟨b, true⟩ :: before)
      else if b = Bytes.newline then return (before.reverse, true)
      else if b = 92 ∧ !raw then readBytes raw turns true before
      else if b = 0 then readBytes raw turns false before
      else readBytes raw turns false (⟨b, false⟩ :: before)
    | _ => return (before.reverse, false)

/-- Reads one line, and no more, into variables. The status says whether there was all of a line. -/
def readLine (args : List String) : ScriptM Nat := do
  let raw := args.head? = some "-r"
  match if raw then args.drop 1 else args with
  | [] =>
    complain "read: arg count"
    return 2
  | names =>
    let (line, complete) ← perform (readBytes raw Program.turnMax false [])
    (names.zip (LineByte.fields names.length line)).forM fun (name, value) => assign name value
    return if complete then 0 else 1

/-- The octal digits of a mask, at least four of them. -/
def octal (n : Nat) : String :=
  let digits := Nat.toDigits 8 n
  String.ofList (List.replicate (4 - digits.length) '0' ++ digits)

/-- Shows the mask of new files, or sets it. -/
def umask (args : List String) : ScriptM Nat := do
  match args with
  | [] =>
    let mask := (← task).mask
    withOutput "umask" (Utility.finishText 0 (octal mask ++ "\n"))
  | text :: _ =>
    match (text.toList.mapM (Utility.digitIn? 8)) with
    | some digits =>
      Machine.modifySelf fun t => { t with mask := digits.foldl (fun n d => n * 8 + d) 0 % 0o1000 }
      return 0
    | none =>
      complain ("umask: Illegal number: " ++ text)
      return 2

/-- The line `echo` writes inside a script, where escapes always count. -/
def echoOutput (args : List String) : Bytes :=
  let (words, ending) := match args with
    | "-n" :: rest => (rest, "")
    | args => (args, "\n")
  let line := Utility.unescape Utility.PrintfRules.command.argumentEscapes (" ".intercalate words).toList
  (line.append (Utility.Output.ofString ending)).data

/-- Writes arguments under a format. There are no options. -/
def printf (args : List String) : ScriptM Nat := do
  let state ← get
  let title := state.title ++ ": " ++ toString state.line ++ ": printf"
  match args, (args.headD "").toList with
  | "--" :: format :: rest, _ => withOutput "printf" (Utility.writeFormatted .command [title] format rest)
  | [], _ | ["--"], _ =>
    complain "printf: usage: printf format [arg ...]"
    return 2
  | _ :: _, '-' :: letter :: _ =>
    complain ("printf: Illegal option -" ++ letter.toString)
    return 2
  | format :: rest, _ => withOutput "printf" (Utility.writeFormatted .command [title] format rest)

/-- Leaves with the status that is named, or that of the last command. -/
def exit (args : List String) : ScriptM Nat := do
  match args with
  | [] => finish (.exited (← get).status)
  | text :: _ =>
    match Decimal.read 0 2147483647 text with
    | .ok n => finish (.exited (n.toNat % 256))
    | .error _ =>
      complain ("exit: Illegal number: " ++ text)
      finish (.exited 2)

/-- Puts variables into the environment. -/
def exportAll (args : List String) : ScriptM Nat := do
  args.forM fun arg =>
    match ScriptCommand.assignment? [.text arg false] with
    | some (name, value) => do exportVariable name (some (← expandText value))
    | none => exportVariable arg none
  return 0

/-- Sets whether a failure ends the script, and the arguments. -/
def configure (args : List String) : ScriptM Nat := do
  match args with
  | "--" :: arguments =>
    modify fun state => { state with arguments }
    return 0
  | "-e" :: rest =>
    modify fun state => { state with endsOnFailure := true }
    configure rest
  | "+e" :: rest =>
    modify fun state => { state with endsOnFailure := false }
    configure rest
  | [] => return 0
  | arguments =>
    modify fun state => { state with arguments }
    return 0

/-- Drops the first arguments, of which there must be so many. -/
def shift (args : List String) : ScriptM Nat := do
  match (args.head?.map Decimal.natural?).getD (some 1) with
  | none =>
    complain ("shift: Illegal number: " ++ args.headD "")
    finish (.exited 2)
  | some count =>
    if (← get).arguments.length < count then
      complain "shift: can't shift that many"
      finish (.exited 2)
    modify fun state => { state with arguments := state.arguments.drop count }
    return 0

/-- Removes variables. -/
def unset (args : List String) : ScriptM Nat := do
  args.forM fun arg => do
    modify fun state => { state with locals := state.locals.erase arg }
    Machine.modifySelf fun t => { t with environment := t.environment.erase arg }
  return 0

/-- Waits for one child of the script, by number. The status of one that is not known is 127. -/
def waitFor (target : String) : ScriptM Nat := do
  match Decimal.natural? target with
  | none =>
    complain ("wait: Illegal number: " ++ target)
    return 2
  | some pid =>
    if (← get).children.contains pid then
      modify fun state => { state with children := state.children.erase pid }
      return ((← perform (Program.await pid)).map statusOf).getD 127
    else return 127

/-- Waits for the children named, or for all. -/
def wait (args : List String) : ScriptM Nat := do
  match args with
  | [] =>
    for pid in (← get).children do
      let _ ← perform (Program.await pid)
    modify fun state => { state with children := [] }
    return 0
  | targets => return ((← targets.mapM waitFor).getLast?).getD 0

/-- A failed redirection of these commands ends the script. -/
def specialBuiltins : List String := [":", "exec", "exit", "export", "set", "shift", "unset"]

/-- A command of the interpreter itself. -/
def builtin? (launch : Image → Code) (name : String) (args : List String) : Option (ScriptM Nat) :=
  let utility (u : Utility) : Option (ScriptM Nat) := some (do
    let state ← get
    withOutput name (u ((state.title ++ ": " ++ toString state.line ++ ": " ++ name) :: args)))
  match name with
  | ":" | "true" => some (return 0)
  | "false" => some (return 1)
  | "cd" => some (changeDirectory args)
  | "echo" => some (withOutput "echo" (Utility.finish 0 (echoOutput args)))
  | "exec" => if args.isEmpty then some (return 0) else some (become launch false args)
  | "exit" => some (exit args)
  | "export" => some (exportAll args)
  | "kill" => some (kill args)
  | "printf" => some (printf args)
  | "pwd" => some printDirectory
  | "read" => some (readLine args)
  | "set" => some (configure args)
  | "shift" => some (shift args)
  | "test" => utility Utility.test
  | "[" => utility Utility.bracket
  | "umask" => some (umask args)
  | "unset" => some (unset args)
  | "wait" => some (wait args)
  | _ => none

end Script

end PipelineShell
