import PipelineShell.Decimal
import PipelineShell.Machine.Program

/-!
# Standard programs

A `Utility` is given its argument vector and runs on the machine until it ends with a status. What several of them do alike is
said here: reading their operands, complaining, and holding back their output. Output reaches its descriptor in blocks or lines,
before a complaint, and at the end; a program whose output is lost complains of that, and has another status then.
-/

namespace PipelineShell

/-- When output that has been held back is written. -/
inductive Buffering where
  /-- As soon as a block is full. -/
  | blocks
  /-- At the end of every line. -/
  | lines
  /-- When the program ends. -/
  | whole
  deriving DecidableEq, Repr

/-- The standard output of a program, as far as it is held back. -/
structure OutputBuffer where
  buffering : Buffering := .blocks
  /-- What has not been written yet, the last part first. -/
  pending : List Bytes := []
  /-- Some output has been lost. -/
  failed : Bool := false
  deriving DecidableEq, Repr

/-- The code of a standard program. A number that is thrown ends it with that status. -/
abbrev UtilityM (α : Type) := ExceptT Nat (StateT OutputBuffer Program) α

/-- A standard program, from its argument vector to its status. -/
abbrev Utility := List String → UtilityM Nat

namespace Utility

/-- The name a program goes by in its complaints. -/
def title (argv : List String) : String := argv.headD ""

/-- Runs a part of the code of every process. -/
def perform {α : Type} (p : Program α) : UtilityM α := p

/-- The size of a block of output. -/
def blockSize : Nat := 4096

/-- How many bytes a program reads at once that takes its input in parts. -/
def partSize : Nat := 8192

/-- Writes bytes; if that fails they are lost. -/
def send (b : Bytes) : UtilityM (Option Errno) := do
  match ← Program.write standardOutput b with
  | .ok () => return none
  | .error e =>
    modify fun c => { c with pending := [], failed := true }
    return some e

/-- Writes what has been held back. -/
def flush : UtilityM (Option Errno) := do
  let pending := (← get).pending
  modify fun c => { c with pending := [] }
  send pending.reverse.flatten

/-- Takes output, and writes what is due of it. -/
def put (b : Bytes) : UtilityM (Option Errno) := do
  let c ← get
  let held := c.pending.foldl (fun n part => n + part.length) 0
  match c.buffering with
  | .whole => hold
  | .lines => do
    let _ ← hold
    if b.contains Bytes.newline then flush else return none
  | .blocks =>
    if held + b.length < blockSize ∨ (held ≠ 0 ∧ held + b.length = blockSize) then hold
    else do
      let all := (b :: c.pending).reverse.flatten
      let due := all.length - all.length % blockSize
      set { c with pending := [all.drop due] }
      send (all.take due)
where
  /-- Takes output without writing any. -/
  hold : UtilityM (Option Errno) := do
    modify fun c => { c with pending := b :: c.pending }
    return none

/-- Takes a text. -/
def putText (text : String) : UtilityM Unit := do
  let _ ← put (Bytes.ofString text)

/-- A text on standard error, after what has been held back of the output. -/
def report (text : String) : UtilityM Unit := do
  if (← get).buffering ≠ .whole then
    let _ ← flush
  perform (Program.say Machine.standardError text)

/-- A complaint. -/
def complain (argv : List String) (text : String) : UtilityM Unit := report (title argv ++ ": " ++ text ++ "\n")

/-- Ends with a complaint. -/
def fail {α : Type} (argv : List String) (status : Nat) (text : String) : UtilityM α := do
  complain argv text
  throw status

/-- Takes output, or ends the program with a complaint. -/
def putOrFail (argv : List String) (complaint : String) (b : Bytes) : UtilityM Unit := do
  if let some e := ← put b then
    modify fun c => { c with failed := false }
    fail argv 1 (complaint ++ ": " ++ e.systemText)

/-- A misused program says how to learn more, and ends with a status of its own. -/
def misuse (argv : List String) (status : Nat) (text : String) : UtilityM Nat := do
  report (title argv ++ ": " ++ text ++ "\nTry '" ++ title argv ++ " --help' for more information.\n")
  return status

/-- Ends a program: writes what has been held back. If output has been lost, `refusal` is the status. -/
def close (argv : List String) (refusal status : Nat) : UtilityM Nat := do
  let c ← get
  let failure ← flush
  let failure := failure.or (if ((← Program.machine).handle? standardOutput).isNone then some .badDescriptor else none)
  if c.failed ∨ (failure.isSome ∧ (!c.pending.flatten.isEmpty ∨ failure ≠ some .badDescriptor)) then
    complain argv ("write error" ++ match failure with
      | some e => ": " ++ e.systemText
      | none => "")
    return refusal
  else return status

/-- Runs the code of a standard program on an output buffer. -/
def runWith (c : OutputBuffer) (code : UtilityM Nat) : Program (Nat × OutputBuffer) := do
  match ← code.run.run c with
  | (.ok status, c) => return (status, c)
  | (.error status, c) => return (status, c)

/-- Characters of a file name that never need quotes. -/
def isPlain (c : Char) : Bool := c.isAlphanum || c ∈ "%+,-./@]_".toList

/-- A file name that needs no quotes. Some characters need them only at the beginning, and braces only alone. -/
def isPlainName (name : List Char) : Bool :=
  match name with
  | [] => false
  | [c] => isPlain c
  | first :: rest =>
    (isPlain first || "\x7b\x7d".toList.contains first) && rest.all fun c => isPlain c || "\x7b\x7d#~".toList.contains c

/-- A file name that means the same between double quotes: it has no character that is special there, or only at some places. -/
def suitsDoubleQuotes (name : List Char) : Bool :=
  (isPlain (name.headD ' ') || " #:'~".toList.contains (name.headD ' ')) &&
    (name.drop 1).all fun c => isPlain c || " :'".toList.contains c

/-- Characters that are shown as they are. -/
def isShown (b : UInt8) : Bool := 32 ≤ b && b ≤ 126

/-- A byte after a backslash: the letter that names it, or else three octal digits. -/
def escapedByte (b : UInt8) : List Char :=
  let letter? := if 7 ≤ b ∧ b ≤ 13 then "abtnvfr".toList[b.toNat - 7]? else none
  '\\' :: match letter? with
    | some letter => [letter]
    | none => [Nat.digitChar (b.toNat / 64), Nat.digitChar (b.toNat / 8 % 8), Nat.digitChar (b.toNat % 8)]

/-- A stretch of bytes of which all are shown, or none is, between quotes. -/
def quotedStretch (shown : Bool) (stretch : Bytes) : List Char :=
  if shown then
    ['\''] ++ stretch.flatMap (fun b => if b = 39 then ['\'', '\\', '\'', '\''] else [Char.ofNat b.toNat]) ++ ['\'']
  else ['$', '\''] ++ stretch.flatMap escapedByte ++ ['\'']

/-- Stretches of bytes that are shown and of bytes that are not, in turn; the first is of the former kind. -/
def stretches (b : Bytes) : List Bytes :=
  b.foldr (fun b rest => match rest with
    | [] => if isShown b then [[b]] else [[], [b]]
    | [] :: hidden :: others => if isShown b then [b] :: hidden :: others else [] :: (b :: hidden) :: others
    | first :: others => if isShown b then (b :: first) :: others else [] :: [b] :: first :: others) []

/-- A file name between quotes. -/
def quoted (name : String) : String :=
  if name.toList.contains '\'' ∧ suitsDoubleQuotes name.toList then "\"" ++ name ++ "\""
  else
    let parts := stretches (Bytes.ofString name)
    String.ofList ((if parts.isEmpty then [[]] else parts).zipIdx.flatMap fun (part, i) => quotedStretch (i % 2 = 0) part)

/-- A file name in a complaint: between quotes unless it needs none. -/
def shown (name : String) : String := if isPlainName name.toList then name else quoted name

/-- A text other than a file name between quotes. -/
def cited (text : String) : String :=
  let inner := (Bytes.ofString text).flatMap fun b =>
    if b = 39 ∨ b = 92 then ['\\', Char.ofNat b.toNat] else if isShown b then [Char.ofNat b.toNat] else escapedByte b
  "'" ++ String.ofList inner ++ "'"

/-- Takes the whole output and passes a status on. -/
def finish (status : Nat) (output : Bytes) : UtilityM Nat := do
  let _ ← put output
  return status

/-- Takes a text as the whole output and passes a status on. -/
def finishText (status : Nat) (text : String) : UtilityM Nat := finish status (Bytes.ofString text)

/-- Does something with a source opened for reading; a dash names standard input. -/
def withSource {α : Type} (name : String) (use : Fd → UtilityM (Except Errno α)) : UtilityM (Except Errno α) := do
  if name = "-" then use standardInput
  else match ← (Machine.openFile name { access := .read } 0).run with
    | .error e => return .error e
    | .ok fd =>
      let outcome ← use fd
      let _ ← (Machine.close fd).run
      return outcome

/-- Everything a source holds. -/
def contents (name : String) : UtilityM (Except Errno Bytes) := withSource name fun fd => perform (Program.readAll fd)

/-- The operands, or standard input for none. -/
def sources (operands : List String) : List String := if operands.isEmpty then ["-"] else operands

/-- Closes standard input in the end, if it is one of the sources; a descriptor that was closed already is complained of. -/
def closeInput (argv names : List String) (title : String) (status : Nat) : UtilityM Nat := do
  if names.contains "-" ∧ ((← Program.machine).handle? standardInput).isNone then
    complain argv (title ++ ": " ++ Errno.badDescriptor.systemText)
    return 1
  else return status

/-- The lines of a text. -/
def lines (data : Bytes) : List Bytes := linesOf (· = Bytes.newline) data

/-- Lines put together, each of them ended. -/
def unlines (ls : List Bytes) : Bytes := ls.flatMap (· ++ [Bytes.newline])

/-- Does nothing, with the given status. -/
def constant (status : Nat) : Utility := fun _ => return status

/-- The size of the file that a descriptor refers to, and the position in it. -/
def fileExtent? (m : Machine) (fd : Fd) : Option (Nat × Nat) :=
  match m.handle? fd with
  | some (.file k) => m.opened[k]?.bind fun file =>
    (m.files.contents? file.node).map fun data => (data.length, file.offset)
  | _ => none

/-- Moves the position in the file that a descriptor refers to. -/
def seek (fd : Fd) (f : Nat → Nat) : StateM Machine Unit := modify fun m =>
  match m.handle? fd with
  | some (.file k) => { m with opened := m.opened.modify k fun file => { file with offset := f file.offset } }
  | _ => m

/-- Takes back what was read too much, where the descriptor refers to a file. -/
def seekBack (fd : Fd) (n : Nat) : StateM Machine Unit := seek fd (· - n)

end Utility

end PipelineShell
