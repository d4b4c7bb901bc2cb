import PipelineShell.Machine.Basic

/-!
# Becoming a program

An executable file is a standard program or a script. The first line of a script may name its interpreter, which then runs
with the path of the script before the arguments; a script that names none is run by `/bin/sh`. A file cannot be run while
somebody may write to it. A name without a slash is looked for in the directories of PATH.
-/

namespace PipelineShell

namespace Machine

/-- Blanks separate the words of a script's first line. -/
def isBlank (b : UInt8) : Bool := b = 32 || b = 9

/-- How many bytes at the beginning of a file decide what runs it. -/
def headMax : Nat := 256

/-- The first line of the head of a file. A line that goes on behind the head loses its end, but not a part of its first
word. Behind the contents of a short file stand zeros, and a zero ends no line. -/
def headLine? (head : Bytes) : Option Bytes :=
  let head := head ++ List.replicate (headMax - head.length) 0
  let line := head.takeWhile fun b => b ≠ Bytes.newline && b ≠ 0
  if head[line.length]? = some Bytes.newline then some line
  else if ((head.drop 2).dropWhile isBlank).any fun b => isBlank b || b = 0 then some head.dropLast
  else none

/-- The first line of a script as its interpreter and at most one argument, both of which a zero ends. An interpreter without
a name is the working directory. -/
def interpreter? (data : Bytes) : Option (String × List String) :=
  match headLine? (data.take headMax) with
  | some (35 :: 33 :: line) =>
    let words := (line.reverse.dropWhile isBlank).reverse.dropWhile isBlank
    let name := words.takeWhile fun b => !isBlank b && b ≠ 0
    let rest := words.drop name.length
    if words.isEmpty then none
    else some (if name.isEmpty then "." else Bytes.toText name,
      if rest.head?.any isBlank then [Bytes.toText ((rest.dropWhile isBlank).takeWhile (· ≠ 0))] else [])
  | _ => none

/-- The image of the executable at a path. `depth` is how many interpreters may still be named, one by the script of the
other. -/
def imageAt (m : Machine) (depth : Nat) (path : String) (argv : List String) : Except Errno Image := do
  let n ← m.files.find m.self.directory path
  match m.files.node? n with
  | some (.program name) => return ⟨name, argv⟩
  | some (.file mode data) =>
    if mode &&& 0o111 = 0 then throw .accessDenied
    if m.isBeingWritten n then throw .textBusy
    match interpreter? data, depth with
    | none, _ => throw .notExecutable
    | some _, 0 => throw .tooManyLinks
    | some (name, arguments), depth + 1 => m.imageAt depth name (name :: arguments ++ path :: argv.drop 1)
  | _ => throw .accessDenied

/-- How many interpreters one executable may lead through. -/
def interpreterMax : Nat := 4

/-- Who looks for an executable. -/
inductive Search
  /-- The system takes every file that names no interpreter for a script, and looks further only where there is nothing that
  may be run. -/
  | system
  /-- The interpreter of scripts has a search path of its own, runs only what looks like a text, and looks further whatever is
  wrong at one path. If it has `sought` a file that may be run, it does not try the paths before that. -/
  | interpreter (searchPath : String) (sought : Bool)
  deriving DecidableEq, Repr

/-- A byte that is found in texts. Those of control characters are not, except for blanks, changes of the character set and
escapes. -/
def isTextual (b : UInt8) : Bool := b = 27 || (8 < b && b < 16) || (31 < b && b ≠ 127)

/-- The beginning of the first line tells whether contents look like a text. -/
def looksLikeText (data : Bytes) : Bool := ((data.take 128).takeWhile (· ≠ Bytes.newline)).all isTextual

/-- The image of the executable at a path; a script without an interpreter is run by the standard one. -/
def imageOrScript (m : Machine) (search : Search) (path : String) (argv : List String) : Except Errno Image :=
  match m.imageAt interpreterMax path argv with
  | .error .notExecutable => do
    let n ← m.files.find m.self.directory path
    if search ≠ .system && !(match m.files.node? n with
      | some (.file _ data) => looksLikeText data
      | _ => true) then throw .notExecutable
    m.imageAt interpreterMax "/bin/sh" ("/bin/sh" :: path :: argv.drop 1)
  | result => result

/-- Where programs are looked for if PATH is not set. -/
def defaultPath : String := "/bin:/usr/bin"

/-- The entries of a search path. -/
def searchEntries (searchPath : String) : List String := (pieces (· = ':') searchPath.toList).map String.ofList

/-- The entries of a search path that the system looks at. One that is too long for a path is left out at the end; before
others, it stands for the working directory as an empty one does. -/
def searchedEntries : List String → List String
  | [] => []
  | [last] => if Filesystem.pathMax ≤ last.utf8ByteSize then [] else [last]
  | entry :: rest => (if Filesystem.pathMax ≤ entry.utf8ByteSize then "" else entry) :: searchedEntries rest

/-- The path of a name in an entry of a search path. An empty entry stands for the working directory. -/
def pathIn (name entry : String) : String := if entry.isEmpty then name else entry ++ "/" ++ name

/-- There is nothing at a path. -/
def leadsNowhere (e : Errno) : Bool := e = .noEntry || e = .notDirectory

/-- The first of several paths at which there is an executable. A path that leads nowhere is passed over, and so is one that
may not be run, which then is the failure reported in the end; any other failure ends a search of the system. -/
def firstImage (m : Machine) (search : Search) (argv : List String) (failure : Errno) : List String → Except Errno Image
  | [] => .error failure
  | path :: rest =>
    match m.imageOrScript search path argv with
    | .ok image => .ok image
    | .error e =>
      if leadsNowhere e then m.firstImage search argv (if leadsNowhere failure then e else failure) rest
      else if e = .accessDenied || search ≠ .system then m.firstImage search argv e rest
      else .error e

/-- One argument, or one variable of the environment, is shorter than so many bytes. -/
def argumentMax : Nat := 131072

/-- Arguments and environment together take no more than so many bytes, with an end and a pointer for each of them. -/
def argumentsMax : Nat := 2097152

/-- Arguments and environment take more room than a program is given for them. -/
def isTooLong (environment : Bindings) (argv : List String) : Bool :=
  let sizes := argv.map String.utf8ByteSize ++ environment.map fun entry => entry.1.utf8ByteSize + entry.2.utf8ByteSize + 1
  sizes.any (argumentMax ≤ ·) || argumentsMax < sizes.foldl (fun total size => total + size + 9) 0

/-- There is a file at a path that may be run, whether or not anything can come of it. -/
def mayRun (m : Machine) (path : String) : Bool :=
  match (m.files.find m.self.directory path).toOption.bind m.files.node? with
  | some (.program _) => true
  | some (.file mode _) => mode &&& 0o111 ≠ 0
  | _ => false

/-- The paths at which a name without a slash is looked for. Of a name that is too long the system takes only the beginning,
which is too long as well. -/
def candidates (m : Machine) (search : Search) (name : String) : List String :=
  match search with
  | .system =>
    let entries := searchedEntries (searchEntries ((m.self.environment.get? "PATH").getD defaultPath))
    entries.map (pathIn (String.ofList (name.toList.take (Filesystem.nameMax + 1))))
  | .interpreter searchPath sought =>
    let paths := (searchEntries searchPath).map (pathIn name)
    if sought && paths.any m.mayRun then paths.dropWhile (!m.mayRun ·) else paths

/-- The executable that an argument vector names. -/
def findImage (m : Machine) (search : Search) (argv : List String) : Except Errno Image :=
  match argv with
  | [] => .error .noEntry
  | name :: _ =>
    if name.isEmpty && search = .system then .error .noEntry
    else if name.toList.contains '/' then m.imageOrScript search name argv
    else m.firstImage search argv .noEntry (m.candidates search name)

/-- The image of an argument vector. -/
def lookUp (m : Machine) (search : Search) (argv : List String) : Except Errno Image := do
  let image ← m.findImage search argv
  if isTooLong m.self.environment argv then throw .argumentsTooLong
  return image

/-- Makes the running task the program of an argument vector. -/
def exec (argv : List String) : Call Machine Unit := do
  let m ← get
  let image ← m.lookUp .system argv
  set { m with self := m.self.withImage image }

end Machine

end PipelineShell
