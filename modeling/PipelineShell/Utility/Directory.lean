import PipelineShell.Utility.Arguments

/-!
# Programs that look at directories and change them: `pwd`, `ls`, `dir`, `mkdir`, `rmdir`, `rm` and `touch`
-/

namespace PipelineShell

namespace Utility

/-- Writes the path of the working directory. -/
def pwd : Utility := fun argv => do
  match ← Machine.currentDirectory.run with
  | .ok path => finishText 0 (path ++ "\n")
  | .error _ =>
    complain argv "couldn't find directory entry in '..' with matching i-node"
    return 1

/-- Does something with every operand, and makes the complaints that come of it. -/
def forOperands (argv operands : List String) (action : String → UtilityM (Option String)) : UtilityM Nat := do
  if operands.isEmpty then misuse argv 1 "missing operand"
  else
    let statuses ← operands.mapM fun name => do
      match ← action name with
      | none => return 0
      | some complaint =>
        complain argv complaint
        return 1
    return statuses.foldl max 0

/-- A path without the slashes at its end. -/
def withoutSlashes (path : String) : String := String.ofList (path.toList.reverse.dropWhile (· = '/')).reverse

/-- The last name along a path. -/
def lastName (path : String) : String := (Filesystem.components path).getLast?.getD path

/-- The beginnings of a path that end with one of its names, but for the whole of it, the shortest first. -/
def pathsAbove (path : String) : List String :=
  let inner := (withoutSlashes path).toList
  let ends := (List.range inner.length).filter fun i => 0 < i ∧ inner[i]? = some '/' ∧ inner[i - 1]? ≠ some '/'
  ends.map fun i => String.ofList (inner.take i)

/-- Finds a directory. -/
def findDirectory (name : String) : Call Machine Unit := do
  let m ← get
  if (m.files.directory? (← m.files.find m.self.directory name)).isNone then throw .notDirectory

/-- Makes a directory; the bits of the mask that are `spared` are not taken away. -/
def makeDirectory (spared : Nat) (name : String) : Call Machine Unit :=
  Machine.changeFiles fun m => m.files.makeDirectory m.self.directory (m.self.mask &&& (0o7777 - spared)) name 0o777

/-- Why there is no directory of a name that was to be made. -/
def makeRefusal (name : String) (e : Errno) : String := "cannot create directory " ++ cited name ++ ": " ++ e.systemText

/-- Makes a directory above another one, unless it exists. Its owner can always work in it. -/
def makeAbove (name : String) : UtilityM (Option String) := do
  match ← (makeDirectory 0o300 name).run, ← (findDirectory name).run with
  | _, .ok () => return none
  | .error e, .error .noEntry => return some (makeRefusal name e)
  | _, .error e => return some (makeRefusal name e)

/-- Makes a directory unless it exists. -/
def makeLast (name : String) : UtilityM (Option String) := do
  match ← (makeDirectory 0 name).run with
  | .ok () => return none
  | .error refusal =>
    match ← (findDirectory name).run with
    | .ok () => return none
    | .error e =>
      if refusal = .fileExists ∧ e ≠ .noEntry ∧ e ≠ .notDirectory then
        return some ("cannot stat " ++ cited name ++ ": " ++ e.systemText)
      else return some (makeRefusal name refusal)

/-- Makes a directory and those above it, as far as they do not exist. -/
def makePath (name : String) : UtilityM (Option String) := do
  for above in pathsAbove name do
    if let some complaint ← makeAbove above then return some complaint
  makeLast name

/-- Makes directories; `-p` makes those above them too. -/
def mkdir : Utility := fun argv => withFlags argv "p" 1 fun letters operands =>
  forOperands argv operands fun name => do
    if letters.contains 'p' then makePath name
    else match ← (makeDirectory 0 name).run with
      | .ok () => return none
      | .error e => return some (makeRefusal name e)

/-- Removes a directory, if it is empty. -/
def removeDirectory (name : String) : Call Machine Unit :=
  Machine.changeFiles fun m => m.files.removeDirectory m.self.directory name

/-- A link has been followed, to a directory or to nowhere, but not to another file. -/
def leadsOn : Except Errno Unit → Bool
  | .ok () => true
  | .error e => e ≠ .notDirectory

/-- Removes empty directories. A link to one stays, even with a slash after it. -/
def rmdir : Utility := fun argv => withFlags argv "" 1 fun _ operands =>
  forOperands argv operands fun name => do
    match ← (removeDirectory name).run, ← (findDirectory name).run with
    | .ok (), _ => return none
    | .error e, found =>
      let behindLink := e = .notDirectory ∧ Filesystem.endsWithSlash name ∧ leadsOn found
      return some ("failed to remove " ++ quoted name ++ ": " ++
        if behindLink then "Symbolic link not followed" else e.systemText)

/-- Why a file is not removed. -/
def removeRefusal (name : String) (e : Errno) : String :=
  let shownName := if name = withoutSlashes name then name else withoutSlashes name ++ "/"
  "cannot remove " ++ quoted shownName ++ ": " ++ e.systemText

/-- Why a directory is not removed with all that is in it: nobody asked for a tree, or its name or its place forbid that. -/
def treeRefusal? (argv : List String) (isTree : Bool) (name : String) (n : Nat) : Option String :=
  if !isTree then some (removeRefusal name .isDirectory)
  else if lastName name = "." ∨ lastName name = ".." then
    some ("refusing to remove '.' or '..' directory: skipping " ++ quoted name)
  else if n = 0 then
    some ("it is dangerous to operate recursively on " ++ quoted name ++ (if name = "/" then "" else " (same as '/')") ++
      "\n" ++ title argv ++ ": use --no-preserve-root to override this failsafe")
  else none

/-- Removes files: `-f` does not mind missing ones, and `-r` takes directories with all that is in them. -/
def rm : Utility := fun argv => withFlags argv "Rfr" 1 fun letters operands => do
  let forced := letters.contains 'f'
  let isTree := letters.contains 'r' || letters.contains 'R'
  if forced ∧ operands.isEmpty then return 0
  forOperands argv operands fun name => do
    let m ← Program.machine
    let directory? := (m.files.find m.self.directory name false).toOption.filter fun n => (m.files.directory? n).isSome
    if let some complaint := directory?.bind (treeRefusal? argv isTree name) then return some complaint
    let removal : Call Machine Unit := match directory? with
      | some n => do
        Machine.changeFiles fun m => .ok (m.files.clear m.files.nodes.length n)
        removeDirectory name
      | none => Machine.changeFiles fun m => m.files.unlink m.self.directory name
    match ← removal.run with
    | .ok () => return none
    | .error e =>
      if forced ∧ (e = .noEntry ∨ e = .notDirectory) then return none
      else
        return some (removeRefusal name e)

/-- Makes files that do not exist. A dash names standard output, which exists. -/
def touch : Utility := fun argv => withFlags argv "" 1 fun _ operands =>
  if operands.isEmpty then misuse argv 1 "missing file operand"
  else forOperands argv operands fun name => do
    if name = "-" then return none
    let making : Call Machine Unit := do
      Machine.close (← Machine.openFile name { access := .write, create := true } 0o666)
    match ← making.run with
    | .ok () => return none
    | .error e =>
      let m ← Program.machine
      match m.files.find m.self.directory name with
      | .ok _ => return none
      | .error missing =>
        if e = .isDirectory then return some ("setting times of " ++ quoted name ++ ": " ++ missing.systemText)
        else return some ("cannot touch " ++ quoted name ++ ": " ++ e.systemText)

/-- The order of names: that of their bytes. -/
def nameLe (a b : String) : Bool := !(b < a)

/-- The width of a line of columns. -/
def lineWidth : Nat := 80

/-- The width of each of `count` columns filled from top to bottom. All but the last have two blanks at their end. -/
def columnWidths (names : List String) (count : Nat) : List Nat :=
  let rows := (names.length + count - 1) / count
  (List.range count).map fun i =>
    (((names.drop (i * rows)).take rows).map String.length).foldl max 0 + (if i + 1 = count then 0 else 2)

/-- The largest number of columns that fit a line. -/
def columnCount (names : List String) : Nat :=
  ((List.range names.length).reverse.map (· + 1)).find? (fun count =>
    ((columnWidths names count).map (max 3)).foldl (· + ·) 0 < lineWidth) |>.getD 1

/-- Goes from one place of a line to another, over tab stops where there are any between. -/
def indent (start stop : Nat) : String :=
  if start ≥ stop then ""
  else if stop / 8 > (start + 1) / 8 then "\t" ++ indent ((start / 8 + 1) * 8) stop
  else " " ++ indent (start + 1) stop
termination_by stop - start
decreasing_by
  · omega
  · omega

/-- A row of columns; `place` is where its next name begins. -/
def columnRow (place : Nat) : List (String × Nat) → String
  | [] => ""
  | [(name, _)] => name
  | (name, width) :: rest =>
    name ++ indent (place + name.length) (place + width) ++ columnRow (place + width) rest

/-- Names in columns, filled from top to bottom. -/
def inColumns (names : List String) : String :=
  let count := columnCount names
  let rows := (names.length + count - 1) / count
  let widths := columnWidths names count
  String.join ((List.range rows).map fun row =>
    columnRow 0 (widths.zipIdx.filterMap fun (width, i) => names[i * rows + row]?.map (·, max width 3)) ++ "\n")

/-- The names of a directory that are shown, in order. -/
def visibleNames (letters : List Char) (d : Directory) : List String :=
  let names := d.entries.map Prod.fst
  let shown := if letters.contains 'a' then "." :: ".." :: names
    else if letters.contains 'A' then names
    else names.filter fun name => name.toList.head? ≠ some '.'
  shown.mergeSort nameLe

/-- What a listing shows for a path: what it leads to through links, if that is asked for and there is any such thing, or else
the link. -/
def findShown (m : Machine) (through : Bool) (name : String) : Except Errno Nat :=
  match m.files.find m.self.directory name through with
  | .error .noEntry | .error .tooManyLinks => m.files.find m.self.directory name false
  | found => found

/-- Lists directories, and files by their names. -/
def list (columns : Bool) : Utility := fun argv => withFlags argv "1ACad" 2 fun letters operands => do
  let columns := (columns || letters.contains 'C') && !letters.contains '1'
  let layout (names : List String) : UtilityM Unit :=
    if names.isEmpty then return ()
    else if columns then putText (inColumns names)
    else names.forM fun name => putText (name ++ "\n")
  let m ← Program.machine
  let mut status := 0
  let mut plain : List String := []
  let mut directories : List (String × Directory) := []
  for name in if operands.isEmpty then ["."] else operands do
    match findShown m (!letters.contains 'd') name with
    | .error e =>
      complain argv ("cannot access " ++ quoted name ++ ": " ++ e.systemText)
      status := 2
    | .ok n =>
      match m.files.directory? n, letters.contains 'd' with
      | some d, false => directories := directories ++ [(name, d)]
      | _, _ => plain := plain ++ [name]
  layout (plain.mergeSort nameLe)
  let mut gap := if plain.isEmpty then "" else "\n"
  for (name, d) in directories.mergeSort fun a b => nameLe a.1 b.1 do
    putText (gap ++ if operands.length > 1 then name ++ ":\n" else "")
    layout (visibleNames letters d)
    gap := "\n"
  return status

/-- Lists directories, a name a line. -/
def ls : Utility := list false

/-- Lists directories in columns. -/
def dir : Utility := list true

end Utility

end PipelineShell
