import PipelineShell.Utility.Directory

/-!
# The program that renames files: `mv`

A file first tries for a name that nothing has. Where that fails it takes the place of what is there, unless both are the same
file, or one is a directory and the other is none.
-/

namespace PipelineShell

namespace Utility

/-- The path of a name in a directory. -/
def pathIn (directory name : String) : String :=
  if withoutSlashes directory = "" then directory ++ name else withoutSlashes directory ++ "/" ++ name

/-- A file is the same as what stands at another path, so that it cannot take its place. Anything else may take the place of a
link, and a link that of anything but the file it leads to. -/
def isSameFile (m : Machine) (source : String) (n other : Nat) : Bool :=
  match m.files.node? n, m.files.node? other with
  | some (.link _), some (.link _) => n = other
  | _, some (.link _) => false
  | some (.link _), _ => (m.files.find m.self.directory source).toOption = some other
  | _, _ => n = other

/-- Why a file cannot take the place of another one. Those that were `made` by the same program are kept. -/
def replaceRefusal? (m : Machine) (made : List String) (source target : String) (n other : Nat) : Option String :=
  if isSameFile m source n other then some (quoted source ++ " and " ++ quoted target ++ " are the same file")
  else match m.files.directory? n, m.files.directory? other with
    | some _, none => some ("cannot overwrite non-directory " ++ quoted target ++ " with directory " ++ quoted source)
    | none, some _ => some ("cannot overwrite directory " ++ quoted target ++ " with non-directory")
    | none, none =>
      if made.contains target then
        some ("will not overwrite just-created " ++ quoted target ++ " with " ++ quoted source)
      else none
    | some _, some _ => none

/-- Why the system does not rename a file. -/
def moveRefusal (source target : String) (e : Errno) : String :=
  if e = .invalid then "cannot move " ++ quoted source ++ " to a subdirectory of itself, " ++ quoted target
  else "cannot move " ++ quoted source ++ " to " ++ quoted target ++ ": " ++ e.systemText

/-- The place an empty target stands for: the working directory. -/
def placeOf (target : String) : String := if target.isEmpty then "." else target

/-- Has the system rename a file. -/
def renameTo (exclusive : Bool) (source target : String) : Call Machine Unit :=
  Machine.changeFiles fun m => m.files.rename m.self.directory exclusive source (placeOf target)

/-- Puts a file in the place of what is there, after it could not have the name alone. -/
def replace (made : List String) (source target : String) (refusal : Errno) : UtilityM (Option String) := do
  let m ← Program.machine
  match m.files.find m.self.directory source false, m.files.find m.self.directory (placeOf target) false with
  | .error e, _ => return some ("cannot stat " ++ quoted source ++ ": " ++ e.systemText)
  | _, .error .noEntry => return some (moveRefusal source target refusal)
  | _, .error e => return some ("cannot stat " ++ quoted target ++ ": " ++ e.systemText)
  | .ok n, .ok other =>
    if let some complaint := replaceRefusal? m made source target n other then return some complaint
    match ← (renameTo false source target).run with
    | .ok () => return none
    | .error e => return some (moveRefusal source target e)

/-- Renames one file. -/
def moveOne (made : List String) (source target : String) : UtilityM (Option String) := do
  match ← (renameTo true source target).run with
  | .ok () => return none
  | .error e => replace made source target e

/-- Renames files, each to its target, and complains of those that stay. -/
def moveAll (argv : List String) (moves : List (String × String)) : UtilityM Nat := do
  let mut status := 0
  let mut made : List String := []
  for (source, target) in moves do
    match ← moveOne made source target with
    | none => made := target :: made
    | some complaint =>
      complain argv complaint
      status := 1
  return status

/-- Renames a file, or moves files into a directory. -/
def mv : Utility := fun argv => withFlags argv "f" 1 fun _ operands => do
  match operands.reverse with
  | [] => misuse argv 1 "missing file operand"
  | [source] => misuse argv 1 ("missing destination file operand after " ++ quoted source)
  | target :: source :: others =>
    let sources := (source :: others).reverse
    match ← (findDirectory target).run with
    | .ok () => moveAll argv (sources.map fun source => (source, pathIn target (lastName source)))
    | .error e =>
      if others.isEmpty then moveAll argv [(source, target)]
      else
        complain argv ("target " ++ quoted target ++ ": " ++ e.systemText)
        return 1

end Utility

end PipelineShell
