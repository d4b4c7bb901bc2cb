import PipelineShell.Host
import PipelineShell.Machine.Bytes

/-!
# The filesystem

Nodes are numbered and never reused: a file or directory that has lost its name lives on for whoever has it open or works in
it. `walk` follows a path from a directory, through symbolic links as far as their number allows, and `follow` begins it at
the root or at a working directory; `resolve` does so for paths of bounded length. Everything else is said in terms of these.
-/

namespace PipelineShell

/-- Files that the system answers for. -/
inductive Device where
  /-- Empty to a reader; takes whatever is written. -/
  | null
  /-- Zeros without end. -/
  | zero
  /-- Has no room for what is written. -/
  | full
  /-- What a descriptor of the process refers to. -/
  | descriptor (n : Nat)
  deriving DecidableEq, Repr

/-- A directory: its permission bits, its parent, whether it still has a name, whether names can be made in it, and its entries. -/
structure Directory where
  mode : Nat
  parent : Nat
  live : Bool := true
  /-- Names are not made in it. -/
  fixed : Bool := false
  entries : List (String × Nat) := []
  deriving DecidableEq, Repr

/-- What a number of the filesystem stands for. -/
inductive Node where
  | file (mode : Nat) (data : Bytes)
  | directory (d : Directory)
  /-- A symbolic link. -/
  | link (target : String)
  | device (d : Device)
  /-- A standard program, executable by everyone. -/
  | program (name : String)
  deriving DecidableEq, Repr

/-- A node that leads on to what a descriptor refers to, like a link. -/
def Node.isDescriptor : Node → Bool
  | .device (.descriptor _) => true
  | _ => false

/-- Where a path leads. -/
inductive Spot where
  /-- To a node, under a name in a directory. The name is empty where the path ends with `.`, `..` or the root. -/
  | found (node directory : Nat) (name : String)
  /-- To a name that its directory does not have. -/
  | missing (directory : Nat) (name : String)
  deriving DecidableEq, Repr

/-- All nodes, by number; the root is number 0. -/
structure Filesystem where
  nodes : List Node
  deriving DecidableEq, Repr

namespace Filesystem

/-- The longest name, in bytes. -/
def nameMax : Nat := 255

/-- Paths are shorter than this, in bytes. -/
def pathMax : Nat := 4096

/-- How many symbolic links one path may lead through. -/
def linkMax : Nat := 40

/-- The node of a number. -/
def node? (fs : Filesystem) (n : Nat) : Option Node := fs.nodes[n]?

/-- The directory of a number. -/
def directory? (fs : Filesystem) (n : Nat) : Option Directory :=
  match fs.node? n with
  | some (.directory d) => some d
  | _ => none

/-- The contents of the file of a number. -/
def contents? (fs : Filesystem) (n : Nat) : Option Bytes :=
  match fs.node? n with
  | some (.file _ data) => some data
  | _ => none

/-- Changes a node. -/
def setNode (fs : Filesystem) (n : Nat) (node : Node) : Filesystem := ⟨fs.nodes.set n node⟩

/-- Changes the contents of a file; anything else is left as it is. -/
def setContents (fs : Filesystem) (n : Nat) (data : Bytes) : Filesystem :=
  match fs.node? n with
  | some (.file mode _) => fs.setNode n (.file mode data)
  | _ => fs

/-- Adds a node. -/
def addNode (fs : Filesystem) (node : Node) : Nat × Filesystem := (fs.nodes.length, ⟨fs.nodes ++ [node]⟩)

/-- Changes the entries of a directory. -/
def mapEntries (fs : Filesystem) (n : Nat) (f : List (String × Nat) → List (String × Nat)) : Filesystem :=
  match fs.directory? n with
  | some d => fs.setNode n (.directory { d with entries := f d.entries })
  | none => fs

/-- Adds a node under a name. -/
def addEntry (fs : Filesystem) (directory : Nat) (name : String) (node : Node) : Nat × Filesystem :=
  let (n, fs) := fs.addNode node
  (n, fs.mapEntries directory (· ++ [(name, n)]))

/-- Takes a name away from a directory. -/
def removeEntry (fs : Filesystem) (directory : Nat) (name : String) : Filesystem :=
  fs.mapEntries directory (·.filter (·.1 ≠ name))

/-- The names along a path. -/
def components (path : String) : List String :=
  ((pieces (· = '/') path.toList).filter (!·.isEmpty)).map String.ofList

/-- A path begins at the root. -/
def isAbsolute (path : String) : Bool := path.toList.head? = some '/'

/-- A path asks for a directory by its last character. -/
def endsWithSlash (path : String) : Bool := path.toList.getLast? = some '/'

/-- How the last name of a path is taken. -/
structure LastName where
  /-- A symbolic link there is followed. -/
  follow : Bool
  /-- A file is made if there is none. -/
  create : Bool := false
  /-- The name itself is meant, whatever it stands for and even before a slash. -/
  bare : Bool := false
  /-- A slash comes after it, so that it can name nothing but a directory. -/
  slash : Bool := false
  deriving DecidableEq, Repr

/-- Follows names from a directory. `links` is how many symbolic links may still be followed. The target of a link at the end
of the path may end with a slash of its own. -/
def walk (fs : Filesystem) (last : LastName) (links : Nat) (directory : Nat) (names : List String) : Except Errno Spot :=
  match fs.directory? directory with
  | none => .error .notDirectory
  | some d =>
    match names with
    | [] => .ok (.found directory directory "")
    | name :: rest =>
      if name = "." then fs.walk last links directory rest
      else if name = ".." then fs.walk last links d.parent rest
      else if rest = [] ∧ last.create ∧ last.slash then .error .isDirectory
      else if name.utf8ByteSize > nameMax then .error .nameTooLong
      else match d.entries.lookup name with
        | none => if rest = [] then .ok (.missing directory name) else .error .noEntry
        | some n =>
          match fs.node? n with
          | some (.link target) =>
            if rest = [] ∧ !last.follow ∧ !last.slash then .ok (.found n directory name)
            else match links with
              | 0 => .error .tooManyLinks
              | links + 1 =>
                fs.walk { last with slash := last.slash || (rest.isEmpty && endsWithSlash target) } links
                  (if isAbsolute target then 0 else directory) (components target ++ rest)
          | _ =>
            if rest ≠ [] then fs.walk last links n rest
            else if last.slash ∧ (fs.directory? n).isNone then .error .notDirectory
            else .ok (.found n directory name)
termination_by (links, names.length)

/-- Follows a path of any length from a working directory. -/
def follow (fs : Filesystem) (working : Nat) (path : String) (last : LastName) : Except Errno Spot := do
  if path.toList.contains (Char.ofNat 0) then throw .invalid
  if path.isEmpty then throw .noEntry
  let start := if isAbsolute path then 0 else working
  fs.walk { last with slash := endsWithSlash path && !last.bare } linkMax start (components path)

/-- Follows a path that is not too long for the system. -/
def resolve (fs : Filesystem) (working : Nat) (path : String) (last : LastName) : Except Errno Spot := do
  if path.utf8ByteSize ≥ pathMax ∧ !path.toList.contains (Char.ofNat 0) then throw .nameTooLong
  fs.follow working path last

/-- The directory a path leads to, and the name it ends with there. -/
def locate (fs : Filesystem) (working : Nat) (path : String) : Except Errno Spot :=
  fs.resolve working path { follow := false, bare := true }

/-- The node a path leads to. -/
def find (fs : Filesystem) (working : Nat) (path : String) (followLast : Bool := true) : Except Errno Nat := do
  match ← fs.resolve working path { follow := followLast } with
  | .found n _ _ => return n
  | .missing _ _ => throw .noEntry

/-- The names that lead from the root to a directory, as long as it has them. -/
def namesTo (fs : Filesystem) : Nat → Nat → Option (List String)
  | 0, _ => none
  | fuel + 1, n =>
    if n = 0 then some []
    else do
      let d ← fs.directory? n
      let up ← fs.directory? d.parent
      let entry ← if d.live then up.entries.find? (·.2 = n) else none
      return (← fs.namesTo fuel d.parent) ++ [entry.1]

/-- The absolute path along names. -/
def absolutePath (names : List String) : String := "/" ++ "/".intercalate names

/-- The canonical path of a directory. -/
def pathTo (fs : Filesystem) (n : Nat) : Except Errno String :=
  match fs.namesTo (fs.nodes.length + 1) n with
  | some names => .ok (absolutePath names)
  | none => .error .noEntry

/-- The canonical path of what a path leads to, however long. -/
def canonicalize (fs : Filesystem) (working : Nat) (path : String) : Except Errno String := do
  match ← fs.follow working path { follow := true } with
  | .missing _ _ => throw .noEntry
  | .found n directory name =>
    if (fs.directory? n).isSome then fs.pathTo n
    else match fs.namesTo (fs.nodes.length + 1) directory with
      | some names => return absolutePath (names ++ [name])
      | none => throw .noEntry

/-- The bits of a new node that a mask leaves. -/
def masked (mask permissions : Nat) : Nat := (permissions % 0o10000) &&& (0o7777 - mask % 0o1000)

/-- Names can be made in a directory. -/
def takesNames (fs : Filesystem) (n : Nat) : Bool := (fs.directory? n).any fun d => d.live && !d.fixed

/-- Opens the node that stands at a path, changed as the flags ask. What a descriptor refers to is still to be opened. -/
def openFound (fs : Filesystem) (n : Nat) (flags : OpenFlags) : Except Errno (Nat × Filesystem) :=
  if flags.create ∧ flags.exclusive then .error .fileExists
  else match fs.node? n with
    | none => .error .noEntry
    | some (.directory _) =>
      if flags.pathOnly then .ok (n, fs)
      else if flags.create ∨ flags.truncate ∨ flags.access.asksToWrite then .error .isDirectory
      else if flags.direct then .error .invalid
      else .ok (n, fs)
    | some node =>
      if node.isDescriptor ∧ !flags.noFollow then .ok (n, fs)
      else if flags.directory then .error .notDirectory
      else if flags.pathOnly then .ok (n, fs)
      else match node with
        | .link _ | .device (.descriptor _) => .error .tooManyLinks
        | .file mode _ => .ok (n, if flags.truncate then fs.setNode n (.file mode []) else fs)
        | _ => if flags.direct then .error .invalid else .ok (n, fs)

/-- Makes a file without a name, if a node is a directory. -/
def openUnnamed (fs : Filesystem) (n mask permissions : Nat) : Except Errno (Nat × Filesystem) :=
  match fs.directory? n with
  | none => .error .notDirectory
  | some d => if d.fixed then .error .notSupported else .ok (fs.addNode (.file (masked mask permissions) []))

/-- Opens what a path leads to, or makes the file if the flags ask for it. -/
def openFile (fs : Filesystem) (working mask : Nat) (path : String) (flags : OpenFlags) (permissions : Nat) :
    Except Errno (Nat × Filesystem) := do
  if flags.contradict then throw .invalid
  let follow := !flags.noFollow && !(flags.create && flags.exclusive)
  match ← fs.resolve working path { follow, create := flags.create } with
  | .found n _ _ => if flags.unnamed then fs.openUnnamed n mask permissions else fs.openFound n flags
  | .missing directory name =>
    if flags.create ∧ fs.takesNames directory then
      return fs.addEntry directory name (.file (masked mask permissions) [])
    else throw .noEntry

/-- Makes a directory. -/
def makeDirectory (fs : Filesystem) (working mask : Nat) (path : String) (permissions : Nat) :
    Except Errno Filesystem := do
  match ← fs.locate working path with
  | .found _ _ _ => throw .fileExists
  | .missing directory name =>
    if fs.takesNames directory then
      return (fs.addEntry directory name (.directory { mode := masked mask permissions, parent := directory })).2
    else throw .noEntry

/-- Why the last name of a path cannot be removed where it is no name of its own. -/
def dotRefusal (path : String) : Errno :=
  match (components path).getLast? with
  | none => .busy
  | some ".." => .notEmpty
  | some _ => .invalid

/-- Removes an empty directory. -/
def removeDirectory (fs : Filesystem) (working : Nat) (path : String) : Except Errno Filesystem := do
  match ← fs.locate working path with
  | .missing _ _ => throw .noEntry
  | .found n directory name =>
    if name = "" then throw (dotRefusal path)
    else match fs.directory? n with
      | none => throw .notDirectory
      | some d =>
        if d.entries ≠ [] then throw .notEmpty
        else return (fs.removeEntry directory name).setNode n (.directory { d with live := false })

/-- Takes the name of a file away. -/
def unlink (fs : Filesystem) (working : Nat) (path : String) : Except Errno Filesystem := do
  match ← fs.locate working path with
  | .missing _ _ => throw .noEntry
  | .found n directory name =>
    if (fs.directory? n).isSome then throw .isDirectory
    else if endsWithSlash path then throw .notDirectory
    else return fs.removeEntry directory name

/-- Removes everything below a directory; `fuel` bounds its depth. -/
def clear (fs : Filesystem) : Nat → Nat → Filesystem
  | 0, _ => fs
  | fuel + 1, n =>
    match fs.directory? n with
    | none => fs
    | some d =>
      let emptied := d.entries.foldl (fun fs (_, m) =>
        match fs.directory? m with
        | none => fs
        | some inner => (fs.clear fuel m).setNode m (.directory { inner with live := false, entries := [] })) fs
      emptied.setNode n (.directory { d with entries := [] })

/-- The directories from `n` up to the root. -/
def ancestors (fs : Filesystem) : Nat → Nat → List Nat
  | 0, _ => []
  | fuel + 1, n => n :: (if n = 0 then [] else ((fs.directory? n).map fun d => fs.ancestors fuel d.parent).getD [])

/-- Gives a node a name in a directory, instead of the one it has. -/
def moveEntry (fs : Filesystem) (n source target : Nat) (oldName newName : String) : Filesystem :=
  let fs := (fs.removeEntry source oldName).mapEntries target fun entries =>
    entries.filter (·.1 ≠ newName) ++ [(newName, n)]
  match fs.directory? n with
  | some d => fs.setNode n (.directory { d with parent := target })
  | none => fs

/-- Renames a file or a directory. An `exclusive` name is one that must not exist yet. -/
def rename (fs : Filesystem) (working : Nat) (exclusive : Bool) (source target : String) : Except Errno Filesystem := do
  match ← fs.locate working source, ← fs.locate working target with
  | .found _ _ "", _ => throw .busy
  | _, .found _ _ "" => throw (if exclusive then .fileExists else .busy)
  | .missing _ _, _ => throw .noEntry
  | .found n up name, .missing directory newName =>
    if (fs.directory? n).isNone ∧ (endsWithSlash source ∨ endsWithSlash target) then throw .notDirectory
    else if n ∈ fs.ancestors fs.nodes.length directory then throw .invalid
    else if fs.takesNames directory then return fs.moveEntry n up directory name newName
    else throw .noEntry
  | .found n up name, .found m directory newName =>
    if exclusive then throw .fileExists
    else if (fs.directory? n).isNone ∧ (endsWithSlash source ∨ endsWithSlash target) then throw .notDirectory
    else if n ∈ fs.ancestors fs.nodes.length directory then throw .invalid
    else if m ∈ fs.ancestors fs.nodes.length up then throw .notEmpty
    else if n = m then return fs
    else match fs.directory? n, fs.directory? m with
      | some _, none => throw .notDirectory
      | none, some _ => throw .isDirectory
      | some _, some d =>
        if d.entries ≠ [] then throw .notEmpty
        else return (fs.setNode m (.directory { d with live := false })).moveEntry n up directory name newName
      | none, none => return fs.moveEntry n up directory name newName

/-- Everything below a directory: paths relative to it, with what stands there. -/
def listing (fs : Filesystem) : Nat → Nat → List (String × Node)
  | 0, _ => []
  | fuel + 1, n =>
    match fs.directory? n with
    | none => []
    | some d => d.entries.flatMap fun (name, m) =>
      match fs.node? m with
      | none => []
      | some node => (name, node) :: (fs.listing fuel m).map fun (path, inner) => (name ++ "/" ++ path, inner)

end Filesystem

end PipelineShell
