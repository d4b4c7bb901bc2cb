import PipelineShell.Machine.Basic
import PipelineShell.Utility.Standard

/-!
# The machine before anything runs

The directories, devices and standard programs that every machine has.
-/

namespace PipelineShell

namespace Machine

/-- What is to stand at a path. -/
inductive Item where
  | directory (mode : Nat)
  /-- A directory in which names are not made. -/
  | fixed (mode : Nat)
  | node (n : Node)
  deriving DecidableEq, Repr

/-- Puts an item at a path below a directory, with the directories that lead to it. -/
def place (files : Filesystem) (directory : Nat) (item : Item) : List String → Filesystem
  | [] => files
  | [name] =>
    match item, (files.directory? directory).bind (·.entries.lookup name) with
    | .directory mode, none => (files.addEntry directory name (.directory { mode, parent := directory })).2
    | .fixed mode, none => (files.addEntry directory name (.directory { mode, parent := directory, fixed := true })).2
    | .directory _, some _ | .fixed _, some _ => files
    | .node n, none => (files.addEntry directory name n).2
    | .node n, some old => files.setNode old n
  | name :: rest =>
    match (files.directory? directory).bind (·.entries.lookup name) with
    | some n => place files n item rest
    | none =>
      let (n, files) := files.addEntry directory name (.directory { mode := 0o755, parent := directory })
      place files n item rest

/-- The names of the standard programs. -/
def programNames : List String := "sh" :: Utility.names

/-- What stands where in the beginning. -/
def standardItems : List (String × Item) :=
  ["etc", "home", "opt", "root", "srv", "usr/bin", "usr/lib", "usr/local/bin", "usr/sbin", "usr/share", "var"].map
    (fun path => (path, .directory 0o755)) ++
  ["bin", "lib", "sbin"].map (fun name => (name, .node (.link ("usr/" ++ name)))) ++
  [("tmp", .directory 0o1777), ("dev/null", .node (.device .null)), ("dev/zero", .node (.device .zero)),
    ("dev/full", .node (.device .full)), ("dev/random", .node (.device .zero)),
    ("dev/urandom", .node (.device .zero)), ("dev/fd", .node (.link "/proc/self/fd")),
    ("dev/stdin", .node (.link "/proc/self/fd/0")), ("dev/stdout", .node (.link "/proc/self/fd/1")),
    ("dev/stderr", .node (.link "/proc/self/fd/2")), ("proc", .fixed 0o555), ("proc/self", .fixed 0o555),
    ("proc/self/fd", .fixed 0o500)] ++
  (List.range 10).map (fun n => ("proc/self/fd/" ++ toString n, .node (.device (.descriptor n)))) ++
  programNames.map fun name => ("usr/bin/" ++ name, .node (.program name))

/-- Puts items at paths below a directory. -/
def placeAll (files : Filesystem) (directory : Nat) (items : List (String × Item)) : Filesystem :=
  items.foldl (fun files entry => place files directory entry.2 (Filesystem.components entry.1)) files

/-- A filesystem with a root directory only. -/
def emptyFiles : Filesystem := ⟨[.directory { mode := 0o755, parent := 0 }]⟩

/-- A machine with everything that is standard. -/
def initial : Machine := { files := placeAll emptyFiles 0 standardItems }

end Machine

end PipelineShell
