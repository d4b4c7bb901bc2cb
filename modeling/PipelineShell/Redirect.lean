import PipelineShell.Host

/-!
# Rebinding a descriptor onto a file

Done in a freshly forked child, before it becomes its program.
-/

namespace PipelineShell

namespace Redirect

/-- The flags an output file is opened with. -/
def outputFlags (mode : OutputMode) : OpenFlags :=
  { access := .readWrite, create := true, truncate := mode = .truncate, append := mode = .append }

/-- The permission bits of a new output file, before the mask: everyone may read and write. -/
def outputPermissions : Nat := 0o666

/-- The permission bits passed with an input file, which is never created. -/
def inputPermissions : Nat := 0o400

/-- Opens a file and makes it available as `fd`. If the new descriptor is `fd` already, nothing is left to do; otherwise it
is duplicated there and closed again. -/
def stream {σ : Type} (host : Host σ) (fd : Fd) (path : String) (flags : OpenFlags) (permissions : Nat) : Call σ Unit := do
  let opened ← host.openFile path flags permissions
  if opened = fd then return ()
  ExceptT.mk do
    let duplicated ← (host.dup2 opened fd).run
    let closed ← (host.close opened).run
    return closed.bind fun () => duplicated

/-- Reads standard input from a file. -/
def input {σ : Type} (host : Host σ) (path : String) : Call σ Unit :=
  stream host standardInput path { access := .read } inputPermissions

/-- Sends standard output to a file. -/
def output {σ : Type} (host : Host σ) (path : String) (mode : OutputMode) : Call σ Unit :=
  stream host standardOutput path (outputFlags mode) outputPermissions

end Redirect

end PipelineShell
