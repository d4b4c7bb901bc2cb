import PipelineShell.Environment
import PipelineShell.Options

/-!
# Commands that run inside the shell

A builtin recognises some names and arguments, and runs on the environment of the session, something to write to and the host. Its
failure is a chain of causes, the outermost first.
-/

namespace PipelineShell

/-- What a builtin writes to. -/
inductive Writer (σ : Type) where
  /-- A text that grows. -/
  | buffer (text : String)
  /-- Nothing can be written, for this reason. -/
  | broken (reason : String)
  /-- A stream of the host, which every text goes to at once. -/
  | stream (print : String → Call σ Unit)

/-- Why a builtin failed: the causes from the outermost to the root. -/
structure Failure where
  outer : String
  inner : List String := []
  deriving DecidableEq, Repr

/-- All causes of a failure. -/
def Failure.message (f : Failure) : String := ": ".intercalate (f.outer :: f.inner)

/-- The failure of a builtin that could not write to a stream. -/
def Failure.unwritten (e : Errno) : Failure := ⟨e.streamMessage, []⟩

/-- What a builtin acts on. -/
structure BuiltinState (σ : Type) where
  env : Environment
  writer : Writer σ
  host : σ

/-- The code of a builtin. -/
abbrev BuiltinM (σ α : Type) := ExceptT Failure (StateM (BuiltinState σ)) α

namespace BuiltinM

variable {σ α : Type}

/-- Acts on the host. -/
def onHost (action : StateM σ α) : BuiltinM σ α := ExceptT.mk fun state =>
  let (value, host) := action state.host
  (.ok value, { state with host })

/-- The environment. -/
def environment : BuiltinM σ Environment := do return (← get).env

/-- Changes the environment. -/
def modifyEnvironment (f : Environment → Environment) : BuiltinM σ Unit :=
  modify fun state => { state with env := f state.env }

/-- Writes to a stream of the host. -/
def print (call : Call σ Unit) : BuiltinM σ Unit := ExceptT.mk fun state =>
  let (printed, host) := call.run state.host
  (printed.mapError .unwritten, { state with host })

/-- Writes a text. That it cannot be written is a failure. -/
def write (text : String) : BuiltinM σ Unit := do
  match (← get).writer with
  | .buffer written => modify fun state => { state with writer := .buffer (written ++ text) }
  | .broken reason => throw ⟨reason, []⟩
  | .stream stream => print (stream text)

/-- Writes a line. -/
def writeLine (text : String) : BuiltinM σ Unit := write (text ++ "\n")

end BuiltinM

/-- A builtin: what it does for a name and arguments that it recognises. -/
structure Builtin (σ : Type) where
  create? : String → List String → Option (BuiltinM σ ExitCode)

/-- A builtin that declares its arguments. -/
structure DeclaredBuiltin (σ ρ : Type) where
  name : String
  arguments : Options.Spec ρ
  /-- The arguments before any has been read. -/
  initial : ρ
  run : ρ → BuiltinM σ ExitCode

/-- Runs code whose failure is reported by its outermost cause, with status 1. -/
def reporting {σ : Type} (host : Host σ) (code : BuiltinM σ ExitCode) : BuiltinM σ ExitCode := do
  try code
  catch failure =>
    BuiltinM.onHost (host.complain failure.outer)
    return 1

/-- The builtin of a declaration. Arguments that are refused are reported with status 1; the usage text is written with
status 0, and failing to write it is a failure of the builtin. -/
def DeclaredBuiltin.toBuiltin {σ ρ : Type} (host : Host σ) (d : DeclaredBuiltin σ ρ) : Builtin σ where
  create? name args :=
    if name = d.name then some (match d.arguments.read d.initial args with
      | .accepted record => reporting host (d.run record)
      | .help text => do
        BuiltinM.writeLine text
        return 0
      | .refused text => do
        BuiltinM.onHost (host.complain text)
        return 1)
    else none

end PipelineShell
