import PipelineShell.Kernel.Host

/-!
# Running code between given input and captured output
-/

namespace PipelineShell

namespace Kernel

/-- Adds a file without a name, opened for reading and writing: its node and what a descriptor of it refers to. -/
def addScratch (data : Bytes) : StateM Kernel (Nat × Handle) := onMachine do
  let m ← get
  let (node, files) := m.files.addNode (.file 0o600 data)
  let file : OpenFile := { node, access := .readWrite, append := false }
  set { m with files, opened := m.opened ++ [file] }
  return (node, .file m.opened.length)

/-- The result of code with what was written to standard output and standard error meanwhile. -/
structure Captured (α : Type) where
  value : α
  output : Bytes
  complaints : Bytes

/-- Runs code with three descriptors: the input, which may be closed, and captures of standard output and standard error.
Nothing has been read of the input. -/
def capture {α : Type} (input : Option Handle) (code : StateM Kernel α) : StateM Kernel (Captured α) := do
  let (outputNode, output) ← addScratch []
  let (complaintNode, complaints) ← addScratch []
  onMachine (Machine.modifySelf fun t => { t with descriptors := ⟨[input, some output, some complaints]⟩ })
  modify fun s => { s with unread := [] }
  let value ← code
  let files := (← get).machine.files
  return ⟨value, (files.contents? outputNode).getD [], (files.contents? complaintNode).getD []⟩

end Kernel

end PipelineShell
