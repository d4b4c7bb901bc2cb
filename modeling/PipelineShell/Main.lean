import PipelineShell.CommandLine
import PipelineShell.Machine.Initial
import PipelineShell.Kernel.Capture

/-!
# The program

The shell on a fresh machine. The text on standard input is on the standard input of the machine's shell, and what is written
there is written here.
-/

namespace PipelineShell

/-- Runs a command line on a fresh machine, in its directory `/home`. -/
def runFresh (words : List String) (input : Bytes) : Kernel.Captured Nat :=
  let session : StateM Kernel (Kernel.Captured Nat) := do
    Kernel.onMachine (Machine.modifySelf fun t =>
      { t with environment := [("PATH", "/usr/local/bin:/usr/bin:/bin"), ("HOME", "/home")], mask := 0o022 })
    let _ ← (Kernel.call (Machine.changeDirectory "/home")).run
    let (_, handle) ← Kernel.addScratch input
    Kernel.capture (some handle) do
      let status ← CommandLine.run Kernel.host words
      Kernel.settle
      return status
  (session.run { machine := Machine.initial }).1

/-- Reads a stream to its end. -/
partial def readToEnd (stream : IO.FS.Stream) (before : ByteArray) : IO ByteArray := do
  let chunk ← stream.read 65536
  if chunk.isEmpty then return before else readToEnd stream (before ++ chunk)

end PipelineShell

/-- Runs the command line of the process. -/
def main (words : List String) : IO UInt32 := do
  let input ← PipelineShell.readToEnd (← IO.getStdin) ByteArray.empty
  let done := PipelineShell.runFresh words input.toList
  (← IO.getStdout).write done.output.toByteArray
  (← IO.getStderr).write done.complaints.toByteArray
  return UInt32.ofNat done.value
