import PipelineShell.Main
import PipelineShell.Builtin.Scripted
import PipelineShell.Line.Edit
import PipelineShell.Machine.Process
import PipelineShell.Machine.Program
import PipelineShell.Proofs.Line.Acceptance
import PipelineShell.Proofs.Executor.Stragglers
import PipelineShell.Proofs.Executor.LaunchTables
import PipelineShell.Proofs.Line.Isolation
import PipelineShell.Proofs.Line.Writing
import PipelineShell.Proofs.Session.ExecuteLine
import PipelineShell.Proofs.Executor.ClosedInput
import PipelineShell.Proofs.Line.Effect
import PipelineShell.Proofs.Line.Ready
import PipelineShell.Proofs.Line.Broken
import PipelineShell.Proofs.Line.Joining
import PipelineShell.Proofs.Executor.Bookkeeping
import PipelineShell.Proofs.Session.LineBreaks
import PipelineShell.Proofs.Line.Completion
import PipelineShell.Proofs.Executor.Fates
import PipelineShell.Proofs.Session.Directory
import PipelineShell.Proofs.Session.ExitStatus
import PipelineShell.Proofs.Line.FirstBreach
import PipelineShell.Proofs.Line.Padding
import PipelineShell.Proofs.Executor.Rebinding
import PipelineShell.Proofs.Executor.FailedSetup
import PipelineShell.Proofs.Executor.OutputRuns
import PipelineShell.Proofs.Session.Unpassable
import PipelineShell.Proofs.Line.StageNames
import PipelineShell.Proofs.Line.Agreement
