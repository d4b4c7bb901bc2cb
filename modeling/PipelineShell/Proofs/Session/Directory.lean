import PipelineShell.Proofs.Session.Standard
import PipelineShell.Proofs.Session.Steady

/-!
# The session's directory and that of its process

`cd` keeps two records of one thing: it moves the process, and it notes in the environment where to. `session_directory` says that
the two agree after every statement of a session with the standard builtins, whatever calls fail, and what each statement does to
them. The host is one on which a directory keeps its path while the process is in it.
-/

namespace PipelineShell

variable {σ α : Type}

/-- The path of the directory that the process is in, as the host names it. -/
def Host.directory (host : Host σ) (u : σ) : Except Errno String := (host.currentDirectory.run.run u).1

/-- A host on which directories are neither moved nor taken away: only changing to another directory changes the path of the one that
the process is in. The process is then where the canonical path leads, and stays where it was if it cannot go there. -/
structure Situated (host : Host σ) : Prop where
  pipe : Keeps host.directory host.pipe.run
  close (fd : Fd) : Keeps host.directory (host.close fd).run
  fork (stage : Stage) : Keeps host.directory (host.fork (stage.start host)).run
  wait (child : Pid) (option : WaitOption) : Keeps host.directory (host.wait child option).run
  complain (text : String) : Keeps host.directory (host.complain text)
  print (text : String) : Keeps host.directory (host.print text).run
  canonicalize (path : String) : Keeps host.directory (host.canonicalize path).run
  currentDirectory : Keeps host.directory host.currentDirectory.run
  environment : Keeps host.directory host.environment
  readLine (prompt : String) : Keeps host.directory (host.readLine prompt)
  lineBound : Keeps host.directory host.lineBound
  /-- The process is then in the directory that has this canonical path. -/
  moved {path directory : String} {u v w : σ} : (host.canonicalize path).run.run u = (.ok directory, v) →
    (host.changeDirectory directory).run.run v = (.ok (), w) → host.directory w = .ok directory
  barred {directory : String} {u v : σ} {e : Errno} :
    (host.changeDirectory directory).run.run u = (.error e, v) → host.directory v = host.directory u

/-- The environment says where the process is. -/
def InStep (host : Host σ) (s : Session σ) : Prop := host.directory s.host = .ok s.shell.env.currentDirectory

namespace Situated

open Builtin Shell

variable {host : Host σ} {s : Session σ} {u v : σ}

theorem poll (h : Situated host) (children : List Pid) : Keeps host.directory (poll host children) :=
  poll_keeps (fun child => h.wait child .poll) children

/-- Processes that are run leave the shell where it is. -/
theorem runProcesses (h : Situated host) (p : Pipeline) :
    Keeps (fun s : Session σ => (host.directory s.host, s.shell.env)) (runProcesses host p) :=
  keeps_runProcesses _ (Keeps.runPipeline h.pipe h.close h.fork h.wait · p ·) h.complain

/-- Looking up the target of `cd` moves nothing. -/
theorem directory_of_named (h : Situated host) {env : Environment} {target? named : Option String}
    (hnamed : (cdTarget host env target?).run u = (named, v)) : host.directory v = host.directory u := by
  have hkeeps : Keeps host.directory (cdTarget host env target?) := by
    unfold cdTarget
    split
    · exact .pure _
    · unfold Environment.getVar
      split
      · exact .pure _
      · exact .bind h.environment fun _ => .pure _
  have hlookup := hkeeps u
  rwa [hnamed] at hlookup

/-- The process is in the directory that it has entered. -/
theorem enter_ok (h : Situated host) {path directory : String} (henter : (enter host path).run.run u = (.ok directory, v)) :
    ((host.canonicalize path).run.run u).1 = .ok directory ∧ host.directory v = .ok directory := by
  rcases hcanonical : (host.canonicalize path).run.run u with ⟨_ | canonical, w⟩
  · rw [enter, run_bind_error hcanonical] at henter
    nomatch henter
  rw [enter, run_bind_ok hcanonical] at henter
  rcases hchange : (host.changeDirectory canonical).run.run w with ⟨_ | ⟨⟩, x⟩
  · rw [run_bind_error hchange] at henter
    nomatch henter
  rw [run_bind_ok hchange] at henter
  cases henter
  exact ⟨rfl, h.moved hcanonical hchange⟩

/-- It stays where it is if it cannot. -/
theorem enter_error (h : Situated host) {path : String} {e : Errno} (henter : (enter host path).run.run u = (.error e, v)) :
    host.directory v = host.directory u := by
  have hcanonicalize := h.canonicalize path u
  rcases hcanonical : (host.canonicalize path).run.run u with ⟨_ | canonical, w⟩
  · rw [enter, run_bind_error hcanonical] at henter
    cases henter
    rwa [hcanonical] at hcanonicalize
  rw [enter, run_bind_ok hcanonical] at henter
  rw [hcanonical] at hcanonicalize
  rcases hchange : (host.changeDirectory canonical).run.run w with ⟨_ | ⟨⟩, x⟩
  · rw [run_bind_error hchange] at henter
    cases henter
    exact (h.barred hchange).trans hcanonicalize
  · rw [run_bind_ok hchange] at henter
    nomatch henter

/-- Printing moves nothing, however far it comes. -/
theorem directory_of_printed (h : Situated host) {lines : List String} {printed : Except Errno Unit}
    (hprinted : (printLines host lines).run.run u = (printed, v)) : host.directory v = host.directory u := by
  have hkeeps : Keeps host.directory (printLines host lines).run := by
    clear hprinted
    induction lines with
    | nil => exact .pure _
    | cons line rest ih =>
      rw [printLines_cons, ExceptT.run_bind]
      refine .bind (h.print _) fun printed => ?_
      cases printed with
      | error e => exact .pure _
      | ok _ => exact ih
  have hlines := hkeeps u
  rwa [hprinted] at hlines

/-- So does printing a single text. -/
theorem directory_of_print (h : Situated host) {text : String} {printed : Except Errno Unit}
    (hprinted : (host.print text).run.run u = (printed, v)) : host.directory v = host.directory u := by
  have hprint := h.print text u
  rwa [hprinted] at hprint

/-- What a builtin does keeps the environment in step with the process. -/
theorem inStep_of_does (h : Situated host) {r : Request} {outcome : Except Failure ExitCode} {state after : BuiltinState σ}
    (hdoes : r.Does host state outcome after) (hin : host.directory state.host = .ok state.env.currentDirectory) :
    host.directory after.host = .ok after.env.currentDirectory := by
  cases hdoes with
  | leave code => exact hin
  | unset hnamed => exact (h.complain _ _).trans ((h.directory_of_named hnamed).trans hin)
  | barred hnamed hentered =>
    exact (h.complain _ _).trans ((h.enter_error hentered).trans ((h.directory_of_named hnamed).trans hin))
  | moved hnamed hentered => exact (h.enter_ok hentered).2
  | told hprinted => exact (h.directory_of_printed hprinted).trans hin
  | untold hprinted => exact (h.complain _ _).trans ((h.directory_of_printed hprinted).trans hin)
  | helped hprinted | unhelped hprinted => exact (h.directory_of_print hprinted).trans hin
  | refuse text => exact (h.complain _ _).trans hin

/-- Reporting what has come of a builtin moves nothing. -/
theorem directory_afterBuiltin (h : Situated host) (s : Session σ) (c : Command) (outcome : Except Failure ExitCode)
    (after : BuiltinState σ) : host.directory (s.afterBuiltin host c outcome after).host = host.directory after.host := by
  cases outcome with
  | ok code => rfl
  | error failure => exact h.complain _ _

/-- Whatever a statement does, the environment stays in step with the process. -/
theorem runStatement_inStep (h : Situated host) (hbuiltins : s.shell.builtins = standard host) (hin : InStep host s)
    (statement : Statement) : InStep host ((runStatement host statement).run s).2 := by
  cases statement with
  | discarded e => exact (h.complain _ _).trans hin
  | ready p =>
    rw [runStatement]
    cases hr : p.single?.bind (Command.request? host) with
    | none =>
      obtain ⟨hdirectory, henv⟩ := Prod.mk.inj (h.runProcesses p s)
      rw [runReady_processes hbuiltins hr, InStep, hdirectory, henv]
      exact hin
    | some r =>
      obtain ⟨c, outcome, after, hdoes, hrun⟩ := runReady_request hbuiltins hr
      rw [hrun, InStep, h.directory_afterBuiltin, s.env_afterBuiltin]
      exact h.inStep_of_does hdoes hin

end Situated

/-! ## Through a session -/

/-- A session with the standard builtins whose environment says where the process is. -/
structure Settled (host : Host σ) (s : Session σ) : Prop where
  builtins : s.shell.builtins = Builtin.standard host
  inStep : InStep host s

namespace Situated

open Shell

variable {host : Host σ}

theorem ensures_onHost {c : StateM σ α} (hc : Keeps host.directory c) :
    Ensures (Settled host) (onHost c) fun _ => Settled host :=
  fun s hs => ⟨hs.builtins, (hc s.host).trans hs.inStep⟩

theorem ensures_runStatement (h : Situated host) (statement : Statement) :
    Ensures (Settled host) (runStatement host statement) fun _ => Settled host :=
  fun s hs => ⟨(congrArg (·.1) (KeepsSetup.runStatement host statement s)).trans hs.builtins,
    h.runStatement_inStep hs.builtins hs.inStep statement⟩

/-- A new shell begins in step, if the path of the directory that it is started in can be told. -/
theorem settled_new (h : Situated host) (limits : Limits) (wait : WaitMode) {u : σ} {path : String}
    (hu : host.directory u = .ok path) :
    let made := (Shell.new host (Builtin.standard host) limits wait).run u
    Settled host { shell := made.1, host := made.2 } := by
  intro made
  have hasked : host.directory made.2 = .ok path :=
    (h.currentDirectory _).trans ((h.environment u).trans hu)
  have hnoted : made.1.env.currentDirectory = path := by
    obtain ⟨v, hread⟩ : ∃ v, host.currentDirectory.run.run (host.environment.run u).2 = (.ok path, v) :=
      ⟨_, Prod.ext ((h.environment u).trans hu) rfl⟩
    change ((Environment.capture host).run u).1.currentDirectory = path
    unfold Environment.capture
    rw [run_bind_of_run (Prod.eta _).symm, run_bind_of_run hread]
    rfl
  exact ⟨rfl, hasked.trans (congrArg Except.ok hnoted).symm⟩

theorem settled_reaped (h : Situated host) {s : Session σ} (hs : Settled host s) : Settled host (s.reaped host) :=
  ⟨hs.builtins, (h.poll _ _).trans hs.inStep⟩

theorem ensures_executeLine (h : Situated host) (line : String) :
    Ensures (Settled host) (executeLine host line) fun _ => Settled host :=
  Shell.ensures_executeLine h.ensures_runStatement (fun _ => h.settled_reaped)
    (fun text _ hs => ensures_onHost (h.complain text) _ hs) line

end Situated

end PipelineShell
