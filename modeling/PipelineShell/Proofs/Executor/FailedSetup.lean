import PipelineShell.Proofs.Executor.Fates
import PipelineShell.Proofs.Executor.Rebinding
import PipelineShell.Proofs.Executor.Setup
import PipelineShell.Proofs.Line.Grammar

/-!
# What a failed setup leaves alone

A child is set up on a copy of its parent, so whatever becomes of it the launch goes on as it would have (`Host.Detached.launch`). The
calls of its setup stop at the first that fails, after which only the pipe ends that it still has are closed. Opening the input file
comes first: if that fails the output file is not touched, and the pipeline comes to one of the few results that `Unfed` lists
(`Host.Reports.runPipeline_of_unopenable`).
-/

namespace PipelineShell

variable {σ ω ξ : Type}

/-! ## The parent and the other stages -/

/-- What `own` shows is all that the parent's calls depend on, and what a child does is not seen in it. -/
structure Host.Detached (host : Host σ) (own : σ → ω) : Prop where
  pipe : Agree (fun s t => own s = own t) host.pipe.run host.pipe.run
  close : ∀ fd, Agree (fun s t => own s = own t) (host.close fd).run (host.close fd).run
  fork : ∀ code code', Agree (fun s t => own s = own t) (host.fork code).run (host.fork code').run

/-- A host on which every child does something else. -/
def Host.withChildren (host : Host σ) (alter : StateM σ Departure → StateM σ Departure) : Host σ :=
  { host with fork := fun code => host.fork (alter code) }

/-- Whatever the children do, the same ones are started and the parent goes on the same. -/
theorem Host.Detached.launch {host : Host σ} {own : σ → ω} (h : host.Detached own) (alter : StateM σ Departure → StateM σ Departure)
    (pipeline : Pipeline) : Agree (fun s t => own s = own t) (launch host pipeline) (launch (host.withChildren alter) pipeline) := by
  have hpipe : Agree (fun s t => own s = own t) host.pipe.run (host.withChildren alter).pipe.run := h.pipe
  have hfork (stage : Stage) : Agree (fun s t => own s = own t) (host.fork (stage.start host)).run
      ((host.withChildren alter).fork (stage.start (host.withChildren alter))).run := h.fork _ _
  exact .launchFrom hpipe h.close hfork pipeline 0 none _

/-! ## An input file that cannot be opened -/

/-- `seen` shows of a state what is left alone by a file that could not be opened for reading and by a report of that. It shows nothing
of a child that leaves it alone, and of a child that has ended a wait says so; only who would not wait may come too early. -/
structure Host.Reports (host : Host σ) (seen : σ → ω) : Prop where
  notOpened {path : String} {permissions : Nat} {s t : σ} {e : Errno} :
    (host.openFile path { access := .read } permissions).run.run s = (.error e, t) → seen t = seen s
  complain : ∀ text, Keeps seen (host.complain text)
  notForked {code : StateM σ Departure} {s t : σ} {e : Errno} : (host.fork code).run.run s = (.error e, t) → seen t = seen s
  forked {code : StateM σ Departure} {s t : σ} {child : Pid} {status : Nat} : (host.fork code).run.run s = (.ok child, t) →
    status < 256 → (∀ b, seen b = seen s → (code.run b).1 = .exited status ∧ seen (code.run b).2 = seen s) →
      ∀ option, ∃ u, seen u = seen s ∧
        ((host.wait child option).run.run t = (.ok (.exited status), u) ∨
          option = .poll ∧ (host.wait child option).run.run t = (.ok .stillAlive, u))

/-- The file cannot be opened for reading in a state that shows the same as `s`. -/
def Host.Unopenable (host : Host σ) (seen : σ → ω) (path : String) (s : σ) : Prop :=
  ∀ b, seen b = seen s → ∃ e, ((host.openFile path { access := .read } Redirect.inputPermissions).run.run b).1 = .error e

/-- What running a pipeline of one stage can come to that has no input to read. -/
inductive Unfed (host : Host σ) (mode : WaitMode) (p : Pipeline) (stragglers : Stragglers) (s : σ) : PipelineResult → Prop where
  /-- An argument cannot be passed on. -/
  | refused {program : String} {position : Nat} :
      ¬ p.NulFree → Unfed host mode p stragglers s ⟨.error (.invalidArgument program position), stragglers⟩
  /-- There is no child. -/
  | notLaunched {e : ExecError} : p.NulFree → ((launch host p).run s).1.failure = some e →
      Unfed host mode p stragglers s ⟨.error e, stragglers⟩
  /-- The child has ended, with the status that says that it was not set up. -/
  | ended : p.NulFree → ((launch host p).run s).1.failure = none → Unfed host mode p stragglers s ⟨.ok 1, stragglers⟩
  /-- The child was not waited for. -/
  | left : p.NulFree → ((launch host p).run s).1.failure = none → mode = .poll →
      Unfed host mode p stragglers s ⟨.ok 0, stragglers ++ ((launch host p).run s).1.children⟩

/-! ### Pipelines of one stage -/

/-- The stage of a pipeline that has one. -/
def Stage.alone (command : Command) (input : Option String) (output : Option OutputTarget) : Stage :=
  ⟨⟨[command], input, output⟩, 0, command.argv, none, none⟩

/-- The launch that is one fork. -/
def Launch.ofFork : Except Errno Pid → Launch
  | .error e => ⟨[], some (.fork e)⟩
  | .ok child => ⟨[child], none⟩

section

variable {host : Host σ} {mode : WaitMode} {command : Command} {input : Option String} {output : Option OutputTarget}
  {stragglers : Stragglers} {child : Pid} {s t : σ}

/-- A launch of one stage is a fork. -/
theorem launch_alone {forked : Except Errno Pid}
    (h : (host.fork ((Stage.alone command input output).start host)).run.run s = (forked, t)) :
    (launch host ⟨[command], input, output⟩).run s = (.ofFork forked, t) := by
  show (launchFrom host _ 0 none [command.argv]).run s = _
  rw [launchFrom_cons]
  have hopened : (openOutlet host []).run s = (.ok none, s) := rfl
  rw [run_bind_of_run hopened]
  refine (run_bind_of_run h _).trans ?_
  cases forked <;> rfl

theorem runPipeline_of_notForked {e : Errno} (hnul : Pipeline.NulFree ⟨[command], input, output⟩)
    (h : (host.fork ((Stage.alone command input output).start host)).run.run s = (.error e, t)) :
    (runPipeline host mode ⟨[command], input, output⟩ stragglers).run s = (⟨.error (.fork e), stragglers⟩, t) := by
  unfold runPipeline
  rw [hnul.findSome?_invalid?]
  refine (run_bind_of_run (launch_alone h) _).trans ?_
  show (PipelineResult.mk (.error (.fork e)) (stragglers ++ []), t) = _
  rw [List.append_nil]

/-- A child that the wait on it goes past makes the result. -/
theorem runPipeline_of_forked {u : σ} {answer : WaitAnswer} (hnul : Pipeline.NulFree ⟨[command], input, output⟩)
    (h : (host.fork ((Stage.alone command input output).start host)).run.run s = (.ok child, t))
    (hwait : (host.wait child mode.option).run.run t = (answer, u)) (hanswer : goesOn answer = true) :
    (runPipeline host mode ⟨[command], input, output⟩ stragglers).run s =
      (⟨.ok (codeOf answer), stragglers ++ keptAfter child answer⟩, u) := by
  unfold runPipeline
  rw [hnul.findSome?_invalid?]
  refine (run_bind_of_run (launch_alone h) _).trans ?_
  show (collect host mode stragglers 0 [(child, command)]).run t = _
  rw [collect_cons, run_bind_of_run hwait, if_pos hanswer]
  rfl

end

namespace Host.Reports

variable {host : Host σ} {seen : σ → ω}

/-- Without its input file the only stage of a pipeline ends with status 1, before it has done anything that is seen. -/
theorem start_of_unopenable (h : host.Reports seen) (command : Command) {path : String} (output : Option OutputTarget) {s : σ}
    (hopen : host.Unopenable seen path s) (b : σ) (hb : seen b = seen s) :
    (((Stage.alone command (some path) output).start host).run b).1 = .exited 1 ∧
      seen (((Stage.alone command (some path) output).start host).run b).2 = seen s := by
  obtain ⟨e, he⟩ := hopen b hb
  rcases hfailed : (host.openFile path { access := .read } Redirect.inputPermissions).run.run b with ⟨opened, u⟩
  obtain rfl : opened = .error e := by rwa [hfailed] at he
  have hfirst : (Redirect.input host path).run.run b = (.error e, u) := Redirect.stream_of_notOpened hfailed
  have hsteps : (Stage.alone command (some path) output).setupSteps =
      ⟨.redirectInput path, []⟩ :: output.toList.map fun target => ⟨.redirectOutput target, []⟩ := by cases output <;> rfl
  obtain ⟨failure, t, hattempts, hrun⟩ := (Stage.alone command (some path) output).start_run host b
  rw [hsteps] at hattempts
  rw [hrun]
  cases hattempts with
  | failed hcall =>
    cases hcall.symm.trans hfirst
    have hkept : seen u = seen s := (h.notOpened hfailed).trans hb
    exact ⟨rfl, (h.complain _ u).trans hkept⟩
  | made hcall _ => cases hcall.symm.trans hfirst

/-- A stage without its input file leaves everything seen alone, and the pipeline that it is comes to one of the results listed. -/
theorem runPipeline_of_unopenable (h : host.Reports seen) (mode : WaitMode) (command : Command) {path : String}
    (output : Option OutputTarget) (stragglers : Stragglers) {s : σ} (hopen : host.Unopenable seen path s) :
    seen ((runPipeline host mode ⟨[command], some path, output⟩ stragglers).run s).2 = seen s ∧
    Unfed host mode ⟨[command], some path, output⟩ stragglers s
      ((runPipeline host mode ⟨[command], some path, output⟩ stragglers).run s).1 := by
  by_cases hnul : Pipeline.NulFree ⟨[command], some path, output⟩
  · rcases hfork : (host.fork ((Stage.alone command (some path) output).start host)).run.run s with ⟨e | child, t⟩
    · rw [runPipeline_of_notForked hnul hfork]
      exact ⟨h.notForked hfork, .notLaunched hnul (congrArg (·.1.failure) (launch_alone hfork))⟩
    · have hfailure : ((launch host ⟨[command], some path, output⟩).run s).1.failure = none :=
        congrArg (·.1.failure) (launch_alone hfork)
      have hchildren : ((launch host ⟨[command], some path, output⟩).run s).1.children = [child] :=
        congrArg (·.1.children) (launch_alone hfork)
      have hchild := h.start_of_unopenable command output hopen
      obtain ⟨u, hu, hanswer | ⟨hpoll, hanswer⟩⟩ := h.forked hfork (by decide) hchild mode.option
      · rw [runPipeline_of_forked hnul hfork hanswer rfl]
        refine ⟨hu, ?_⟩
        show Unfed _ _ _ _ _ ⟨.ok 1, stragglers ++ []⟩
        rw [List.append_nil]
        exact .ended hnul hfailure
      · have hmode : mode = .poll := by
          cases mode with
          | block => nomatch hpoll
          | poll => rfl
        rw [runPipeline_of_forked hnul hfork hanswer rfl]
        refine ⟨hu, ?_⟩
        show Unfed _ _ _ _ _ ⟨.ok 0, stragglers ++ [child]⟩
        rw [← hchildren]
        exact .left hnul hfailure hmode
  · obtain ⟨program, position, hinvalid⟩ := Pipeline.exists_invalid?_of_not_nulFree hnul
    unfold runPipeline
    rw [hinvalid]
    exact ⟨rfl, .refused hnul⟩

end Host.Reports

/-! ## A host of files and children alone -/

/-- The files of a host by name, with their sizes, and its children. -/
structure Desk where
  files : List (String × Nat)
  /-- The programs that were to be started. -/
  started : List (List String) := []
  /-- What the children have ended with, oldest first. -/
  statuses : List Nat := []
  complaints : List String := []
  closed : List Fd := []
  /-- No descriptor can be duplicated. -/
  rigid : Bool := false
  /-- Who does not wait for a child comes too early. -/
  hasty : Bool := false

namespace Desk

/-- Opens a file, which may make it or empty it. -/
def openFile (path : String) (flags : OpenFlags) : Call Desk Fd := ExceptT.mk fun s =>
  if s.files.any (·.1 = path) then
    (.ok 3, if flags.truncate then { s with files := s.files.map fun f => if f.1 = path then (path, 0) else f } else s)
  else if flags.create then (.ok 3, { s with files := s.files ++ [(path, 0)] })
  else (.error .noEntry, s)

/-- There are no descriptors to keep, only the answer whether one can be duplicated. -/
def dup2 : Call Desk Unit := ExceptT.mk fun s => (if s.rigid then .error .badDescriptor else .ok (), s)

/-- Notes what is closed. -/
def close (fd : Fd) : Call Desk Unit := ExceptT.mk fun s => (.ok (), { s with closed := s.closed ++ [fd] })

/-- Runs the code of a child on a copy of the desk, of which the files are shared. A program ends well. -/
def fork (code : StateM Desk Departure) : Call Desk Pid := ExceptT.mk fun s =>
  let child := (code.run s).2
  let status := match (code.run s).1 with
    | .replaced => 0
    | .exited status => status
  (.ok s.statuses.length, { s with
    files := child.files
    started := child.started
    complaints := child.complaints
    statuses := s.statuses ++ [status] })

/-- Notes that a program was to be started. -/
def exec (argv : List String) : Call Desk Unit := ExceptT.mk fun s => (.ok (), { s with started := s.started ++ [argv] })

/-- Says what a child has ended with. -/
def wait (child : Pid) (option : WaitOption) : Call Desk WaitStatus := ExceptT.mk fun s =>
  match s.statuses[child]? with
  | none => (.error .noChild, s)
  | some status => (.ok (if s.hasty && option = .poll then .stillAlive else .exited status), s)

/-- What is the parent's alone. -/
def own (s : Desk) : Nat × List Fd := (s.statuses.length, s.closed)

end Desk

/-- The host that a desk is. -/
def deskHost : Host Desk where
  openFile path flags _ := Desk.openFile path flags
  dup2 _ _ := Desk.dup2
  close := Desk.close
  pipe := return (4, 5)
  fork := Desk.fork
  exec := Desk.exec
  wait := Desk.wait
  complain text := modify fun s => { s with complaints := s.complaints ++ [text] }
  print _ := return ()
  canonicalize path := return path
  changeDirectory _ := return ()
  currentDirectory := return "/"
  environment := return []
  readLine _ := return .ok none
  lineBound := return 0

theorem Desk.started_openFile (path : String) (flags : OpenFlags) : Keeps Desk.started (Desk.openFile path flags).run := by
  intro s
  show (ite _ _ _ : Except Errno Fd × Desk).2.started = s.started
  split
  · split <;> rfl
  · split <;> rfl

theorem deskHost_notes : deskHost.Notes Desk.started where
  openFile path flags _ := Desk.started_openFile path flags
  dup2 _ _ _ := rfl
  close _ _ := rfl
  complain _ _ := rfl
  exec _ _ := rfl

theorem deskHost_detached : deskHost.Detached Desk.own where
  pipe := .pure _
  close fd s s' hs := ⟨rfl, congrArg (fun w => (w.1, w.2 ++ [fd])) hs⟩
  fork code code' s s' hs := by
    have hlength : s.statuses.length = s'.statuses.length := congrArg Prod.fst hs
    have hclosed : s.closed = s'.closed := congrArg Prod.snd hs
    refine ⟨congrArg Except.ok hlength, Prod.ext ?_ hclosed⟩
    show (s.statuses ++ _).length = (s'.statuses ++ _).length
    rw [List.length_append, List.length_append, hlength]
    rfl

/-- A file that is not there cannot be opened. -/
theorem Desk.unopenable {s : Desk} {path : String} (h : ∀ f ∈ s.files, f.1 ≠ path) : deskHost.Unopenable Desk.files path s := by
  intro b hb
  refine ⟨.noEntry, ?_⟩
  have hany : b.files.any (·.1 = path) = false := by simpa [hb] using h
  show (ite (b.files.any (·.1 = path)) _ _ : Except Errno Fd × Desk).1 = _
  rw [hany]
  rfl

theorem Desk.run_wait {s : Desk} {child : Pid} {status : Nat} (h : s.statuses[child]? = some status) (option : WaitOption) :
    (Desk.wait child option).run.run s =
      (.ok (if s.hasty && option = .poll then .stillAlive else .exited status), s) := by
  simp only [wait, ExceptT.run_mk, StateT.run, h]

theorem deskHost_reports : deskHost.Reports Desk.files where
  notOpened {path permissions s t e} h := by
    replace h : (ite _ _ _ : Except Errno Fd × Desk) = _ := h
    split at h
    · cases h
    · cases h
      rfl
  complain _ _ := rfl
  notForked h := by cases h
  forked {code s t child status} h _ hcode option := by
    obtain ⟨hended, hfiles⟩ := hcode s rfl
    cases h
    refine ⟨((deskHost.fork code).run.run s).2, hfiles, ?_⟩
    have hfound : ((deskHost.fork code).run.run s).2.statuses[s.statuses.length]? = some status := by
      show (s.statuses ++ [_])[s.statuses.length]? = _
      rw [List.getElem?_concat_length, hended]
    have hwait := Desk.run_wait hfound option
    by_cases hpoll : ((deskHost.fork code).run.run s).2.hasty && option = .poll
    · rw [if_pos hpoll] at hwait
      exact .inr ⟨of_decide_eq_true (Bool.and_eq_true_iff.mp hpoll).2, hwait⟩
    · rw [if_neg hpoll] at hwait
      exact .inl hwait

/-! ## The whole of it -/

/-- A program is started after its whole setup and not otherwise: the calls of the setup are made in order, and where one fails the child
closes the pipe ends that it still has, reports the failure and ends with status 1, without another call or the program. The pipe ends
that it has at a step are those that no step up to this one was there to close. The children have no part in the launch, which comes to
the same whatever they do. Of a statement of one stage with both redirections, written in either order, whose input cannot be opened,
nothing is left behind, and it comes to one of the results listed. -/
theorem failed_setup_contained {host : Host σ} {started : σ → List (List String)} {own : σ → ω} {seen : σ → ξ}
    (hnotes : host.Notes started) (hdetached : host.Detached own) (hreports : host.Reports seen) :
    (∀ (stage : Stage) (s : σ), ∃ failure t, Attempts host stage.setupSteps s failure t ∧
      match failure with
      | none =>
        (stage.start host).run s = (stage.become host).run t ∧
          started ((stage.start host).run s).2 = started s ++ [stage.argv]
      | some f =>
        (stage.start host).run s = (.exited 1, ((host.complain f.message).run t).2) ∧
          started ((stage.start host).run s).2 = started s) ∧
    (∀ (stage : Stage) (made : List SetupStep) (step : SetupStep) (rest : List SetupStep), stage.setupSteps = made ++ step :: rest →
      (SetupStep.closed (made ++ [step]) ++ step.held).Perm (StagePipe.ends stage.inlet ++ StagePipe.ends stage.outlet)) ∧
    (∀ pipeline alter, Agree (fun s t => own s = own t) (launch host pipeline) (launch (host.withChildren alter) pipeline)) ∧
    (∀ (form : Line.StageForm) (path : String) (target : OutputTarget) (mode : WaitMode) (stragglers : Stragglers) (s : σ),
      form.inputs = [path] → form.outputs = [target] → host.Unopenable seen path s →
        let pipeline := Line.StatementForm.pipeline ⟨[form], List.cons_ne_nil form []⟩
        seen ((runPipeline host mode pipeline stragglers).run s).2 = seen s ∧
          Unfed host mode pipeline stragglers s ((runPipeline host mode pipeline stragglers).run s).1) := by
  refine ⟨fun stage s => ?_, fun _ _ _ _ => Stage.held_perm, fun pipeline alter => hdetached.launch alter pipeline, ?_⟩
  · obtain ⟨failure, t, hattempts, hrun⟩ := stage.start_run host s
    have hsetup : started t = started s := hnotes.attempts hattempts
    refine ⟨failure, t, hattempts, ?_⟩
    cases failure with
    | none =>
      refine ⟨hrun, ?_⟩
      rw [hrun, ← hsetup]
      exact hnotes.become stage t
    | some f =>
      refine ⟨hrun, ?_⟩
      rw [hrun, ← hsetup]
      exact hnotes.complain f.message t
  · intro form path target mode stragglers s hinputs houtputs hopen
    have hpipeline : Line.StatementForm.pipeline ⟨[form], List.cons_ne_nil form []⟩ = ⟨[form.command], some path, some target⟩ := by
      simp [Line.StatementForm.pipeline, hinputs, houtputs]
    rw [hpipeline]
    exact hreports.runPipeline_of_unopenable mode form.command (some target) stragglers hopen

/-- A desk with one file. -/
def desk : Desk := { files := [("out", 7)] }

/-- The form of `cat >out <missing`. -/
def unfedForm : Line.StageForm := ⟨"cat", [.output ⟨"out", .truncate⟩, .input "missing"]⟩

def unfedPipeline : Pipeline := Line.StatementForm.pipeline ⟨[unfedForm], List.cons_ne_nil unfedForm []⟩

/-- The child ends with status 1 and the file that it would have written to keeps its contents. -/
theorem failed_setup_contained_unfed :
    unfedPipeline.NulFree ∧ ((launch deskHost unfedPipeline).run desk).1.failure = none ∧
      ((runPipeline deskHost .block unfedPipeline [7]).run desk).1 = ⟨.ok 1, [7]⟩ ∧
      ((runPipeline deskHost .block unfedPipeline [7]).run desk).2.files = [("out", 7)] := by
  have hnul : unfedPipeline.NulFree := by
    unfold Pipeline.NulFree
    decide
  have hlaunch : ((launch deskHost unfedPipeline).run desk).1.failure = none := by decide
  have hopen : deskHost.Unopenable Desk.files "missing" desk := Desk.unopenable (by decide)
  obtain ⟨-, -, -, hunfed⟩ := failed_setup_contained deskHost_notes deskHost_detached deskHost_reports
  obtain ⟨hfiles, hresult⟩ := hunfed unfedForm "missing" ⟨"out", .truncate⟩ .block [7] desk rfl rfl hopen
  have hresult : Unfed deskHost .block unfedPipeline [7] desk ((runPipeline deskHost .block unfedPipeline [7]).run desk).1 := hresult
  refine ⟨hnul, hlaunch, ?_, hfiles⟩
  generalize ((runPipeline deskHost .block unfedPipeline [7]).run desk).1 = r at hresult
  cases hresult with
  | refused hrefused => exact absurd hnul hrefused
  | notLaunched _ hfailed => nomatch hfailed.symm.trans hlaunch
  | ended => rfl
  | left _ _ hpoll => nomatch hpoll

/-- The first of two stages, with the same input, as it is forked with the pipe to the second. -/
def unfedFirst : Stage := ⟨⟨[⟨"a", []⟩, ⟨"b", []⟩], some "missing", none⟩, 0, ["a"], none, some ⟨4, 5⟩⟩

/-- It does not end with 1 in every case: an argument may hold a NUL character, and the child may be looked at too early. And the call
that fails is not the last one: a redirection whose duplication fails still closes the file that it has opened, and a child whose input
cannot be opened still closes the pipe to the stage after. -/
theorem unfed_is_not_always_one :
    deskHost.Unopenable Desk.files "missing" desk ∧
      ((runPipeline deskHost .block ⟨[⟨"echo", ["a\x00b"]⟩], some "missing", some ⟨"out", .truncate⟩⟩ []).run desk).1 =
        ⟨.error (.invalidArgument "echo" 1), []⟩ ∧
      ((runPipeline deskHost .poll unfedPipeline []).run { desk with hasty := true }).1 = ⟨.ok 0, [0]⟩ ∧
      (((Stage.alone ⟨"cat", []⟩ (some "out") none).start deskHost).run { desk with rigid := true }).2.closed = [3] ∧
      ((unfedFirst.start deskHost).run desk).1 = .exited 1 ∧ ((unfedFirst.start deskHost).run desk).2.closed = [4, 5] := by
  refine ⟨Desk.unopenable (by decide), by cbv, by cbv, by cbv, by cbv, by cbv⟩

end PipelineShell
