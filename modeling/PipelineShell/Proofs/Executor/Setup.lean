import PipelineShell.Proofs.Executor.Ensures

/-!
# A program runs after its setup

What a child does before it becomes its program is a list of steps (`Stage.setupSteps`), which depends on the redirections of its
stage and on the pipes to its neighbours. Each is a call, and says which pipe ends the child still has if that fails. The calls are
made one after the other up to the first that fails, after which what is held is given up (`Attempts`). Where one has failed the child
reports it and ends, and only where none has does it go on to its program (`Stage.start_run`).
-/

namespace PipelineShell

variable {σ : Type}

/-- A call of a child's setup. -/
inductive SetupCall where
  | redirectInput (path : String)
  | redirectOutput (target : OutputTarget)
  | dup2 (fd target : Fd)
  | close (fd : Fd)
  deriving DecidableEq, Repr

namespace SetupCall

/-- The name that its failure is reported under. -/
def name : SetupCall → String
  | redirectInput _ => "redirect_input"
  | redirectOutput _ => "redirect_output"
  | dup2 _ _ => "dup2"
  | close _ => "close"

/-- Makes the call. -/
def make (host : Host σ) : SetupCall → Call σ Unit
  | redirectInput path => Redirect.input host path
  | redirectOutput target => Redirect.output host target.path target.mode
  | dup2 fd target => host.dup2 fd target
  | close fd => host.close fd

/-- The pipe ends that it is there to close. -/
def closes : SetupCall → List Fd
  | close fd => [fd]
  | _ => []

end SetupCall

/-- A step of a child's setup: a call, and the pipe ends that are given up if it fails. -/
structure SetupStep where
  call : SetupCall
  held : List Fd
  deriving DecidableEq, Repr

namespace SetupStep

/-- The pipe ends that some steps are there to close. -/
def closed (steps : List SetupStep) : List Fd := steps.flatMap (·.call.closes)

/-- The steps that take one end of a pipe as a standard descriptor, with what else is held meanwhile. -/
def takeEnd (unused taken target : Fd) (held : List Fd) : List SetupStep :=
  [⟨.close unused, taken :: held⟩, ⟨.dup2 taken target, taken :: held⟩, ⟨.close taken, held⟩]

end SetupStep

namespace Stage

/-- The steps that set up a stage, in order: its input file, the pipe to the stage after it, its output file, and the pipe from the
stage before it. -/
def setupSteps (s : Stage) : List SetupStep :=
  let inlet := StagePipe.ends s.inlet
  (s.input?.toList.map fun path => ⟨.redirectInput path, inlet ++ StagePipe.ends s.outlet⟩) ++
  (s.outlet.toList.flatMap fun p => SetupStep.takeEnd p.readEnd p.writeEnd standardOutput inlet) ++
  (s.output?.toList.map fun target => ⟨.redirectOutput target, inlet⟩) ++
  (s.inlet.toList.flatMap fun p => SetupStep.takeEnd p.writeEnd p.readEnd standardInput [])

end Stage

/-- What holds of redirections, duplications and closes holds of every call of a setup. -/
theorem SetupCall.forall_make {host : Host σ} {P : Call σ Unit → Prop}
    (hstream : ∀ fd path flags permissions, P (Redirect.stream host fd path flags permissions)) (hdup : ∀ fd target, P (host.dup2 fd target))
    (hclose : ∀ fd, P (host.close fd)) (c : SetupCall) : P (c.make host) := by
  cases c with
  | redirectInput path => exact hstream _ _ _ _
  | redirectOutput target => exact hstream _ _ _ _
  | dup2 fd target => exact hdup fd target
  | close fd => exact hclose fd

/-- `Attempts host steps s failure t`: from the state `s` the calls of the steps are made in order up to the first that fails. Its failure
is the one there is, if there is one, and what is held then is given up. The state after that is `t`. -/
inductive Attempts (host : Host σ) : List SetupStep → σ → Option SetupFailure → σ → Prop where
  | done (s : σ) : Attempts host [] s none s
  | failed {step : SetupStep} {steps : List SetupStep} {s t : σ} {e : Errno} :
      (step.call.make host).run.run s = (.error e, t) →
        Attempts host (step :: steps) s (some ⟨step.call.name, e⟩) ((abandon host step.held).run t).2
  | made {step : SetupStep} {steps : List SetupStep} {s t u : σ} {failure : Option SetupFailure} :
      (step.call.make host).run.run s = (.ok (), t) → Attempts host steps t failure u → Attempts host (step :: steps) s failure u

/-- The result that goes with the first failure. -/
def resultOf : Option SetupFailure → Except SetupFailure Unit
  | none => .ok ()
  | some f => .error f

/-! ## What is held at each step -/

namespace SetupStep

/-- With these pipe ends closed before, every step holds what is left of `ends` once its own call has been made. -/
def Accounts (ends : List Fd) : List Fd → List SetupStep → Prop
  | _, [] => True
  | before, step :: rest =>
    (before ++ step.call.closes ++ step.held).Perm ends ∧ Accounts ends (before ++ step.call.closes) rest

variable {α : Type} {ends before held : List Fd} {steps more : List SetupStep}

theorem closed_append (steps more : List SetupStep) : closed (steps ++ more) = closed steps ++ closed more :=
  List.flatMap_append

theorem accounts_append :
    Accounts ends before (steps ++ more) ↔ Accounts ends before steps ∧ Accounts ends (before ++ closed steps) more := by
  induction steps generalizing before with
  | nil => simp [Accounts, closed]
  | cons step steps ih =>
    rw [List.cons_append, Accounts, Accounts, ih, and_assoc, closed, closed, List.flatMap_cons, ← List.append_assoc before]

theorem Accounts.perm {made rest : List SetupStep} {step : SetupStep} (h : Accounts ends before (made ++ step :: rest)) :
    (before ++ closed (made ++ [step]) ++ step.held).Perm ends := by
  rw [accounts_append] at h
  simpa [closed] using h.2.1

/-- A redirection closes no pipe end. -/
theorem closed_redirect (call : α → SetupCall) (hcall : ∀ a, (call a).closes = []) (o : Option α) (held : List Fd) :
    closed (o.toList.map fun a => ⟨call a, held⟩) = [] := by
  cases o with
  | none => rfl
  | some a => simpa [closed] using hcall a

theorem accounts_redirect (call : α → SetupCall) (hcall : ∀ a, (call a).closes = []) (o : Option α) (h : (before ++ held).Perm ends) :
    Accounts ends before (o.toList.map fun a => ⟨call a, held⟩) := by
  cases o with
  | none => trivial
  | some a => simpa [Accounts, hcall] using h

theorem accounts_takeEnd {unused taken target : Fd} (h : (before ++ unused :: taken :: held).Perm ends) :
    Accounts ends before (takeEnd unused taken target held) := by
  simpa [takeEnd, Accounts, SetupCall.closes] using h

/-- Both ends of the outlet are closed, the one that is not needed first. -/
theorem closed_outlet (o : Option StagePipe) (target : Fd) (held : List Fd) :
    closed (o.toList.flatMap fun p => takeEnd p.readEnd p.writeEnd target held) = StagePipe.ends o := by
  cases o <;> rfl

end SetupStep

/-- At every step the ends of the pipes are those that have been closed up to it and those that are held, each once. -/
theorem Stage.held_perm {s : Stage} {made rest : List SetupStep} {step : SetupStep} (h : s.setupSteps = made ++ step :: rest) :
    (SetupStep.closed (made ++ [step]) ++ step.held).Perm (StagePipe.ends s.inlet ++ StagePipe.ends s.outlet) := by
  suffices haccounts : SetupStep.Accounts (StagePipe.ends s.inlet ++ StagePipe.ends s.outlet) [] s.setupSteps by
    rw [h] at haccounts
    exact haccounts.perm
  unfold setupSteps
  rw [SetupStep.accounts_append, SetupStep.accounts_append, SetupStep.accounts_append]
  simp only [SetupStep.closed_append, SetupStep.closed_redirect .redirectInput fun _ => rfl,
    SetupStep.closed_redirect .redirectOutput fun _ => rfl, SetupStep.closed_outlet, List.nil_append, List.append_nil]
  refine ⟨⟨⟨?input, ?outlet⟩, ?output⟩, ?inlet⟩
  case input => exact SetupStep.accounts_redirect .redirectInput (fun _ => rfl) _ (.refl _)
  case output => exact SetupStep.accounts_redirect .redirectOutput (fun _ => rfl) _ List.perm_append_comm
  case outlet =>
    cases s.outlet with
    | none => trivial
    | some p =>
      rw [Option.toList_some, List.flatMap_singleton]
      have hends : ([p.readEnd, p.writeEnd] ++ StagePipe.ends s.inlet).Perm (StagePipe.ends s.inlet ++ [p.readEnd, p.writeEnd]) :=
        List.perm_append_comm
      exact SetupStep.accounts_takeEnd hends
  case inlet =>
    cases s.inlet with
    | none => trivial
    | some p =>
      rw [Option.toList_some, List.flatMap_singleton]
      refine SetupStep.accounts_takeEnd (List.perm_append_comm.trans ?_)
      exact (List.Perm.swap p.readEnd p.writeEnd []).append_right (StagePipe.ends s.outlet)

/-! ## The setup as a list of steps -/

/-- What is held during two parts of a setup is held during each of them. -/
theorem holding_bind (host : Host σ) (held : List Fd) (c d : Setup σ Unit) :
    holding host held (do c; d) = (do holding host held c; holding host held d) := by
  funext s
  show (holding host held (do c; d)).run.run s = (do holding host held c; holding host held d : Setup σ Unit).run.run s
  rcases hc : c.run.run s with ⟨f | ⟨⟩, t⟩
  · rw [run_bind_error (run_holding_error hc), run_holding_error (run_bind_error hc _)]
  · rw [run_bind_ok (run_holding_ok hc)]
    rcases hd : d.run.run t with ⟨f | ⟨⟩, u⟩
    · rw [run_holding_error hd, run_holding_error ((run_bind_ok hc _).trans hd)]
    · rw [run_holding_ok hd, run_holding_ok ((run_bind_ok hc _).trans hd)]

theorem abandon_append (host : Host σ) (inner outer : List Fd) :
    abandon host (inner ++ outer) = (do abandon host inner; abandon host outer) := List.forM_append

/-- What is held by an inner part is given up before the rest. -/
theorem holding_holding (host : Host σ) (inner outer : List Fd) (c : Setup σ Unit) :
    holding host outer (holding host inner c) = holding host (inner ++ outer) c := by
  funext s
  show (holding host outer (holding host inner c)).run.run s = (holding host (inner ++ outer) c).run.run s
  rcases hc : c.run.run s with ⟨f | ⟨⟩, t⟩
  · rw [run_holding_error (run_holding_error hc), run_holding_error hc, abandon_append]
    rfl
  · rw [run_holding_ok (run_holding_ok hc), run_holding_ok hc]

theorem holding_nil (host : Host σ) (c : Setup σ Unit) : holding host [] c = c := by
  funext s
  show (holding host [] c).run.run s = c.run.run s
  rcases hc : c.run.run s with ⟨f | ⟨⟩, t⟩
  · rw [run_holding_error hc]
    rfl
  · rw [run_holding_ok hc]

/-- Makes the call of a step. -/
def SetupStep.make (host : Host σ) (step : SetupStep) : Setup σ Unit :=
  holding host step.held (during step.call.name (step.call.make host))

/-- Makes the calls of some steps in order, as long as they succeed. -/
def attempt (host : Host σ) (steps : List SetupStep) : Setup σ Unit := steps.forM (SetupStep.make host)

theorem attempt_cons (host : Host σ) (step : SetupStep) (steps : List SetupStep) :
    attempt host (step :: steps) = (do step.make host; attempt host steps) := rfl

theorem attempt_append (host : Host σ) (steps more : List SetupStep) :
    attempt host (steps ++ more) = (do attempt host steps; attempt host more) := List.forM_append

/-- The failure of a call gets the name of the call. -/
theorem run_during (name : String) {c : Call σ Unit} {s t : σ} {r : Except Errno Unit} (h : c.run.run s = (r, t)) :
    (during name c).run.run s = (r.mapError fun cause => ⟨name, cause⟩, t) := by
  show (Except.mapError _ (c.run.run s).1, (c.run.run s).2) = _
  rw [h]

/-- Steps made in order come to an end, with the first failure if there is one. -/
theorem exists_attempts (host : Host σ) (steps : List SetupStep) (s : σ) :
    ∃ failure t, Attempts host steps s failure t ∧ (attempt host steps).run.run s = (resultOf failure, t) := by
  induction steps generalizing s with
  | nil => exact ⟨none, s, .done s, rfl⟩
  | cons step steps ih =>
    rw [attempt_cons]
    rcases hc : (step.call.make host).run.run s with ⟨e | ⟨⟩, t⟩
    · exact ⟨_, _, .failed hc, run_bind_error (run_holding_error (run_during step.call.name hc)) _⟩
    · obtain ⟨failure, u, hattempts, hrun⟩ := ih t
      exact ⟨failure, u, .made hc hattempts, (run_bind_ok (run_holding_ok (run_during step.call.name hc)) _).trans hrun⟩

/-- What none of the calls changes has not been changed by those that were made. -/
theorem Attempts.keeps {ω : Type} {view : σ → ω} {host : Host σ} {steps : List SetupStep} {s t : σ} {failure : Option SetupFailure}
    (h : Attempts host steps s failure t) (hcall : ∀ c : SetupCall, Keeps view (c.make host).run) : view t = view s := by
  induction h with
  | done s => rfl
  | @failed step steps s t e hc =>
    have hkeeps := hcall step.call s
    rw [hc] at hkeeps
    exact (Keeps.abandon (fun fd => hcall (.close fd)) step.held t).trans hkeeps
  | @made step steps s t u failure hc _ ih =>
    have hkeeps := hcall step.call s
    rw [hc] at hkeeps
    exact ih.trans hkeeps

/-- Taking one end of a pipe is three steps. -/
theorem attempt_takeEnd (host : Host σ) (unused taken target : Fd) (held : List Fd) :
    attempt host (SetupStep.takeEnd unused taken target held) = holding host held (Stage.takeEnd host unused taken target) := by
  rw [Stage.takeEnd, Stage.moveOnto, holding_bind, holding_bind, holding_holding, holding_holding]
  refine congrArg (SetupStep.make host ⟨.close unused, taken :: held⟩ >>= ·) (funext fun _ => ?_)
  refine congrArg (SetupStep.make host ⟨.dup2 taken target, taken :: held⟩ >>= ·) (funext fun _ => ?_)
  exact bind_pure _

namespace Stage

/-- The setup of a stage is its steps in order. -/
theorem setup_eq_attempt (host : Host σ) (s : Stage) : s.setup host = attempt host s.setupSteps := by
  have hone {α : Type} (o : Option α) (f : α → SetupStep) :
      attempt host (o.toList.map f) = whenSome o fun a => (f a).make host := by
    cases o with
    | none => rfl
    | some a => exact bind_pure _
  have hpipe (o : Option StagePipe) (f : StagePipe → List SetupStep) :
      attempt host (o.toList.flatMap f) = whenSome o fun p => attempt host (f p) := by
    cases o with
    | none => rfl
    | some p => rw [Option.toList_some, List.flatMap_singleton]; rfl
  rw [setup_eq, setupSteps, attempt_append, attempt_append, attempt_append, hone, hone, hpipe, hpipe]
  simp only [attempt_takeEnd, holding_nil, bind_assoc]
  rfl

/-- The child becomes its program, or reports that it cannot. -/
def become (host : Host σ) (s : Stage) : StateM σ Departure := do
  match ← (host.exec s.argv).run with
  | .error cause =>
    host.complain (SetupFailure.message ⟨"execvp", cause⟩)
    return .exited 1
  | .ok () => return .replaced

/-- The calls of the setup are made up to the first that fails. Where one has failed the child gives up what it holds, reports the failure
and ends with status 1; where none has, it goes on to its program. -/
theorem start_run (host : Host σ) (stage : Stage) (s : σ) :
    ∃ failure t, Attempts host stage.setupSteps s failure t ∧
      (stage.start host).run s =
        match failure with
        | some f => (.exited 1, ((host.complain f.message).run t).2)
        | none => (stage.become host).run t := by
  obtain ⟨failure, t, hattempts, hrun⟩ := exists_attempts host stage.setupSteps s
  refine ⟨failure, t, hattempts, ?_⟩
  rw [← setup_eq_attempt] at hrun
  rw [start_eq, run_bind_of_run hrun]
  cases failure <;> rfl

end Stage

/-! ## Whether a program was started -/

/-- `started` notes the programs that were to be started, and nothing else that a child does before changes it. -/
structure Host.Notes (host : Host σ) (started : σ → List (List String)) : Prop where
  openFile : ∀ path flags permissions, Keeps started (host.openFile path flags permissions).run
  dup2 : ∀ fd target, Keeps started (host.dup2 fd target).run
  close : ∀ fd, Keeps started (host.close fd).run
  complain : ∀ text, Keeps started (host.complain text)
  exec : ∀ argv s, started ((host.exec argv).run.run s).2 = started s ++ [argv]

namespace Host.Notes

variable {host : Host σ} {started : σ → List (List String)}

theorem stream (h : host.Notes started) (fd : Fd) (path : String) (flags : OpenFlags) (permissions : Nat) :
    Keeps started (Redirect.stream host fd path flags permissions).run := by
  rw [Redirect.stream, ExceptT.run_bind]
  refine (h.openFile path flags permissions).bind fun r => ?_
  cases r with
  | error e => exact Keeps.pure _
  | ok opened =>
    dsimp only
    split
    · exact Keeps.pure _
    · exact (h.dup2 opened fd).bind fun _ => (h.close opened).bind fun _ => Keeps.pure _

/-- A setup starts no program. -/
theorem attempts (h : host.Notes started) {stage : Stage} {s t : σ} {failure : Option SetupFailure}
    (hattempts : Attempts host stage.setupSteps s failure t) : started t = started s :=
  hattempts.keeps (SetupCall.forall_make (P := fun c => Keeps started c.run) h.stream h.dup2 h.close)

theorem become (h : host.Notes started) (stage : Stage) (s : σ) :
    started ((stage.become host).run s).2 = started s ++ [stage.argv] := by
  have hexec := h.exec stage.argv s
  rcases hr : (host.exec stage.argv).run.run s with ⟨cause | ⟨⟩, t⟩
  · rw [hr] at hexec
    rw [Stage.become, run_bind_of_run hr]
    exact (h.complain _ t).trans hexec
  · rw [hr] at hexec
    rw [Stage.become, run_bind_of_run hr]
    exact hexec

end Host.Notes

end PipelineShell
