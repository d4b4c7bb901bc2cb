import PipelineShell.Proofs.Session.Routing

/-!
# What a statement does where the builtins are the standard ones

`request?` says of a command what it asks of the standard builtins, from its name and its arguments alone. The lemmas about
`runStatement` then say what each kind of request does to a session; they are all that is known of the builtins afterwards.
-/

namespace PipelineShell

variable {σ ρ : Type}

/-! ## Declared builtins -/

/-- What a declared builtin does with the arguments of a call. -/
def DeclaredBuiltin.call (host : Host σ) (d : DeclaredBuiltin σ ρ) (args : List String) : BuiltinM σ ExitCode :=
  match d.arguments.read d.initial args with
  | .accepted record => reporting host (d.run record)
  | .help text => do
    BuiltinM.writeLine text
    return 0
  | .refused text => do
    BuiltinM.onHost (host.complain text)
    return 1

theorem DeclaredBuiltin.create?_toBuiltin (host : Host σ) (d : DeclaredBuiltin σ ρ) (name : String) (args : List String) :
    (d.toBuiltin host).create? name args = if name = d.name then some (d.call host args) else none := rfl

section

variable {host : Host σ} {d : DeclaredBuiltin σ ρ} {args : List String} {state after : BuiltinState σ}

/-- Prints lines in order, up to one that cannot be written. -/
def printLines (host : Host σ) (lines : List String) : Call σ Unit := lines.forM fun line => host.print (line ++ "\n")

theorem printLines_cons (host : Host σ) (line : String) (rest : List String) :
    printLines host (line :: rest) = (do host.print (line ++ "\n"); printLines host rest) := rfl

/-- A line written to standard output is printed. -/
theorem run_writeLine (text : String) (h : state.writer = .stream host.print) :
    (BuiltinM.writeLine text).run.run state =
      let printed := (host.print (text ++ "\n")).run.run state.host
      (printed.1.mapError .unwritten, { state with host := printed.2 }) := by
  obtain ⟨env, writer, u⟩ := state
  obtain rfl : writer = .stream host.print := h
  rfl

theorem run_writeLines (lines : List String) (h : state.writer = .stream host.print) :
    (lines.forM BuiltinM.writeLine).run.run state =
      let printed := (printLines host lines).run.run state.host
      (printed.1.mapError .unwritten, { state with host := printed.2 }) := by
  induction lines generalizing state with
  | nil => rfl
  | cons line rest ih =>
    have hwritten : (line :: rest).forM BuiltinM.writeLine =
        (do BuiltinM.writeLine line; rest.forM BuiltinM.writeLine : BuiltinM σ Unit) := rfl
    have hline := run_writeLine line h
    rcases hprinted : (host.print (line ++ "\n")).run.run state.host with ⟨_ | _, v⟩
    · rw [hprinted] at hline
      rw [hwritten, run_bind_error hline, printLines_cons, run_bind_error hprinted]
      rfl
    · rw [hprinted] at hline
      rw [hwritten, run_bind_ok hline, @ih { state with host := v } h, printLines_cons, run_bind_ok hprinted]

/-- Code that has nothing more to do ends with 0, if it comes to an end. -/
theorem run_return_zero {c : BuiltinM σ Unit} {outcome : Except Failure Unit} (hrun : c.run.run state = (outcome, after)) :
    (do c; return 0 : BuiltinM σ ExitCode).run.run state = (outcome.map fun () => 0, after) := by
  cases outcome with
  | ok _ => exact run_bind_ok hrun _
  | error failure => exact run_bind_error hrun _

theorem call_refused {text : String} (h : d.arguments.read d.initial args = .refused text) :
    (d.call host args).run.run state = (.ok 1, { state with host := ((host.complain text).run state.host).2 }) := by
  rw [DeclaredBuiltin.call, h]
  rfl

theorem call_help {text : String} (h : d.arguments.read d.initial args = .help text)
    (hwriter : state.writer = .stream host.print) :
    (d.call host args).run.run state =
      let printed := (host.print (text ++ "\n")).run.run state.host
      ((printed.1.mapError .unwritten).map fun () => 0, { state with host := printed.2 }) := by
  rw [DeclaredBuiltin.call, h]
  exact run_return_zero (run_writeLine text hwriter)

/-- Code that comes to a result is not stopped. -/
theorem reporting_ok {code : BuiltinM σ ExitCode} {status : ExitCode} (hrun : code.run.run state = (.ok status, after)) :
    (reporting host code).run.run state = (.ok status, after) := by
  unfold reporting
  refine (run_bind_ok (t := after) (a := .ok status) ?_ _).trans rfl
  rw [ExceptT.run_tryCatch, run_bind_of_run (run_bind_ok hrun _)]
  rfl

/-- A failure becomes a complaint and the status 1. -/
theorem reporting_error {code : BuiltinM σ ExitCode} {failure : Failure} (hrun : code.run.run state = (.error failure, after)) :
    (reporting host code).run.run state =
      (.ok 1, { after with host := ((host.complain failure.outer).run after.host).2 }) := by
  unfold reporting
  refine (run_bind_ok (t := { after with host := ((host.complain failure.outer).run after.host).2 }) (a := .error 1) ?_ _).trans
    rfl
  rw [ExceptT.run_tryCatch, run_bind_of_run (run_bind_error hrun _)]
  rfl

theorem call_accepted {record : ρ} (h : d.arguments.read d.initial args = .accepted record) :
    d.call host args = reporting host (d.run record) := by
  rw [DeclaredBuiltin.call, h]

end

/-! ## The four of the standard table -/

namespace Builtin

variable {host : Host σ} {state : BuiltinState σ}

theorem run_exit (code? : Option ExitCode) : (exit.run code?).run.run state =
    (.ok (code?.getD 0), { state with env := { state.env with exitRequested := some (code?.getD 0) } }) := rfl

/-- Code that writes some lines ends with 0, unless they cannot be written. -/
theorem run_tell (lines : List String) (h : state.writer = .stream host.print) :
    (do lines.forM BuiltinM.writeLine; return 0 : BuiltinM σ ExitCode).run.run state =
      let printed := (printLines host lines).run.run state.host
      ((printed.1.mapError .unwritten).map fun () => 0, { state with host := printed.2 }) :=
  run_return_zero (run_writeLines lines h)

theorem run_cwd (state : BuiltinState σ) : (cwd.run ()).run.run state =
    (do [state.env.currentDirectory].forM BuiltinM.writeLine; return 0 : BuiltinM σ ExitCode).run.run state := by
  have hcwd : cwd.run () =
      (do BuiltinM.writeLine (← BuiltinM.environment).currentDirectory; return 0 : BuiltinM σ ExitCode) := rfl
  have henv : (BuiltinM.environment : BuiltinM σ Environment).run.run state = (.ok state.env, state) := rfl
  have hone : [state.env.currentDirectory].forM BuiltinM.writeLine =
      (do BuiltinM.writeLine state.env.currentDirectory; return ⟨⟩ : BuiltinM σ PUnit) := rfl
  rw [hcwd, run_bind_ok henv, hone, bind_assoc]
  simp only [pure_bind]

theorem run_ver : (ver.run () : BuiltinM σ ExitCode) = do bannerLines.forM BuiltinM.writeLine; return 0 := rfl

/-- The target that a call of `cd` is taken to name: that of HOME for none, an empty one or `~`. -/
def cdTarget (host : Host σ) (env : Environment) (target? : Option String) : StateM σ (Option String) :=
  match target?.filter fun target => target ≠ "" ∧ target ≠ "~" with
  | some target => pure (some target)
  | none => env.getVar host "HOME"

/-- Moves the process to the directory that a path leads to, by its canonical path. -/
def enter (host : Host σ) (path : String) : Call σ String := do
  let directory ← host.canonicalize path
  host.changeDirectory directory
  return directory

section

variable {target? : Option String} {target directory : String} {u v : σ} {e : Errno}

/-- `cd` looks up its target, and then goes on from where that has left the host. -/
theorem run_cd {named : Option String} (hnamed : (cdTarget host state.env target?).run state.host = (named, u)) :
    ((cd host).run target?).run.run state =
      (match named with
        | none => throw ⟨"cd: HOME not set", []⟩
        | some target => do
          let moved ← BuiltinM.onHost (enter host (joinPath state.env.currentDirectory target)).run
          match moved with
          | .error _ => throw ⟨"cd: " ++ target ++ ": No such file or directory", []⟩
          | .ok directory =>
            BuiltinM.modifyEnvironment fun e => { e with currentDirectory := directory }
            return 0 : BuiltinM σ ExitCode).run.run { state with host := u } := by
  have hlookup : (match target?.filter fun target => target ≠ "" ∧ target ≠ "~" with
      | some target => pure (some target)
      | none => BuiltinM.onHost (state.env.getVar host "HOME") : BuiltinM σ (Option String)).run.run state =
        (.ok named, { state with host := u }) := by
    unfold cdTarget at hnamed
    split at hnamed
    · cases hnamed
      rfl
    · show (Except.ok ((state.env.getVar host "HOME").run state.host).1,
        { state with host := ((state.env.getVar host "HOME").run state.host).2 }) = _
      rw [hnamed]
  refine (run_bind_ok (s := state) (a := state.env) rfl _).trans ?_
  refine (run_bind_ok hlookup _).trans ?_
  cases named <;> rfl

theorem run_cd_unset (hnamed : (cdTarget host state.env target?).run state.host = (none, u)) :
    ((cd host).run target?).run.run state = (.error ⟨"cd: HOME not set", []⟩, { state with host := u }) := run_cd hnamed

theorem run_cd_refused (hnamed : (cdTarget host state.env target?).run state.host = (some target, u))
    (henter : (enter host (joinPath state.env.currentDirectory target)).run.run u = (.error e, v)) :
    ((cd host).run target?).run.run state =
      (.error ⟨"cd: " ++ target ++ ": No such file or directory", []⟩, { state with host := v }) := by
  refine (run_cd hnamed).trans ((run_bind_ok (a := .error e) (t := { state with host := v }) ?_ _).trans rfl)
  show (Except.ok ((enter host _).run.run u).1, { state with host := ((enter host _).run.run u).2 }) = _
  rw [henter]

theorem run_cd_moved (hnamed : (cdTarget host state.env target?).run state.host = (some target, u))
    (henter : (enter host (joinPath state.env.currentDirectory target)).run.run u = (.ok directory, v)) :
    ((cd host).run target?).run.run state =
      (.ok 0, { state with env := { state.env with currentDirectory := directory }, host := v }) := by
  refine (run_cd hnamed).trans ((run_bind_ok (a := .ok directory) (t := { state with host := v }) ?_ _).trans rfl)
  show (Except.ok ((enter host _).run.run u).1, { state with host := ((enter host _).run.run u).2 }) = _
  rw [henter]

end

end Builtin

/-! ## Requests -/

/-- What a call of a standard builtin asks for. -/
inductive Request where
  /-- To end the session with this status. -/
  | leave (code : ExitCode)
  /-- To move to the directory that this target names. -/
  | move (target? : Option String)
  /-- To write something. -/
  | tell
  /-- To write the usage text. -/
  | help (text : String)
  /-- Nothing that its arguments allow. -/
  | refuse
  deriving DecidableEq, Repr

/-- What a call asks for when its arguments have been read. -/
def Request.ofOutcome (f : ρ → Request) : Options.Outcome ρ → Request
  | .accepted record => f record
  | .help text => .help text
  | .refused _ => .refuse

open Builtin in
/-- What a command asks of the standard builtins, if it is a call of one. -/
def Command.request? (host : Host σ) (c : Command) : Option Request :=
  if c.name = "exit" then
    some (.ofOutcome (fun code? => .leave (code?.getD 0)) ((exit : DeclaredBuiltin σ _).arguments.read none c.args))
  else if c.name = "cd" then some (.ofOutcome .move ((cd host).arguments.read none c.args))
  else if c.name = "cwd" then some (.ofOutcome (fun _ => .tell) ((cwd : DeclaredBuiltin σ _).arguments.read () c.args))
  else if c.name = "ver" then some (.ofOutcome (fun _ => .tell) ((ver : DeclaredBuiltin σ _).arguments.read () c.args))
  else none

/-- What a statement asks of them: only a pipeline of one command asks for anything. -/
def Statement.request? (host : Host σ) : Statement → Option Request
  | .ready p => p.single?.bind (Command.request? host)
  | .discarded _ => none

/-- What a request comes to: its outcome, and the state that the builtin leaves. A move fails where there is no target, and where
the directory cannot be entered. That something cannot be written is reported, and only for a usage text it is a failure of the
builtin. -/
inductive Request.Does (host : Host σ) (state : BuiltinState σ) : Request → Except Failure ExitCode → BuiltinState σ → Prop
  | leave (code : ExitCode) :
    Does host state (.leave code) (.ok code) { state with env := { state.env with exitRequested := some code } }
  | unset {target? : Option String} {u : σ} (named : (Builtin.cdTarget host state.env target?).run state.host = (none, u)) :
    Does host state (.move target?) (.ok 1) { state with host := ((host.complain "cd: HOME not set").run u).2 }
  | barred {target? : Option String} {target : String} {u v : σ} {e : Errno}
    (named : (Builtin.cdTarget host state.env target?).run state.host = (some target, u))
    (entered : (Builtin.enter host (Builtin.joinPath state.env.currentDirectory target)).run.run u = (.error e, v)) :
    Does host state (.move target?) (.ok 1)
      { state with host := ((host.complain ("cd: " ++ target ++ ": No such file or directory")).run v).2 }
  | moved {target? : Option String} {target directory : String} {u v : σ}
    (named : (Builtin.cdTarget host state.env target?).run state.host = (some target, u))
    (entered : (Builtin.enter host (Builtin.joinPath state.env.currentDirectory target)).run.run u = (.ok directory, v)) :
    Does host state (.move target?) (.ok 0)
      { state with env := { state.env with currentDirectory := directory }, host := v }
  | told {lines : List String} {u : σ} (printed : (printLines host lines).run.run state.host = (.ok (), u)) :
    Does host state .tell (.ok 0) { state with host := u }
  | untold {lines : List String} {u : σ} {e : Errno} (printed : (printLines host lines).run.run state.host = (.error e, u)) :
    Does host state .tell (.ok 1) { state with host := ((host.complain e.streamMessage).run u).2 }
  | helped {text : String} {u : σ} (printed : (host.print (text ++ "\n")).run.run state.host = (.ok (), u)) :
    Does host state (.help text) (.ok 0) { state with host := u }
  | unhelped {text : String} {u : σ} {e : Errno} (printed : (host.print (text ++ "\n")).run.run state.host = (.error e, u)) :
    Does host state (.help text) (.error (.unwritten e)) { state with host := u }
  | refuse (text : String) : Does host state .refuse (.ok 1) { state with host := ((host.complain text).run state.host).2 }

/-- A builtin that does what a request comes to, where it writes to standard output. -/
def Request.IsDoneBy (host : Host σ) (r : Request) (code : BuiltinM σ ExitCode) : Prop :=
  ∀ state : BuiltinState σ, state.writer = .stream host.print →
    ∃ outcome after, code.run.run state = (outcome, after) ∧ r.Does host state outcome after

/-- A declared builtin does what is asked for if it does so with arguments that it accepts. -/
theorem Request.isDoneBy_call {host : Host σ} (d : DeclaredBuiltin σ ρ) (f : ρ → Request)
    (h : ∀ record, (f record).IsDoneBy host (reporting host (d.run record))) (args : List String) :
    (ofOutcome f (d.arguments.read d.initial args)).IsDoneBy host (d.call host args) := by
  intro state hwriter
  cases hread : d.arguments.read d.initial args with
  | accepted record =>
    rw [call_accepted hread]
    exact h record state hwriter
  | help text =>
    have hcall := call_help hread hwriter
    rcases hprinted : (host.print (text ++ "\n")).run.run state.host with ⟨_ | _, u⟩
    · rw [hprinted] at hcall
      exact ⟨_, _, hcall, .unhelped hprinted⟩
    · rw [hprinted] at hcall
      exact ⟨_, _, hcall, .helped hprinted⟩
  | refused text => exact ⟨_, _, call_refused hread, .refuse text⟩

/-- Writing some lines is what telling comes to. -/
theorem Request.exists_does_tell {host : Host σ} {code : BuiltinM σ ExitCode} {state : BuiltinState σ} (lines : List String)
    (hcode : code.run.run state = (do lines.forM BuiltinM.writeLine; return 0 : BuiltinM σ ExitCode).run.run state)
    (hwriter : state.writer = .stream host.print) :
    ∃ outcome after, (reporting host code).run.run state = (outcome, after) ∧ tell.Does host state outcome after := by
  have htell := hcode.trans (Builtin.run_tell lines hwriter)
  rcases hprinted : (printLines host lines).run.run state.host with ⟨_ | _, u⟩
  · rw [hprinted] at htell
    exact ⟨_, _, reporting_error htell, .untold hprinted⟩
  · rw [hprinted] at htell
    exact ⟨_, _, reporting_ok htell, .told hprinted⟩

section

open Builtin Request

variable (host : Host σ) (args : List String)

theorem isDoneBy_exit :
    (ofOutcome (fun code? => .leave (code?.getD 0)) ((exit : DeclaredBuiltin σ _).arguments.read none args)).IsDoneBy host
      (exit.call host args) :=
  isDoneBy_call exit _ (fun code? _ _ => ⟨_, _, reporting_ok (run_exit code?), .leave _⟩) args

theorem isDoneBy_cd :
    (ofOutcome .move ((cd host).arguments.read none args)).IsDoneBy host ((cd host).call host args) := by
  refine isDoneBy_call (cd host) _ (fun target? state _ => ?_) args
  rcases hnamed : (cdTarget host state.env target?).run state.host with ⟨named, u⟩
  cases named with
  | none => exact ⟨_, _, reporting_error (run_cd_unset hnamed), .unset hnamed⟩
  | some target =>
    rcases hentered : (enter host (joinPath state.env.currentDirectory target)).run.run u with ⟨entered, v⟩
    cases entered with
    | error e => exact ⟨_, _, reporting_error (run_cd_refused hnamed hentered), .barred hnamed hentered⟩
    | ok directory => exact ⟨_, _, reporting_ok (run_cd_moved hnamed hentered), .moved hnamed hentered⟩

theorem isDoneBy_cwd :
    (ofOutcome (fun _ => .tell) ((cwd : DeclaredBuiltin σ _).arguments.read () args)).IsDoneBy host (cwd.call host args) :=
  isDoneBy_call cwd _ (fun _ state hwriter => exists_does_tell [state.env.currentDirectory] (run_cwd state) hwriter) args

theorem isDoneBy_ver :
    (ofOutcome (fun _ => .tell) ((ver : DeclaredBuiltin σ _).arguments.read () args)).IsDoneBy host (ver.call host args) :=
  isDoneBy_call ver _ (fun _ state hwriter => exists_does_tell bannerLines (congrArg (·.run.run state) run_ver) hwriter) args

end

namespace Shell

open Builtin

variable {host : Host σ} {s : Session σ} {p : Pipeline} {c : Command}

theorem findBuiltin?_cons (host : Host σ) (d : DeclaredBuiltin σ ρ) (rest : List (Builtin σ)) (c : Command) :
    findBuiltin? (d.toBuiltin host :: rest) c =
      if c.name = d.name then some (d.call host c.args) else findBuiltin? rest c := by
  rw [findBuiltin?, List.findSome?_cons, DeclaredBuiltin.create?_toBuiltin]
  by_cases hname : c.name = d.name
  · rw [if_pos hname, if_pos hname]
  · rw [if_neg hname, if_neg hname]
    rfl

theorem findBuiltin?_standard (host : Host σ) (c : Command) :
    findBuiltin? (standard host) c =
      if c.name = "exit" then some (exit.call host c.args)
      else if c.name = "cd" then some ((cd host).call host c.args)
      else if c.name = "cwd" then some (cwd.call host c.args)
      else if c.name = "ver" then some (ver.call host c.args)
      else none := by
  rw [standard, findBuiltin?_cons, findBuiltin?_cons, findBuiltin?_cons, findBuiltin?_cons]
  rfl

/-- A command that asks for something is recognised, and one that asks for nothing is not. -/
theorem findBuiltin?_request? (host : Host σ) (c : Command) :
    match c.request? host with
    | none => findBuiltin? (standard host) c = none
    | some r => ∃ code, findBuiltin? (standard host) c = some code ∧ r.IsDoneBy host code := by
  rw [findBuiltin?_standard, Command.request?]
  by_cases hexit : c.name = "exit"
  · rw [if_pos hexit, if_pos hexit]
    exact ⟨_, rfl, isDoneBy_exit host c.args⟩
  by_cases hcd : c.name = "cd"
  · rw [if_neg hexit, if_neg hexit, if_pos hcd, if_pos hcd]
    exact ⟨_, rfl, isDoneBy_cd host c.args⟩
  by_cases hcwd : c.name = "cwd"
  · rw [if_neg hexit, if_neg hexit, if_neg hcd, if_neg hcd, if_pos hcwd, if_pos hcwd]
    exact ⟨_, rfl, isDoneBy_cwd host c.args⟩
  rw [if_neg hexit, if_neg hexit, if_neg hcd, if_neg hcd, if_neg hcwd, if_neg hcwd]
  by_cases hver : c.name = "ver"
  · rw [if_pos hver, if_pos hver]
    exact ⟨_, rfl, isDoneBy_ver host c.args⟩
  · rw [if_neg hver, if_neg hver]

/-- A pipeline that asks for something comes to that. -/
theorem runReady_request {r : Request} (hbuiltins : s.shell.builtins = standard host)
    (hr : p.single?.bind (Command.request? host) = some r) :
    ∃ c outcome after, r.Does host (builtinState host s) outcome after ∧
      (runReady host p).run s = (statusOf outcome, s.afterBuiltin host c outcome after) := by
  obtain ⟨c, hsingle, hc⟩ := Option.bind_eq_some_iff.mp hr
  have hfind := findBuiltin?_request? host c
  rw [hc] at hfind
  obtain ⟨code, hfind, hdone⟩ := hfind
  obtain ⟨outcome, after, hrun, hdoes⟩ := hdone (builtinState host s) rfl
  rw [← hbuiltins] at hfind
  exact ⟨c, outcome, after, hdoes, runReady_of_handled (Pipeline.handled_iff.mpr ⟨hsingle, hfind⟩) hrun⟩

/-- A pipeline that asks for nothing is run as processes. -/
theorem runReady_processes (hbuiltins : s.shell.builtins = standard host)
    (hr : p.single?.bind (Command.request? host) = none) : (runReady host p).run s = (runProcesses host p).run s := by
  refine runReady_of_none fun c hsingle => ?_
  have hfind := findBuiltin?_request? host c
  rw [hsingle, Option.bind_some] at hr
  rw [hr] at hfind
  rw [hbuiltins]
  exact hfind

/-- Processes leave the environment as it is, and show no more of the host to have changed than the calls that run them. -/
theorem keeps_runProcesses {ω : Type} (view : σ → ω)
    (hrun : ∀ mode stragglers, Keeps view (runPipeline host mode p stragglers))
    (hcomplain : ∀ text, Keeps view (host.complain text)) :
    Keeps (fun s : Session σ => (view s.host, s.shell.env)) (runProcesses host p) := by
  have honHost {α : Type} {c : StateM σ α} (hc : Keeps view c) :
      Keeps (fun s : Session σ => (view s.host, s.shell.env)) (onHost c) := fun s => congrArg (·, s.shell.env) (hc s.host)
  refine .bind (fun _ => rfl) fun s => .bind (honHost (hrun _ _)) fun result => .bind (fun _ => rfl) fun _ => ?_
  cases result.outcome with
  | ok code => exact .pure _
  | error e => exact .bind (honHost (hcomplain _)) fun _ => .pure _

end Shell

end PipelineShell
