import PipelineShell.Proofs.Session.Standard
import PipelineShell.Proofs.Session.Steady

/-!
# Lines that ask to leave

With the standard builtins it is seen on a line whether it asks to leave, and with which status (`Line.leaves?`). A line that does
ends with that statement and has its status. The loop runs the lines that standard input gives out up to the first of this kind
(`Feeds.readEvalLoop`).
-/

namespace PipelineShell

variable {σ ω : Type}

/-! ## Statements that ask to leave -/

/-- The status that a statement asks to leave with. -/
def Statement.leaves? (host : Host σ) (statement : Statement) : Option ExitCode :=
  match statement.request? host with
  | some (.leave code) => some code
  | _ => none

/-- The status that a line asks to leave with, where the builtins are the standard ones: that of its first statement to do so. -/
def Line.leaves? (host : Host σ) (limits : Limits) (line : String) : Option ExitCode :=
  match parseLine limits (Shell.trimLine line) with
  | .error _ => none
  | .ok statements => statements.findSome? (Statement.leaves? host)

namespace Shell

open Builtin

variable {host : Host σ} {s : Session σ}

/-- A statement that asks to leave does so with its status, and any other leaves the request as it is. -/
theorem runStatement_leaves (hbuiltins : s.shell.builtins = standard host) (statement : Statement) :
    match statement.leaves? host with
    | some code => ((runStatement host statement).run s).1 = code ∧
        ((runStatement host statement).run s).2.shell.env.exitRequested = some code
    | none => ((runStatement host statement).run s).2.shell.env.exitRequested = s.shell.env.exitRequested := by
  unfold Statement.leaves?
  cases statement with
  | discarded e => exact rfl
  | ready p =>
    rw [Statement.request?, runStatement]
    cases hr : p.single?.bind (Command.request? host) with
    | none =>
      rw [runReady_processes hbuiltins hr]
      have hkeeps : Keeps (fun s : Session σ => ((), s.shell.env)) (runProcesses host p) :=
        keeps_runProcesses (fun _ => ()) (fun _ _ _ => rfl) fun _ _ => rfl
      exact congrArg (·.2.exitRequested) (hkeeps s)
    | some r =>
      obtain ⟨c, outcome, after, hdoes, hrun⟩ := runReady_request hbuiltins hr
      rw [hrun]
      cases hdoes with
      | leave code => exact ⟨rfl, rfl⟩
      | unset | barred | moved | told | untold | helped | unhelped | refuse => rfl

/-- Of statements in order the first one that asks to leave is the last one run. -/
theorem runStatements_leaves (hbuiltins : s.shell.builtins = standard host) (hexit : s.shell.env.exitRequested = none)
    (status : ExitCode) (statements : List Statement) :
    ((runStatements host status statements).run s).2.shell.env.exitRequested =
        statements.findSome? (Statement.leaves? host) ∧
      ∀ code ∈ statements.findSome? (Statement.leaves? host), ((runStatements host status statements).run s).1 = code := by
  induction statements generalizing status s with
  | nil => exact ⟨hexit, nofun⟩
  | cons statement rest ih =>
    have hstep := runStatement_leaves hbuiltins statement
    rw [runStatements_cons, List.findSome?_cons]
    cases hleaves : statement.leaves? host with
    | some code =>
      rw [hleaves] at hstep
      obtain ⟨hstatus, hrequest⟩ := hstep
      rw [if_pos (by rw [Environment.shouldExit, hrequest]; rfl)]
      refine ⟨hrequest, fun code' hcode => ?_⟩
      rw [hstatus]
      exact Option.some.inj hcode
    | none =>
      rw [hleaves] at hstep
      have hrequest := hstep.trans hexit
      rw [if_neg (by rw [Environment.shouldExit, hrequest]; exact Bool.false_ne_true)]
      exact ih ((congrArg (·.1) (KeepsSetup.runStatement host statement s)).trans hbuiltins) hrequest _

/-- A line asks to leave with its status, or not at all. -/
theorem executeLine_leaves (hbuiltins : s.shell.builtins = standard host) (hexit : s.shell.env.exitRequested = none)
    (line : String) :
    ((executeLine host line).run s).2.shell.env.exitRequested = Line.leaves? host s.shell.limits line ∧
      ∀ code ∈ Line.leaves? host s.shell.limits line, ((executeLine host line).run s).1 = code := by
  unfold Line.leaves?
  cases hparse : parseLine s.shell.limits (trimLine line) with
  | error e =>
    rw [executeLine_of_error hparse]
    exact ⟨hexit, nofun⟩
  | ok statements =>
    rw [executeLine_of_ok hparse]
    exact runStatements_leaves (s := s.reaped host) hbuiltins hexit 0 statements

theorem KeepsSetup.executeLine (host : Host σ) (line : String) : KeepsSetup (executeLine host line) := fun s =>
  ensures_executeLine (P := fun t => t.shell.setup = s.shell.setup)
    (fun statement t ht => (KeepsSetup.runStatement host statement t).trans ht) (fun _ ht => ht) (fun _ _ ht => ht) line s rfl

end Shell

/-! ## The lines of standard input -/

/-- A host that keeps the lines of standard input for the loop: nothing that is done in a session with the standard builtins takes
one, and reading takes them in order. `pending` are those to come, and `view` shows what a statement sees of the host; what the loop
does besides running lines does not show. -/
structure Feeds (host : Host σ) (wait : WaitMode) (view : σ → ω) (pending : σ → List String) : Prop where
  /-- The programs that a statement starts leave standard input alone. -/
  statement (st : Statement) {s : Session σ} : s.shell.builtins = Builtin.standard host → s.shell.wait = wait →
    pending ((Shell.runStatement host st).run s).2.host = pending s.host
  complain (text : String) : Keeps pending (host.complain text)
  poll (child : Pid) : Unseen view pending (host.wait child .poll).run
  environment : Unseen view pending host.environment
  currentDirectory : Unseen view pending host.currentDirectory.run
  lineBound : Unseen view pending host.lineBound
  bound (u : σ) : (pending u).length ≤ (host.lineBound.run u).1
  atEnd (prompt : String) {u : σ} : pending u = [] → ((host.readLine prompt).run u).1 = .ok none
  next (prompt : String) {u : σ} {line : String} {rest : List String} : pending u = line :: rest →
    (∃ text, ((host.readLine prompt).run u).1 = .ok (some text) ∧ Line.ofInput text = line) ∧
      view ((host.readLine prompt).run u).2 = view u ∧ pending ((host.readLine prompt).run u).2 = rest

/-- The lines that a loop has run, each with its status. Between them the shell stays as it is, and so does what a statement sees. -/
inductive Turns (host : Host σ) (view : σ → ω) : Session σ → List (String × ExitCode) → Session σ → Prop
  | stop {s t : Session σ} (shell : t.shell = s.shell) : Turns host view s [] t
  | turn {s u w t : Session σ} {line : String} {code : ExitCode} {turns : List (String × ExitCode)} (shell : u.shell = s.shell)
    (seen : view u.host = view s.host) (run : (Shell.executeLine host line).run u = (code, w))
    (rest : Turns host view w turns t) : Turns host view s ((line, code) :: turns) t

theorem Turns.of_quiet {host : Host σ} {view : σ → ω} {s s' t : Session σ} {turns : List (String × ExitCode)}
    (h : Turns host view s' turns t) (hshell : s'.shell = s.shell) (hview : view s'.host = view s.host) :
    Turns host view s turns t := by
  cases h with
  | stop shell => exact .stop (shell.trans hshell)
  | turn shell seen run rest => exact .turn (shell.trans hshell) (seen.trans hview) run rest

/-- How a loop comes to its end: all lines have been run and none has asked to leave, or the last one run is the first to have done
so, and those after it are still to come. -/
inductive LoopEnd (host : Host σ) (limits : Limits) (pending : σ → List String) (lines : List String)
    (turns : List (String × ExitCode)) (t : Session σ) : Prop
  | all (run : turns.map Prod.fst = lines) (stays : ∀ line ∈ lines, Line.leaves? host limits line = none)
    (request : t.shell.env.exitRequested = none)
  | left (earlier : List String) (line : String) (later : List String) (code : ExitCode) (lines_eq : lines = earlier ++ line :: later)
    (run : turns.map Prod.fst = earlier ++ [line]) (stays : ∀ line ∈ earlier, Line.leaves? host limits line = none)
    (leaves : Line.leaves? host limits line = some code) (request : t.shell.env.exitRequested = some code)
    (unread : pending t.host = later)

namespace Feeds

open Shell

variable {host : Host σ} {wait : WaitMode} {view : σ → ω} {pending : σ → List String} {s : Session σ} {line : String}
  {rest : List String}

/-- A session with the standard builtins and this wait mode. -/
def Fits (host : Host σ) (wait : WaitMode) (s : Session σ) : Prop := s.shell.builtins = Builtin.standard host ∧ s.shell.wait = wait

theorem Fits.of_setup {t : Session σ} (h : Fits host wait s) (hsetup : t.shell.setup = s.shell.setup) : Fits host wait t :=
  ⟨(congrArg (·.1) hsetup).trans h.1, (congrArg (·.2.2) hsetup).trans h.2⟩

/-- A line that is run takes none of the lines after it. -/
theorem executeLine (h : Feeds host wait view pending) (hs : Fits host wait s) (line : String) :
    pending ((Shell.executeLine host line).run s).2.host = pending s.host := by
  have hstatement (statement : Statement) :
      Ensures (fun t => Fits host wait t ∧ pending t.host = pending s.host) (Shell.runStatement host statement)
        fun _ t => Fits host wait t ∧ pending t.host = pending s.host := fun t ht =>
    ⟨ht.1.of_setup (KeepsSetup.runStatement host statement t), (h.statement statement ht.1.1 ht.1.2).trans ht.2⟩
  have hreaped (t : Session σ) : pending (t.reaped host).host = pending t.host :=
    poll_keeps (fun child u => (h.poll child u).2) t.shell.stragglers t.host
  exact (ensures_executeLine hstatement (fun t ht => ⟨ht.1, (hreaped t).trans ht.2⟩)
    (fun text t ht => ⟨ht.1, (h.complain text t.host).trans ht.2⟩) line s ⟨hs, rfl⟩).2

/-- At the end of the lines the loop ends with the status it has. -/
theorem runLines_nil (h : Feeds host wait view pending) (asks : Nat) (status : ExitCode)
    (hpending : pending s.host = []) (hstay : s.shell.env.shouldExit = false) :
    ∃ t : Session σ, t.shell = s.shell ∧ (Shell.runLines host asks status).run s = (.ok status, t) := by
  cases asks with
  | zero => exact ⟨s, rfl, rfl⟩
  | succ asks =>
    have hend := h.atEnd (prompt s.shell) hpending
    rcases hasked : (host.readLine (prompt s.shell)).run s.host with ⟨read, u⟩
    rw [hasked] at hend
    obtain rfl := hend
    exact ⟨{ s with host := u }, rfl, runLines_succ asks hstay hasked⟩

/-- A line is asked for and run, and then the others. -/
theorem runLines_cons (h : Feeds host wait view pending) (asks : Nat) (status : ExitCode)
    (hpending : pending s.host = line :: rest) (hstay : s.shell.env.shouldExit = false) :
    ∃ u : Session σ, u.shell = s.shell ∧ view u.host = view s.host ∧ pending u.host = rest ∧
      (Shell.runLines host (asks + 1) status).run s =
        (Shell.runLines host asks ((Shell.executeLine host line).run u).1).run ((Shell.executeLine host line).run u).2 := by
  have hnext := h.next (prompt s.shell) hpending
  rcases hasked : (host.readLine (prompt s.shell)).run s.host with ⟨read, u⟩
  rw [hasked] at hnext
  obtain ⟨⟨text, rfl, rfl⟩, hseen, hrest⟩ := hnext
  refine ⟨{ s with host := u }, rfl, hseen, hrest, (runLines_succ asks hstay hasked).trans ?_⟩
  exact run_bind_of_run (Prod.eta _).symm _

end Feeds

/-- A line that does not ask to leave comes before the others. -/
theorem LoopEnd.cons {host : Host σ} {limits : Limits} {pending : σ → List String} {line : String} {lines : List String}
    {turns : List (String × ExitCode)} {t : Session σ} (h : LoopEnd host limits pending lines turns t)
    (hline : Line.leaves? host limits line = none) (code : ExitCode) :
    LoopEnd host limits pending (line :: lines) ((line, code) :: turns) t := by
  cases h with
  | all run stays request =>
    exact .all (congrArg (line :: ·) run) (List.forall_mem_cons.mpr ⟨hline, stays⟩) request
  | left earlier last later code lines_eq run stays leaves request unread =>
    exact .left (line :: earlier) last later code (congrArg (line :: ·) lines_eq) (congrArg (line :: ·) run)
      (List.forall_mem_cons.mpr ⟨hline, stays⟩) leaves request unread

namespace Feeds

open Shell

variable {host : Host σ} {wait : WaitMode} {view : σ → ω} {pending : σ → List String} {s : Session σ}

/-- The lines are run in order, up to the end or to the first that asks to leave. -/
theorem runLines (h : Feeds host wait view pending) (lines : List String) {asks : Nat}
    (hasks : lines.length ≤ asks) (status : ExitCode) (hs : Fits host wait s) (hexit : s.shell.env.exitRequested = none)
    (hpending : pending s.host = lines) :
    ∃ turns t, (Shell.runLines host asks status).run s = (.ok ((turns.getLast?.map Prod.snd).getD status), t) ∧
      Turns host view s turns t ∧ LoopEnd host s.shell.limits pending lines turns t := by
  induction lines generalizing s asks status with
  | nil =>
    have hstay : s.shell.env.shouldExit = false := by rw [Environment.shouldExit, hexit]; rfl
    obtain ⟨t, hshell, hrun⟩ := h.runLines_nil asks status hpending hstay
    exact ⟨[], t, hrun, .stop hshell, .all rfl nofun (by rw [hshell, hexit])⟩
  | cons line rest ih =>
    have hstay : s.shell.env.shouldExit = false := by rw [Environment.shouldExit, hexit]; rfl
    obtain ⟨asks, rfl⟩ := Nat.exists_eq_add_of_le' (Nat.lt_of_lt_of_le (Nat.succ_pos _) hasks)
    obtain ⟨u, hshell, hview, hrest, hrun⟩ := h.runLines_cons asks status hpending hstay
    have hu : Fits host wait u := hs.of_setup (congrArg Shell.setup hshell)
    have hunread := (h.executeLine hu line).trans hrest
    have hsetup := KeepsSetup.executeLine host line u
    have hrequest := (executeLine_leaves hu.1 (hshell ▸ hexit) line).1
    rw [hrun]
    rcases hline : (Shell.executeLine host line).run u with ⟨code, w⟩
    rw [hline] at hunread hsetup hrequest
    rw [hshell] at hrequest
    cases hleaves : Line.leaves? host s.shell.limits line with
    | some asked =>
      rw [hleaves] at hrequest
      rw [runLines_of_exit asks (by rw [Environment.shouldExit, hrequest]; rfl)]
      exact ⟨[(line, code)], w, rfl, .turn hshell hview hline (.stop rfl),
        .left [] line rest asked rfl rfl nofun hleaves hrequest hunread⟩
    | none =>
      rw [hleaves] at hrequest
      obtain ⟨turns, t, hrun', hturns, hend⟩ := ih (Nat.le_of_succ_le_succ hasks) code (hu.of_setup hsetup) hrequest hunread
      have hlimits : w.shell.limits = s.shell.limits := (congrArg (·.2.1) hsetup).trans (congrArg Shell.limits hshell)
      rw [hlimits] at hend
      refine ⟨(line, code) :: turns, t, ?_, .turn hshell hview hline hturns, hend.cons hleaves code⟩
      rw [hrun', List.getLast?_cons]
      cases turns.getLast? <;> rfl

/-- The loop ends with the status asked to leave with, or else with that of the last line. -/
theorem readEvalLoop (h : Feeds host wait view pending) (hs : Fits host wait s) (hexit : s.shell.env.exitRequested = none) :
    ∃ turns t, (Shell.readEvalLoop host).run s =
        (.ok (t.shell.env.exitRequested.getD ((turns.getLast?.map Prod.snd).getD 0)), t) ∧
      Turns host view s turns t ∧ LoopEnd host s.shell.limits pending (pending s.host) turns t := by
  let bound := host.lineBound.run s.host
  obtain ⟨hview, hpending⟩ := h.lineBound s.host
  obtain ⟨turns, t, hrun, hturns, hend⟩ := h.runLines (pending s.host) (Nat.le_succ_of_le (h.bound s.host)) 0
    (s := { s with host := bound.2 }) hs hexit hpending
  refine ⟨turns, t, ?_, hturns.of_quiet rfl hview, hend⟩
  have hloop : (Shell.readEvalLoop host).run s = (do
      let result ← Shell.runLines host (bound.1 + 1) 0
      let shell := (← get).shell
      return result.map shell.env.exitRequested.getD : ShellM σ _).run { s with host := bound.2 } := rfl
  rw [hloop, run_bind_of_run hrun]
  rfl

end Feeds

end PipelineShell
