import Mathlib.Data.List.Forall2
import PipelineShell.Proofs.Session.Transcript

/-!
# Lines and the statements on them

The loop runs lines one after another, and of each line its statements. Where what a statement does depends on nothing that the loop
does besides (`Steady`), it does not matter which statement is on which line: the loop does what running all of them in order does,
as long as no line is refused (`Steady.readEvalLoop_lines`).
-/

namespace PipelineShell

variable {σ ω α : Type}

/-! ## What statements depend on -/

/-- The part of a shell that no statement changes. -/
def Shell.setup (s : Shell σ) : List (Builtin σ) × Limits × WaitMode := (s.builtins, s.limits, s.wait)

/-- Two sessions that differ at most in their stragglers and in what `view` does not show of their hosts. -/
structure Session.Alike (view : σ → ω) (s t : Session σ) : Prop where
  setup : s.shell.setup = t.shell.setup
  env : s.shell.env = t.shell.env
  host : view s.host = view t.host

/-- What is done to a host neither shows nor takes a line from standard input. -/
def Unseen (view : σ → ω) (pending : σ → List String) (c : StateM σ α) : Prop :=
  ∀ u, view (c.run u).2 = view u ∧ pending (c.run u).2 = pending u

/-- What statements do in a shell that waits for its children, and what the host does between them. `view` shows of the host all that
a statement sees and that it changes, and `pending` the lines that standard input will give out. -/
structure Steady (host : Host σ) (builtins : List (Builtin σ)) (view : σ → ω) (pending : σ → List String) : Prop where
  /-- What a statement does is a function of what it sees. -/
  statement (st : Statement) {s t : Session σ} : s.shell.builtins = builtins → s.shell.wait = .block → s.Alike view t →
    ((Shell.runStatement host st).run s).1 = ((Shell.runStatement host st).run t).1 ∧
      ((Shell.runStatement host st).run s).2.Alike view ((Shell.runStatement host st).run t).2
  /-- It leaves standard input alone. -/
  keeps (st : Statement) {s : Session σ} : s.shell.builtins = builtins → s.shell.wait = .block →
    pending ((Shell.runStatement host st).run s).2.host = pending s.host
  poll (child : Pid) : Unseen view pending (host.wait child .poll).run
  lineBound : Unseen view pending host.lineBound
  bound (u : σ) : (pending u).length ≤ (host.lineBound.run u).1
  atEnd (prompt : String) {u : σ} : pending u = [] →
    ((host.readLine prompt).run u).1 = .ok none ∧ view ((host.readLine prompt).run u).2 = view u
  next (prompt : String) {u : σ} {line : String} {rest : List String} : pending u = line :: rest →
    (∃ text, ((host.readLine prompt).run u).1 = .ok (some text) ∧ Line.ofInput text = line) ∧
      view ((host.readLine prompt).run u).2 = view u ∧ pending ((host.readLine prompt).run u).2 = rest

namespace Shell

/-- Code of a session that leaves the setup of the shell as it is. -/
def KeepsSetup (c : ShellM σ α) : Prop := ∀ s, (c.run s).2.shell.setup = s.shell.setup

namespace KeepsSetup

variable (host : Host σ)

theorem pure (a : α) : KeepsSetup (Pure.pure a : ShellM σ α) := fun _ => rfl

theorem bind {β : Type} {c : ShellM σ α} {f : α → ShellM σ β} (hc : KeepsSetup c) (hf : ∀ a, KeepsSetup (f a)) :
    KeepsSetup (c >>= f) := fun s => (hf _ _).trans (hc s)

theorem get : KeepsSetup (MonadState.get : ShellM σ (Session σ)) := fun _ => rfl

theorem onHost (c : StateM σ α) : KeepsSetup (onHost c) := fun _ => rfl

theorem runBuiltin (code : BuiltinM σ ExitCode) (writer : Writer σ) : KeepsSetup (runBuiltin code writer) := fun _ => rfl

theorem setStragglers (stragglers : Stragglers) :
    KeepsSetup (modifyShell ({ · with stragglers }) : ShellM σ Unit) := fun _ => rfl

theorem runProcesses (pipeline : Pipeline) : KeepsSetup (runProcesses host pipeline) := by
  refine bind get fun s => bind (onHost _) fun result => bind (setStragglers _) fun _ => ?_
  cases result.outcome with
  | ok code => exact pure _
  | error e => exact bind (onHost _) fun _ => pure _

theorem tryBuiltin (c : Command) (writer : Writer σ) : KeepsSetup (tryBuiltin host c writer) := by
  refine bind get fun s => ?_
  cases findBuiltin? s.shell.builtins c with
  | none => exact pure _
  | some code =>
    refine bind (runBuiltin code writer) fun ran => ?_
    obtain ⟨outcome, writer⟩ := ran
    cases outcome with
    | ok code => exact pure _
    | error failure => exact bind (onHost _) fun _ => pure _

theorem runReady (pipeline : Pipeline) : KeepsSetup (runReady host pipeline) := by
  unfold Shell.runReady
  cases pipeline.single? with
  | none => exact runProcesses host pipeline
  | some c =>
    refine bind (tryBuiltin host c _) fun offered => ?_
    obtain ⟨dispatch, writer⟩ := offered
    cases dispatch with
    | ranAsBuiltin code => exact pure _
    | notABuiltin => exact runProcesses host pipeline

theorem runStatement (statement : Statement) : KeepsSetup (runStatement host statement) := by
  cases statement with
  | ready pipeline => exact runReady host pipeline
  | discarded e => exact bind (onHost _) fun _ => pure _

end KeepsSetup

end Shell

/-! ## Two transcripts side by side -/

namespace Transcript

/-- The same statements have been run, and what comes next cannot tell the sessions apart. -/
structure Matched (view : σ → ω) (p q : Session σ × List Act) : Prop where
  alike : p.1.Alike view q.1
  acts : p.2 = q.2

/-- A session with these builtins and limits that waits for its children and has these lines to come. -/
structure Awaits (builtins : List (Builtin σ)) (limits : Limits) (pending : σ → List String) (lines : List String)
    (p : Session σ × List Act) : Prop where
  setup : p.1.shell.setup = (builtins, limits, .block)
  lines : pending p.1.host = lines

variable {host : Host σ} {builtins : List (Builtin σ)} {limits : Limits} {view : σ → ω} {pending : σ → List String}
  {lines : List String} {p q r : Session σ × List Act}

namespace Awaits

theorem builtins_eq (h : Awaits builtins limits pending lines p) : p.1.shell.builtins = builtins := congrArg (·.1) h.setup

theorem limits_eq (h : Awaits builtins limits pending lines p) : p.1.shell.limits = limits := congrArg (·.2.1) h.setup

theorem wait_eq (h : Awaits builtins limits pending lines p) : p.1.shell.wait = .block := congrArg (·.2.2) h.setup

end Awaits

namespace Matched

theorem refl (p : Session σ × List Act) : Matched view p p := ⟨⟨rfl, rfl, rfl⟩, rfl⟩

theorem trans (hpq : Matched view p q) (hqr : Matched view q r) : Matched view p r where
  alike := ⟨hpq.alike.setup.trans hqr.alike.setup, hpq.alike.env.trans hqr.alike.env, hpq.alike.host.trans hqr.alike.host⟩
  acts := hpq.acts.trans hqr.acts

end Matched

/-- What is done to the host and does not show leaves everything as it is that the next statement sees. -/
theorem onHost_matched {c : StateM σ α} (hc : Unseen view pending c) (hp : Awaits builtins limits pending lines p) :
    Matched view ((offRecord (Shell.onHost c)).run p).2 p ∧
      Awaits builtins limits pending lines ((offRecord (Shell.onHost c)).run p).2 :=
  ⟨⟨⟨rfl, rfl, (hc p.1.host).1⟩, rfl⟩, ⟨hp.setup, (hc p.1.host).2.trans hp.lines⟩⟩

end Transcript

namespace Steady

open Transcript

variable {host : Host σ} {builtins : List (Builtin σ)} {limits : Limits} {view : σ → ω} {pending : σ → List String}
  {lines rest : List String} {line : String} {p q : Session σ × List Act}

/-- A statement is run alike, and leaves the lines to come. -/
theorem runStatement (h : Steady host builtins view pending) (statement : Statement)
    (hp : Awaits builtins limits pending lines p) (hm : Matched view p q) :
    ((runStatement host statement).run p).1 = ((runStatement host statement).run q).1 ∧
      Matched view ((runStatement host statement).run p).2 ((runStatement host statement).run q).2 ∧
      Awaits builtins limits pending lines ((runStatement host statement).run p).2 := by
  obtain ⟨hstatus, halike⟩ := h.statement statement hp.builtins_eq hp.wait_eq hm.alike
  have hsetup := Shell.KeepsSetup.runStatement host statement p.1
  refine ⟨hstatus, ⟨halike, ?_⟩, ⟨hsetup.trans hp.setup, (h.keeps statement hp.builtins_eq hp.wait_eq).trans hp.lines⟩⟩
  show p.2 ++ [⟨statement, p.1.shell.env, ((Shell.runStatement host statement).run p.1).1⟩] =
    q.2 ++ [⟨statement, q.1.shell.env, ((Shell.runStatement host statement).run q.1).1⟩]
  rw [hm.acts, hm.alike.env, hstatus]

/-- And so are statements in order. -/
theorem runStatements (h : Steady host builtins view pending) (status : ExitCode) (statements : List Statement)
    (hp : Awaits builtins limits pending lines p) (hm : Matched view p q) :
    ((runStatements host status statements).run p).1 = ((runStatements host status statements).run q).1 ∧
      Matched view ((runStatements host status statements).run p).2 ((runStatements host status statements).run q).2 ∧
      Awaits builtins limits pending lines ((runStatements host status statements).run p).2 := by
  induction statements generalizing status p q with
  | nil => exact ⟨rfl, hm, hp⟩
  | cons statement rest ih =>
    obtain ⟨hstatus, hm', hp'⟩ := h.runStatement statement hp hm
    rw [runStatements_cons, runStatements_cons, ← hm'.alike.env, ← hstatus]
    split
    · exact ⟨hstatus, hm', hp'⟩
    · exact ih _ hp' hm'

/-! ## What is done between statements -/

theorem reap (h : Steady host builtins view pending) (hp : Awaits builtins limits pending lines p) :
    Matched view (p.1.reaped host, p.2) p ∧ Awaits builtins limits pending lines (p.1.reaped host, p.2) :=
  ⟨⟨⟨rfl, rfl, poll_keeps (fun child u => (h.poll child u).1) _ _⟩, rfl⟩,
    ⟨hp.setup, (poll_keeps (fun child u => (h.poll child u).2) _ _).trans hp.lines⟩⟩

/-- At the end of the lines the loop ends with the status it has. -/
theorem runLines_nil (h : Steady host builtins view pending) (asks : Nat) (status : ExitCode)
    (hp : Awaits builtins limits pending [] p) (hstay : p.1.shell.env.shouldExit = false) :
    ∃ p', (runLines host asks status).run p = (.ok status, p') ∧ Matched view p' p := by
  cases asks with
  | zero => exact ⟨p, rfl, .refl p⟩
  | succ asks =>
    have hend := h.atEnd (Shell.prompt p.1.shell) hp.lines
    rcases hasked : (host.readLine (Shell.prompt p.1.shell)).run p.1.host with ⟨read, u⟩
    rw [hasked] at hend
    obtain ⟨rfl, hview⟩ := hend
    exact ⟨({ p.1 with host := u }, p.2), runLines_succ asks hstay hasked, ⟨rfl, rfl, hview⟩, rfl⟩

/-- A line is asked for and run, and then the others. -/
theorem runLines_cons (h : Steady host builtins view pending) (asks : Nat) (status : ExitCode)
    (hp : Awaits builtins limits pending (line :: rest) p) (hstay : p.1.shell.env.shouldExit = false) :
    ∃ p', Matched view p' p ∧ Awaits builtins limits pending rest p' ∧
      (runLines host (asks + 1) status).run p =
        (do runLines host asks (← executeLine host line) : TranscriptM σ _).run p' := by
  have hnext := h.next (Shell.prompt p.1.shell) hp.lines
  rcases hasked : (host.readLine (Shell.prompt p.1.shell)).run p.1.host with ⟨read, u⟩
  rw [hasked] at hnext
  obtain ⟨⟨text, rfl, rfl⟩, hview, hrest⟩ := hnext
  refine ⟨({ p.1 with host := u }, p.2), ⟨⟨rfl, rfl, hview⟩, rfl⟩, ⟨hp.setup, hrest⟩, ?_⟩
  rw [runLines_succ asks hstay hasked, afterAsking]

/-- What the loop does with lines that are accepted is what running their statements does, all in one. -/
theorem runLines_flatten (h : Steady host builtins view pending) {stss : List (List Statement)}
    (hlines : List.Forall₂ (fun line sts => parseLine limits (Shell.trimLine line) = .ok sts ∧ sts ≠ []) lines stss)
    {asks : Nat} (hasks : lines.length ≤ asks) (status : ExitCode) (hp : Awaits builtins limits pending lines p)
    (hstay : p.1.shell.env.shouldExit = false) (hm : Matched view p q) :
    ∃ p', (runLines host asks status).run p = (.ok ((Transcript.runStatements host status stss.flatten).run q).1, p') ∧
      Matched view p' ((Transcript.runStatements host status stss.flatten).run q).2 := by
  -- `q` runs the statements without the lines, and stays matched with `p` from line to line
  induction hlines generalizing p q asks status with
  | nil =>
    obtain ⟨p', hrun, hm'⟩ := h.runLines_nil asks status hp hstay
    exact ⟨p', hrun, hm'.trans hm⟩
  | @cons line sts lines stss hline hlines ih =>
    obtain ⟨hparse, hsts⟩ := hline
    obtain ⟨asks, rfl⟩ := Nat.exists_eq_add_of_le' (Nat.lt_of_lt_of_le (Nat.succ_pos _) hasks)
    obtain ⟨p₁, hm₁, hp₁, hrun⟩ := h.runLines_cons asks status hp hstay
    obtain ⟨hm₂, hp₂⟩ := h.reap hp₁
    rw [← hp₁.limits_eq] at hparse
    obtain ⟨hstatus, hm₃, hp₃⟩ := h.runStatements 0 sts hp₂ ((hm₂.trans hm₁).trans hm)
    rw [hrun, StateT.run_bind, executeLine_of_ok hparse, List.flatten_cons, runStatements_append host status hsts,
      ← hm₃.alike.env, ← hstatus]
    show ∃ p', (runLines host asks _).run _ = _ ∧ _
    split
    · rename_i hexit
      refine ⟨_, ?_, hm₃⟩
      rw [← hstatus]
      exact runLines_of_exit asks hexit
    · rename_i hgoes
      exact ih (Nat.le_of_succ_le_succ hasks) _ hp₃ (by simpa using hgoes) hm₃

/-- The loop runs the statements of the lines in order, up to the end or to the first after which a builtin has asked to leave. -/
theorem readEvalLoop_lines (h : Steady host builtins view pending) {stss : List (List Statement)}
    (hlines : List.Forall₂ (fun line sts => parseLine limits (Shell.trimLine line) = .ok sts ∧ sts ≠ []) lines stss)
    (hp : Awaits builtins limits pending lines p) (hstay : p.1.shell.env.shouldExit = false) (hm : Matched view p q) :
    let last := (Transcript.runStatements host 0 stss.flatten).run q
    ∃ p', (readEvalLoop host).run p = (.ok (last.2.1.shell.env.exitRequested.getD last.1), p') ∧ Matched view p' last.2 := by
  intro last
  let bound := (offRecord (Shell.onHost host.lineBound)).run p
  obtain ⟨hm₁, hp₁⟩ := onHost_matched h.lineBound hp
  have hasks : lines.length ≤ bound.1 + 1 := by
    rw [← hp.lines]
    exact Nat.le_succ_of_le (h.bound _)
  have hstay₁ : bound.2.1.shell.env.shouldExit = false := by rw [hm₁.alike.env, hstay]
  obtain ⟨p', hrun, hm'⟩ := h.runLines_flatten hlines hasks 0 hp₁ hstay₁ (hm₁.trans hm)
  refine ⟨p', ?_, hm'⟩
  have hloop : (readEvalLoop host).run p = (do
      let result ← runLines host (bound.1 + 1) 0
      let shell := (← offRecord get).shell
      return result.map shell.env.exitRequested.getD : TranscriptM σ _).run bound.2 := rfl
  rw [hloop, run_bind_of_run hrun, ← hm'.alike.env]
  rfl

end Steady

end PipelineShell
